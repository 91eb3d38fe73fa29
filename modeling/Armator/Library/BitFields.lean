import Mathlib.Data.BitVec

namespace BitFields

variable {w : Nat}

def bit (x : BitVec w) (i : Nat) : Bool := x.getLsbD i

theorem bit_ext {x y : BitVec w} (h : ∀ i < w, bit x i = bit y i) : x = y :=
  BitVec.eq_of_getLsbD_eq h

theorem bit_eq_decide (x : BitVec w) (i : Nat) :
    bit x i = decide (x.toNat / 2 ^ i % 2 = 1) :=
  Nat.testBit_eq_decide_div_mod_eq

theorem bit_toNat (x : BitVec w) (i : Nat) : (bit x i).toNat = x.toNat / 2 ^ i % 2 :=
  Nat.toNat_testBit x.toNat i

theorem bit_and (x y : BitVec w) (i : Nat) : bit (x &&& y) i = (bit x i && bit y i) :=
  BitVec.getLsbD_and

theorem bit_or (x y : BitVec w) (i : Nat) : bit (x ||| y) i = (bit x i || bit y i) :=
  BitVec.getLsbD_or

theorem eq_iff_bits (x y : BitVec w) : x = y ↔ ∀ i < w, bit x i = bit y i :=
  ⟨fun h _ _ => by rw [h], bit_ext⟩

theorem bit_zero (i : Nat) : bit (0#w) i = false := BitVec.getLsbD_zero

theorem bit_allOnes (i : Nat) (h : i < w) : bit (BitVec.allOnes w) i = true := by
  rw [bit, BitVec.getLsbD_allOnes, decide_eq_true h]

theorem bit_sshiftRight (x : BitVec w) (n i : Nat) (h : i < w) :
    bit (x.sshiftRight n) i = if n + i < w then bit x (n + i) else x.msb := by
  rw [bit, BitVec.getLsbD_sshiftRight, decide_eq_false (Nat.not_le.mpr h)]
  rfl

theorem bit_one (i : Nat) : bit (1#(w + 1)) i = decide (i = 0) := by
  simp [bit, BitVec.getLsbD_one]

theorem bit_and_one (x : BitVec (w + 1)) (j : Nat) :
    bit (x &&& 1#(w + 1)) j = (decide (j = 0) && bit x 0) := by
  rw [bit, BitVec.getLsbD_and, BitVec.getLsbD_one, bit]
  cases j with
  | zero => simp
  | succ j => simp

theorem and_one_eq_one_iff (x : BitVec (w + 1)) : x &&& 1#(w + 1) = 1#(w + 1) ↔ bit x 0 = true := by
  constructor
  · intro h
    have h0 := bit_and_one x 0
    rw [h, bit_one] at h0
    simpa using h0.symm
  · intro h
    apply bit_ext
    intro j _
    rw [bit_and_one, h, bit_one, Bool.and_true]

theorem and_one_eq_zero_iff (x : BitVec (w + 1)) :
    x &&& 1#(w + 1) = 0#(w + 1) ↔ bit x 0 = false := by
  constructor
  · intro h
    have h0 := bit_and_one x 0
    rw [h] at h0
    simpa [bit] using h0.symm
  · intro h
    apply bit_ext
    intro j _
    rw [bit_and_one, h, Bool.and_false, bit, BitVec.getLsbD_zero]

theorem bit_ushiftRight (x : BitVec w) (n i : Nat) : bit (x >>> n) i = bit x (n + i) :=
  BitVec.getLsbD_ushiftRight x n i

theorem bit_shiftLeft (x : BitVec w) (n i : Nat) (hi : i < w) :
    bit (x <<< n) i = (decide (n ≤ i) && bit x (i - n)) := by
  rw [bit, BitVec.getLsbD_shiftLeft]
  by_cases h : n ≤ i
  · simp [hi, h, Nat.not_lt.mpr h, bit]
  · simp [h, Nat.not_le.mp h]

theorem bit_setWidth (x : BitVec w) (n i : Nat) (h : i < n) : bit (x.setWidth n) i = bit x i := by
  simp [bit, h]

theorem bit_low_mask (x : BitVec w) (n i : Nat) :
    bit (x &&& ~~~((BitVec.allOnes w >>> n) <<< n)) i = (decide (i < n) && bit x i) := by
  rw [bit, bit, BitVec.getLsbD_and, BitVec.getLsbD_not, BitVec.getLsbD_shiftLeft,
    BitVec.getLsbD_ushiftRight, BitVec.getLsbD_allOnes]
  rcases Nat.lt_or_ge i w with hi | hi
  · by_cases hn : i < n
    · simp [hi, hn]
    · have hm : n + (i - n) < w := by omega
      simp [hi, hn, hm]
  · simp [BitVec.getLsbD_of_ge x i hi]

theorem low_mask_eq (x : BitVec w) (n : Nat) :
    x &&& ~~~((BitVec.allOnes w >>> n) <<< n) = (x.setWidth n).setWidth w := by
  apply bit_ext
  intro i hi
  rw [bit_low_mask, bit_setWidth _ _ _ hi]
  simp [bit]

theorem low_mask_toNat (x : BitVec w) (n : Nat) :
    (x &&& ~~~((BitVec.allOnes w >>> n) <<< n)).toNat = x.toNat % 2 ^ n := by
  have hb : x.toNat % 2 ^ n ≤ x.toNat := Nat.mod_le _ _
  rw [low_mask_eq, BitVec.toNat_setWidth, BitVec.toNat_setWidth]
  exact Nat.mod_eq_of_lt (Nat.lt_of_le_of_lt hb x.isLt)

theorem mask_toNat (x : BitVec w) (n : Nat) (m : BitVec w) (hm : m.toNat = 2 ^ n - 1) :
    (x &&& m).toNat = x.toNat % 2 ^ n := by
  rw [BitVec.toNat_and, hm, Nat.and_two_pow_sub_one_eq_mod]

theorem field_add {x y : BitVec w} {a b n : Nat} (hx : x.toNat = a) (hy : y.toNat = b)
    (h : a + b * 2 ^ n < 2 ^ w) : (x + y <<< n).toNat = a + b * 2 ^ n := by
  have hb : (y <<< n).toNat = b * 2 ^ n := by
    rw [BitVec.toNat_shiftLeft, hy, Nat.shiftLeft_eq]
    exact Nat.mod_eq_of_lt (Nat.lt_of_le_of_lt (Nat.le_add_left _ _) h)
  rw [BitVec.toNat_add, hx, hb, Nat.mod_eq_of_lt h]

def putBit (x : BitVec w) (k : Nat) (b : Bool) : BitVec w :=
  if b then x ||| (1#w <<< k) else x &&& ~~~(1#w <<< k)

theorem bit_putBit (x : BitVec w) (k i : Nat) (b : Bool) (hk : k < w) :
    bit (putBit x k b) i = if i = k then b else bit x i := by
  cases b with
  | false =>
      change (x &&& ~~~(1#w <<< k)).getLsbD i = if i = k then false else x.getLsbD i
      rw [BitVec.getLsbD_and, BitVec.getLsbD_not, ← BitVec.twoPow_eq, BitVec.getLsbD_twoPow]
      rcases Nat.lt_or_ge i w with hi | hi
      · by_cases h : i = k
        · subst h; simp [hi]
        · simp [h, hi, Ne.symm h]
      · simp [BitVec.getLsbD_of_ge x i hi]
  | true =>
      change (x ||| (1#w <<< k)).getLsbD i = if i = k then true else x.getLsbD i
      rw [BitVec.getLsbD_or, ← BitVec.twoPow_eq, BitVec.getLsbD_twoPow]
      by_cases h : i = k
      · subst h; simp [hk]
      · simp [h, Ne.symm h]

theorem putBit_eq_self_iff (x : BitVec w) (k : Nat) (b : Bool) (hk : k < w) :
    putBit x k b = x ↔ bit x k = b := by
  constructor
  · intro h
    have hb := bit_putBit x k k b hk
    simpa [h] using hb
  · intro h
    apply bit_ext
    intro i _
    rw [bit_putBit x k i b hk]
    by_cases hi : i = k
    · subst hi; simp [h]
    · simp [hi]

theorem and_not_bit (x : BitVec w) (k : Nat) (hk : k < w) :
    x &&& ~~~(1#w <<< k) = if bit x k then x - 1#w <<< k else x := by
  split
  · rename_i h
    have hd : (x &&& ~~~(1#w <<< k)) &&& (1#w <<< k) = 0#w := by
      rw [BitVec.and_assoc, BitVec.and_comm (~~~(1#w <<< k)), BitVec.and_not_self]
      exact BitVec.and_zero
    have hs : (x &&& ~~~(1#w <<< k)) + (1#w <<< k) = x := by
      rw [BitVec.add_eq_or_of_and_eq_zero _ _ hd]
      apply bit_ext
      intro i _
      change bit (putBit (putBit x k false) k true) i = bit x i
      rw [bit_putBit _ _ _ _ hk, bit_putBit _ _ _ _ hk]
      by_cases hi : i = k
      · subst hi; simp [h]
      · simp [hi]
    exact BitVec.eq_sub_iff_add_eq.mpr hs
  · rename_i h
    exact (putBit_eq_self_iff x k false hk).mpr (by simpa using h)

theorem setWidth_congr (x y : BitVec w) (n : Nat) (h : ∀ i < n, bit x i = bit y i) :
    x.setWidth n = y.setWidth n := by
  apply bit_ext
  intro i hi
  rw [bit_setWidth _ _ _ hi, bit_setWidth _ _ _ hi, h i hi]

end BitFields
