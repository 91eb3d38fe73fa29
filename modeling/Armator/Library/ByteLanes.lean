import Armator.Library.BitFields
import Mathlib.Tactic.IntervalCases

namespace ByteLanes

open BitFields

variable {w : Nat}

def lane (x : BitVec w) (i : Nat) : BitVec 8 := (x >>> (8 * i)).setWidth 8

theorem bit_lane (x : BitVec w) (i k : Nat) (hk : k < 8) : bit (lane x i) k = bit x (8 * i + k) := by
  rw [lane, bit_setWidth _ _ _ hk, bit_ushiftRight]

theorem lane_toNat (x : BitVec w) (i : Nat) :
    (lane x i).toNat = x.toNat / 2 ^ (8 * i) % 256 := by
  rw [lane, BitVec.toNat_setWidth, BitVec.toNat_ushiftRight, Nat.shiftRight_eq_div_pow]

theorem lane_ext {n : Nat} {x y : BitVec w} (hw : w ≤ 8 * n)
    (h : ∀ i < n, lane x i = lane y i) : x = y := by
  apply bit_ext
  intro j hj
  have hlane := h (j / 8) (by omega)
  have hb : bit (lane x (j / 8)) (j % 8) = bit (lane y (j / 8)) (j % 8) := by rw [hlane]
  rw [bit_lane _ _ _ (Nat.mod_lt _ (by decide)), bit_lane _ _ _ (Nat.mod_lt _ (by decide)),
    Nat.div_add_mod] at hb
  exact hb

def join (b : Nat → BitVec 8) : BitVec 32 :=
  BitVec.ofNat 32 ((b 0).toNat + 2 ^ 8 * (b 1).toNat + 2 ^ 16 * (b 2).toNat + 2 ^ 24 * (b 3).toNat)

theorem join_toNat (b : Nat → BitVec 8) :
    (join b).toNat =
      (b 0).toNat + 2 ^ 8 * (b 1).toNat + 2 ^ 16 * (b 2).toNat + 2 ^ 24 * (b 3).toNat := by
  have h0 := (b 0).isLt
  have h1 := (b 1).isLt
  have h2 := (b 2).isLt
  have h3 := (b 3).isLt
  rw [join, BitVec.toNat_ofNat]
  omega

theorem lane_join (b : Nat → BitVec 8) (i : Nat) (hi : i < 4) : lane (join b) i = b i := by
  have h0 := (b 0).isLt
  have h1 := (b 1).isLt
  have h2 := (b 2).isLt
  have h3 := (b 3).isLt
  apply BitVec.eq_of_toNat_eq
  rw [lane_toNat, join_toNat]
  interval_cases i <;> omega

theorem join_eq_iff (b : Nat → BitVec 8) (x : BitVec 32) :
    join b = x ↔ ∀ i < 4, b i = lane x i := by
  constructor
  · rintro rfl i hi
    exact (lane_join b i hi).symm
  · intro h
    apply lane_ext (show 32 ≤ 8 * 4 by decide)
    intro i hi
    rw [lane_join b i hi, h i hi]

def glue (w : Nat) : Nat → (Nat → BitVec 8) → BitVec w
  | 0, _ => 0#w
  | n + 1, b => glue w n b ||| ((b n).setWidth w <<< (8 * n))

theorem bit_glue (n : Nat) (b : Nat → BitVec 8) (j : Nat) (hj : j < w) :
    bit (glue w n b) j = (decide (j < 8 * n) && bit (b (j / 8)) (j % 8)) := by
  induction n with
  | zero => simp [glue, bit]
  | succ n ih =>
      rw [glue, bit_or, ih, bit_shiftLeft _ _ _ hj, bit_setWidth _ _ _ (by omega)]
      by_cases hn : j / 8 = n
      · have hlt : ¬ j < 8 * n := by omega
        have hle : 8 * n ≤ j := by omega
        have hj' : j < 8 * (n + 1) := by omega
        have hm : j - 8 * n = j % 8 := by omega
        simp [hlt, hle, hj', hm, hn]
      · by_cases hlt : j < 8 * n
        · have hle : ¬ 8 * n ≤ j := by omega
          have hj' : j < 8 * (n + 1) := by omega
          simp [hlt, hle, hj']
        · have hj' : ¬ j < 8 * (n + 1) := by omega
          have hout : bit (b n) (j - 8 * n) = false := BitVec.getLsbD_of_ge _ _ (by omega)
          simp [hlt, hj', hout]

theorem lane_glue (n : Nat) (b : Nat → BitVec 8) (i : Nat) (hi : i < n) (hw : 8 * n ≤ w) :
    lane (glue w n b) i = b i := by
  apply bit_ext
  intro k hk
  have hlt : 8 * i + k < 8 * n := by omega
  have hd : (8 * i + k) / 8 = i := by omega
  have hm : (8 * i + k) % 8 = k := by omega
  rw [bit_lane _ _ _ hk, bit_glue n b _ (by omega), hd, hm]
  simp [hlt]

theorem glue_eq_iff (n : Nat) (b : Nat → BitVec 8) (x : BitVec (8 * n)) :
    glue (8 * n) n b = x ↔ ∀ i < n, b i = lane x i := by
  constructor
  · rintro rfl i hi
    exact (lane_glue n b i hi (Nat.le_refl _)).symm
  · intro h
    apply lane_ext (Nat.le_refl (8 * n))
    intro i hi
    rw [lane_glue n b i hi (Nat.le_refl _), h i hi]

def reverseLanes (n : Nat) (x : BitVec (8 * n)) : BitVec (8 * n) :=
  glue (8 * n) n fun i => lane x (n - 1 - i)

end ByteLanes
