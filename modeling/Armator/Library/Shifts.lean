import Armator.Library.BitFields

namespace Shifts

open BitFields

variable {w : Nat}

theorem toNat_sshiftRight (x : BitVec w) (n : Nat) :
    ((x.sshiftRight n).toNat : Int) = x.toInt / 2 ^ n % 2 ^ w := by
  have hval : BitVec.ofInt w (x.sshiftRight n).toInt = x.sshiftRight n := BitVec.ofInt_toInt
  have hdiv : (x.sshiftRight n).toInt = x.toInt / 2 ^ n := by
    rw [BitVec.toInt_sshiftRight, Int.shiftRight_eq_div_pow]
    norm_cast
  have hpos : (0 : Int) < 2 ^ w := Int.pow_pos (by decide)
  rw [← hval, hdiv, BitVec.toNat_ofInt]
  push_cast
  exact Int.toNat_of_nonneg (Int.emod_nonneg _ hpos.ne')

theorem bit_rotateRight (x : BitVec w) (n i : Nat) (hi : i < w) :
    bit (x.rotateRight n) i = bit x ((n + i) % w) := by
  have hn : n % w < w := Nat.mod_lt _ (Nat.zero_lt_of_lt hi)
  have hmod : (n + i) % w = (n % w + i) % w := (Nat.mod_add_mod n w i).symm
  rw [bit, bit, BitVec.getLsbD_rotateRight, hmod]
  generalize n % w = k at hn
  by_cases h : i < w - k
  · rw [Nat.mod_eq_of_lt (by omega : k + i < w)]
    simp [h]
  · have hsub : (k + i) % w = k + i - w := by
      rw [Nat.mod_eq_sub_mod (by omega), Nat.mod_eq_of_lt (by omega)]
    have hidx : i - (w - k) = k + i - w := by omega
    rw [hsub, hidx]
    simp [h, hi]

theorem rotateRight_rotateRight (x : BitVec w) (m n : Nat) :
    (x.rotateRight m).rotateRight n = x.rotateRight (m + n) := by
  apply bit_ext
  intro i hi
  have hlt : (n + i) % w < w := Nat.mod_lt _ (Nat.zero_lt_of_lt hi)
  rw [bit_rotateRight _ _ _ hi, bit_rotateRight _ _ _ hlt, bit_rotateRight _ _ _ hi,
    Nat.add_mod_mod, Nat.add_assoc]

theorem rotateRight_width (x : BitVec w) : x.rotateRight w = x := by
  apply bit_ext
  intro i hi
  rw [bit_rotateRight _ _ _ hi, Nat.add_mod_left, Nat.mod_eq_of_lt hi]

theorem toNat_rotateRight (x : BitVec w) (n : Nat) (hn : n < w) :
    (x.rotateRight n).toNat = (x.toNat * 2 ^ (w - n) + x.toNat / 2 ^ n) % 2 ^ w := by
  have hw : 2 ^ w = 2 ^ n * 2 ^ (w - n) := by
    rw [← Nat.pow_add, Nat.add_sub_cancel' (Nat.le_of_lt hn)]
  have hlow : x.toNat / 2 ^ n < 2 ^ (w - n) := by
    rw [Nat.div_lt_iff_lt_mul (Nat.two_pow_pos n), Nat.mul_comm, ← hw]
    exact x.isLt
  have hhigh : x.toNat * 2 ^ (w - n) % 2 ^ w = x.toNat % 2 ^ n * 2 ^ (w - n) := by
    rw [hw, Nat.mul_mod_mul_right]
  have hfits : x.toNat % 2 ^ n * 2 ^ (w - n) + x.toNat / 2 ^ n < 2 ^ w := by
    calc x.toNat % 2 ^ n * 2 ^ (w - n) + x.toNat / 2 ^ n
        < (x.toNat % 2 ^ n + 1) * 2 ^ (w - n) := by
          rw [Nat.succ_mul]
          exact Nat.add_lt_add_left hlow _
      _ ≤ 2 ^ n * 2 ^ (w - n) :=
          Nat.mul_le_mul_right _ (Nat.mod_lt _ (Nat.two_pow_pos n))
      _ = 2 ^ w := hw.symm
  rw [BitVec.toNat_rotateRight, Nat.mod_eq_of_lt hn, Nat.or_comm, Nat.shiftLeft_eq, hhigh,
    ← Nat.shiftLeft_eq, Nat.shiftRight_eq_div_pow, ← Nat.shiftLeft_add_eq_or_of_lt hlow,
    Nat.shiftLeft_eq, ← Nat.mod_add_mod, hhigh, Nat.mod_eq_of_lt hfits]

end Shifts
