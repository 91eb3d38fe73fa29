import Armator.Architecture.Shifter
import Armator.Library.Shifts
import Armator.Simulator.Create

namespace Armator

open BitFields (bit)

-- `Effectuer_Decalage` against arithmetic, and against `asr` and `ror` of `util.c`.
structure ArithmeticShift (h : Host) (r : Word) (n : Nat) : Prop where
  lsl : (effectuerDecalage h LSL n r).toNat = r.toNat * 2 ^ n % 2 ^ 32
  lsr : (effectuerDecalage h LSR n r).toNat = r.toNat / 2 ^ n
  asr : ((effectuerDecalage h ASR n r).toNat : Int) = r.toInt / 2 ^ n % 2 ^ 32
  ror : (effectuerDecalage h ROR n r).toNat = (r.toNat * 2 ^ (32 - n) + r.toNat / 2 ^ n) % 2 ^ 32
  asr_util : effectuerDecalage h ASR n r = Armator.asr h r (BitVec.ofNat 8 n)
  ror_util : effectuerDecalage h ROR n r = Armator.ror h r (BitVec.ofNat 8 n)
  undone : effectuerDecalage h ROR (32 - n) (effectuerDecalage h ROR n r) = r
  composed : ∀ m, 1 ≤ m → m + n ≤ 31 →
    effectuerDecalage h ROR n (effectuerDecalage h ROR m r) = effectuerDecalage h ROR (m + n) r

section Amount

variable (h : Host) (r : Word) {n : Nat} (h1 : 1 ≤ n) (hn : n ≤ 31)

include h1 hn

theorem effectuerDecalage_lsl : effectuerDecalage h LSL n r = r <<< n :=
  effectuerDecalage_shift h .lsl n r (Nat.lt_succ_of_le hn) (Or.inr h1)

theorem effectuerDecalage_lsr : effectuerDecalage h LSR n r = r >>> n :=
  effectuerDecalage_shift h .lsr n r (Nat.lt_succ_of_le hn) (Or.inr h1)

theorem effectuerDecalage_asr : effectuerDecalage h ASR n r = r.sshiftRight n :=
  effectuerDecalage_shift h .asr n r (Nat.lt_succ_of_le hn) (Or.inr h1)

theorem effectuerDecalage_ror : effectuerDecalage h ROR n r = r.rotateRight n :=
  effectuerDecalage_shift h .ror n r (Nat.lt_succ_of_le hn) (Or.inr h1)

omit h1 in
theorem toNat_amount : (BitVec.ofNat 8 n).toNat = n := by
  rw [BitVec.toNat_ofNat]
  omega

theorem complement_eq : complement (BitVec.ofNat 8 n) = 32 - n := by
  have hval := toNat_amount hn
  have h32 : (32 : Word).toNat = 32 := rfl
  rw [complement, BitVec.toNat_sub, BitVec.toNat_setWidth, hval, h32]
  omega

theorem asr_eq : asr h r (BitVec.ofNat 8 n) = r.sshiftRight n := by
  have hshr : h.shr r n = r >>> n := if_pos (Nat.lt_succ_of_le hn)
  have hshl : h.shl (BitVec.allOnes 32) (32 - n) = BitVec.allOnes 32 <<< (32 - n) :=
    if_pos (by omega)
  rw [asr, toNat_amount hn, complement_eq h1 hn, hshr, hshl]
  cases hb : bit r 31 with
  | true =>
      rw [if_pos ((getBit_ne_zero r 31).mpr hb)]
      exact asr_mask r n h1 (Nat.lt_succ_of_le hn) hb
  | false =>
      rw [if_neg (fun hc => hc ((getBit_eq_zero r 31).mpr hb))]
      exact BitVec.or_zero.trans (asr_plain r n hb)

theorem ror_eq : ror h r (BitVec.ofNat 8 n) = r.rotateRight n := by
  have hshr : h.shr r n = r >>> n := if_pos (Nat.lt_succ_of_le hn)
  have hshl : h.shl r (32 - n) = r <<< (32 - n) := if_pos (by omega)
  rw [ror, toNat_amount hn, complement_eq h1 hn, hshr, hshl, BitVec.rotateRight_def,
    Nat.mod_eq_of_lt (Nat.lt_succ_of_le hn)]

theorem arithmetic_shift : ArithmeticShift h r n where
  lsl := by rw [effectuerDecalage_lsl h r h1 hn, BitVec.toNat_shiftLeft, Nat.shiftLeft_eq]
  lsr := by rw [effectuerDecalage_lsr h r h1 hn, BitVec.toNat_ushiftRight, Nat.shiftRight_eq_div_pow]
  asr := by rw [effectuerDecalage_asr h r h1 hn, Shifts.toNat_sshiftRight]
  ror := by rw [effectuerDecalage_ror h r h1 hn, Shifts.toNat_rotateRight r n (Nat.lt_succ_of_le hn)]
  asr_util := by rw [effectuerDecalage_asr h r h1 hn, asr_eq h r h1 hn]
  ror_util := by rw [effectuerDecalage_ror h r h1 hn, ror_eq h r h1 hn]
  undone := by
    rw [effectuerDecalage_ror h r h1 hn, effectuerDecalage_ror h _ (by omega) (by omega),
      Shifts.rotateRight_rotateRight, Nat.add_sub_cancel' (by omega), Shifts.rotateRight_width]
  composed m hm hmn := by
    rw [effectuerDecalage_ror h r hm (by omega), effectuerDecalage_ror h _ h1 hn,
      effectuerDecalage_ror h r (by omega) hmn, Shifts.rotateRight_rotateRight]

end Amount

theorem arithmetic_shift_sign : ArithmeticShift Host.blank 0x80000001 4 :=
  arithmetic_shift Host.blank 0x80000001 (by decide) (by decide)

end Armator
