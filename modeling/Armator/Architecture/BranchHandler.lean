import Armator.Architecture.Settled

namespace Armator

open BitFields

def signedImmediate (ins : Word) : Word := (ins.setWidth 24 : BitVec 24).signExtend 32

def isBlx (ins : Word) : Bool := condField ins == 15

theorem signed_immed_24_eq (ins : Word) :
    (if getBit ins 23 ≠ 0 then setBits (getBits ins 23 0) 30 24 0xFF else getBits ins 23 0) =
      signedImmediate ins := by
  have hm : (ins.setWidth 24 : BitVec 24).msb = bit ins 23 := by
    rw [BitVec.msb_eq_getLsbD_last]
    exact bit_setWidth ins 24 23 (by decide)
  rw [getBits_eq_setWidth, signedImmediate]
  simp only [BitVec.ofNat_eq_ofNat, ne_eq, getBit_eq_zero, Bool.not_eq_false]
  cases hb : bit ins 23 with
  | false => exact (BitVec.signExtend_eq_setWidth_of_msb_false (hm.trans hb)).symm
  | true => exact setBits_sign_extend _ (hm.trans hb)

theorem isBlx_iff (ins : Word) : getBits ins 31 28 = 15 ↔ isBlx ins = true := by
  rw [isBlx, beq_iff_eq, condField, ← BitVec.toNat_inj]
  rfl

theorem armReadPc_congr (p q : ArmCore) (h : q.pc = p.pc) :
    armReadRegister q 15 = armReadRegister p 15 := by
  rw [armReadRegister_pc, armReadRegister_pc, h]

theorem shiftLeft_two (x : Word) : x <<< 2 = 4 * x := by
  apply BitVec.eq_of_toNat_eq
  have h4 : (4 : Word).toNat = 4 := rfl
  rw [BitVec.toNat_shiftLeft, Nat.shiftLeft_eq, BitVec.toNat_mul, h4, Nat.mul_comm]

theorem armBranch_pc (p : ArmCore) (ins : Word)
    (hc : condNotRespect p ins = 0 ∨ condNotRespect p ins = 2) :
    (armBranch p ins).2.pc = armReadRegister p 15 + 4 * signedImmediate ins +
      (if isBlx ins && bit ins 24 then 2 else 0) - 4 := by
  have hl (c : Prop) [Decidable c] (v : Word) : armReadRegister
      (if c then armWriteRegister p 14 v else p) 15 = armReadRegister p 15 := by
    split
    · exact armReadRegister_write_other p 14 v 15 (by decide) (by decide)
    · rfl
  unfold armBranch
  rw [if_pos hc]
  simp only [signed_immed_24_eq, isBlx_iff, getBit_flag]
  by_cases hx : isBlx ins = true
  · rw [if_pos hx, armWriteRegister_fifteen_pc,
      armReadPc_congr _ _ (armWriteRegister_pc _ 16 _ (by decide)), hl, shiftLeft_two, hx]
    cases bit ins 24 <;> rfl
  · rw [if_neg hx, armWriteRegister_fifteen_pc, hl, shiftLeft_two]
    simp [hx]

theorem armBranch_accepted (p : ArmCore) (ins : Word) (hc : condNotRespect p ins = 0) :
    armBranch p ins =
      (0, armWriteRegister
        (if bit ins 24 then armWriteRegister p 14 (armReadRegister p 15) else p) 15
        (armReadRegister p 15 + 4 * signedImmediate ins - 4)) := by
  have hx : ¬ isBlx ins = true := by
    intro hx
    have h15 : condField ins = 15 := by simpa [isBlx] using hx
    rw [condNotRespect_eq, if_pos h15] at hc
    cases hc
  have hl : ((getBit ins 24).setWidth 8 ≠ 0 ∨ isBlx ins = true) ↔ bit ins 24 = true := by
    rw [or_iff_left hx, ne_eq, BitVec.ofNat_eq_ofNat, getBit_flag_eq_zero,
      Bool.not_eq_false]
  have hr : armReadRegister
      (if bit ins 24 then armWriteRegister p 14 (armReadRegister p 15) else p) 15 =
        armReadRegister p 15 := by
    split
    · exact armReadRegister_write_other p 14 _ 15 (by decide) (by decide)
    · rfl
  unfold armBranch
  rw [if_pos (Or.inl hc)]
  simp only [signed_immed_24_eq, isBlx_iff, if_neg hx, hl]
  rw [hr, shiftLeft_two]

def BranchInert (p : ArmCore) (ins : Word) : Prop :=
  (bit ins 24 = true → p.holds 14 (armReadRegister p 15)) ∧
    p.pc = armReadRegister p 15 + 4 * signedImmediate ins - 4

theorem armBranch_inert (p : ArmCore) (ins : Word) (hc : condNotRespect p ins = 0) :
    armBranch p ins = (0, p) ↔ BranchInert p ins := by
  rw [armBranch_accepted p ins hc, BranchInert, ← holds_fifteen]
  simp only [Prod.mk.injEq, true_and]
  cases bit ins 24 with
  | true =>
      simp only [if_true, forall_const]
      exact two_writes_settled p 14 15 _ _ (by decide) (by decide)
  | false =>
      simp only [Bool.false_eq_true, if_false, false_implies, true_and]
      exact armWriteRegister_settled _ _ _

end Armator
