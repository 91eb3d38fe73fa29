import Armator.Architecture.Decode
import Armator.Architecture.Shifter

namespace Armator

open BitFields

def rsNum (ins : Word) : RegNum := regNum (getBits ins 11 8)

def decodedAmount (p : ArmCore) (ins : Word) : Nat :=
  if bit ins 4 then (getBits (armReadRegister p (rsNum ins)) 4 0).toNat else shiftAmount ins

def decodedOperand (h : Host) (p : ArmCore) (ins : Word) : Word :=
  effectuerDecalage h (shiftKind ins).code (decodedAmount p ins) (armReadRegister p (rmNum ins))

def operandePasse (h : Host) (p : ArmCore) (ins : Word) : Except Int Word :=
  if condNotRespect p ins ≠ 0 then .error 1
  else if bit ins 4 = true ∧ bit ins 7 = true then .error UNDEFINED_INSTRUCTION
  else .ok (decodedOperand h p ins)

def appelOperation (p : ArmCore) (ins : Word) : Except Int Word → Int × ArmCore
  | .ok v => effectuerOperation (opCode ins) (armReadRegister p (rnNum ins)) v p ins
  | .error code => (code, p)

theorem armDataProcessingShift_operande (h : Host) (p : ArmCore) (ins : Word) :
    armDataProcessingShift h p ins = appelOperation p ins (operandePasse h p ins) := by
  rw [armDataProcessingShift_eq, operandePasse, decodedOperand, decodedAmount,
    ← determinerDecalage_code]
  split
  · rfl
  · split <;> rfl

theorem operandePasse_ok_iff (h : Host) (p : ArmCore) (ins v : Word) (hp : Passed p ins)
    (h47 : bit ins 4 = true → bit ins 7 = false) :
    operandePasse h p ins = .ok v ↔ condField ins ≠ 5 ∧ decodedOperand h p ins = v := by
  have hn : ¬ (bit ins 4 = true ∧ bit ins 7 = true) := by
    rintro ⟨h4, h7⟩
    rw [h47 h4] at h7
    cases h7
  rw [← passed_accepted_iff p ins hp, operandePasse, if_neg hn]
  by_cases hc : condNotRespect p ins = 0
  · simp [hc]
  · simp [hc]

end Armator
