import Armator.Architecture.ShifterOperand
import Armator.Simulator.Create

namespace Armator

open BitFields

theorem sshiftRight_beyond (r : Word) (n : Nat) (hn : 32 ≤ n) :
    r.sshiftRight n = if bit r 31 then BitVec.allOnes 32 else 0#32 := by
  apply bit_ext
  intro i hi
  have hmsb : r.msb = bit r 31 := rfl
  rw [bit_sshiftRight _ _ _ hi, if_neg (by omega), hmsb]
  cases bit r 31 with
  | false => exact (bit_zero i).symm
  | true => exact (bit_allOnes i hi).symm

def immediateOperand (s : Shift) (n : Nat) (rm : Word) (c : Bool) : Word :=
  if n = 0 then
    match s with
    | .lsl => rm
    | .lsr => 0
    | .asr => rm.sshiftRight 32
    | .ror => putBit (rm >>> 1) 31 c
  else s.apply rm n

-- When the code, which shifts by zero, still finds the operand that the amount 0 stands for.
def ZeroAmountRight (h : Host) (s : Shift) (rm : Word) (c : Bool) : Prop :=
  match s with
  | .lsl => True
  | .lsr => rm = 0
  | .asr => rm = 0 ∨ (bit rm 31 = true ∧
      ∀ i < 32, bit rm i = true ∨ bit (h.shlOut (BitVec.allOnes 32) 32) i = true)
  | .ror => ∀ i < 32, (bit rm i || bit (h.shlOut rm 32) i) = if i = 31 then c else bit rm (i + 1)

def ImmediateShiftRight (h : Host) (p : ArmCore) (ins : Word) : Prop :=
  condField ins ≠ 5 ∧ (shiftAmount ins = 0 →
    ZeroAmountRight h (shiftKind ins) (armReadRegister p (rmNum ins)) (flagsOf p.cpsr).c)

theorem or_eq_allOnes_iff (x y : Word) :
    x ||| y = BitVec.allOnes 32 ↔ ∀ i < 32, bit x i = true ∨ bit y i = true := by
  rw [eq_iff_bits]
  refine forall₂_congr fun i hi => ?_
  rw [bit_or, bit_allOnes i hi, Bool.or_eq_true]

theorem bit_rrx (rm : Word) (c : Bool) (i : Nat) :
    bit (putBit (rm >>> 1) 31 c) i = if i = 31 then c else bit rm (i + 1) := by
  rw [bit_putBit _ _ _ _ (by decide), bit_ushiftRight, Nat.add_comm]

theorem zero_amount_iff (h : Host) (s : Shift) (rm : Word) (c : Bool) :
    effectuerDecalage h s.code 0 rm = immediateOperand s 0 rm c ↔ ZeroAmountRight h s rm c := by
  rw [effectuerDecalage_zero]
  cases s with
  | lsl => simp [immediateOperand, ZeroAmountRight]
  | lsr => simp [immediateOperand, ZeroAmountRight]
  | asr =>
      simp only [immediateOperand, if_true, ZeroAmountRight, sshiftRight_beyond rm 32 (Nat.le_refl _)]
      cases hb : bit rm 31 with
      | false => simp
      | true =>
          have hne : rm ≠ 0 := by
            rintro rfl
            simp [bit] at hb
          rw [if_pos rfl, if_pos rfl, or_eq_allOnes_iff, or_iff_right hne, and_iff_right rfl]
  | ror => simp [immediateOperand, ZeroAmountRight, eq_iff_bits, bit_or, bit_rrx]

theorem immediate_shift_operand (h : Host) (p : ArmCore) (ins : Word) (hp : Passed p ins)
    (h4 : bit ins 4 = false) :
    armDataProcessingShift h p ins = appelOperation p ins (operandePasse h p ins) ∧
      (operandePasse h p ins = .ok (immediateOperand (shiftKind ins) (shiftAmount ins)
          (armReadRegister p (rmNum ins)) (flagsOf p.cpsr).c) ↔
        ImmediateShiftRight h p ins) := by
  refine ⟨armDataProcessingShift_operande h p ins, ?_⟩
  have hlt := shiftAmount_lt ins
  have h47 : bit ins 4 = true → bit ins 7 = false := fun hn => by
    rw [h4] at hn
    cases hn
  have hd : decodedAmount p ins = shiftAmount ins := by
    rw [decodedAmount, h4]
    rfl
  rw [operandePasse_ok_iff h p ins _ hp h47, ImmediateShiftRight, decodedOperand, hd]
  refine and_congr_right fun _ => ?_
  by_cases hz : shiftAmount ins = 0
  · rw [hz, zero_amount_iff]
    simp
  · rw [effectuerDecalage_shift h _ _ _ hlt (Or.inr (by omega))]
    simp [immediateOperand, hz]

-- MOV R0, R1, LSR #32 with 1 in R1.
theorem lsr_thirty_two_keeps :
    Passed (armWriteRegister (afterReset []) 1 1) 0xE1A00021 ∧ bit (0xE1A00021 : Word) 4 = false ∧
      operandePasse Host.blank (armWriteRegister (afterReset []) 1 1) 0xE1A00021 ≠
        .ok (immediateOperand (shiftKind 0xE1A00021) (shiftAmount 0xE1A00021)
          (armReadRegister (armWriteRegister (afterReset []) 1 1) (rmNum 0xE1A00021))
          (flagsOf (armWriteRegister (afterReset []) 1 1).cpsr).c) := by
  refine ⟨by decide, by decide, fun he => ?_⟩
  cases he

theorem asr_five_passed :
    operandePasse Host.blank (afterReset []) 0xE1A002C1 =
      .ok (immediateOperand (shiftKind 0xE1A002C1) (shiftAmount 0xE1A002C1)
        (armReadRegister (afterReset []) (rmNum 0xE1A002C1)) (flagsOf (afterReset []).cpsr).c) :=
  (immediate_shift_operand Host.blank (afterReset []) 0xE1A002C1 (by decide) (by decide)).2.mpr
    ⟨by decide, fun hz => absurd hz (by decide)⟩

end Armator
