import Armator.Architecture.AluSpec
import Armator.Architecture.ShifterOperand
import Armator.Simulator.Create

namespace Armator

open BitFields

structure LogicalWord (ins : Word) : Prop where
  space : getBits ins 27 26 = 0
  opcode : isLogical (opCode ins)
  flags : setsFlags (opCode ins) ins
  dest : rdNum ins ≠ 15
  operand : bit ins 25 = false → bit ins 4 = false ∧ (shiftKind ins = .lsl ∨ 1 ≤ shiftAmount ins)

def executerLogique (h : Host) (p : ArmCore) (ins : Word) : Int × ArmCore :=
  if bit ins 25 then armDataProcessingImmediateMsr h p ins else armDataProcessingShift h p ins

def shifterOperand (p : ArmCore) (ins : Word) : Word :=
  if bit ins 25 then rotatedImmediate ins
  else (shiftKind ins).apply (armReadRegister p (rmNum ins)) (shiftAmount ins)

def shifterCarry (p : ArmCore) (ins : Word) : Bool :=
  if bit ins 25 then
    if getBits ins 11 8 = 0 then (flagsOf p.cpsr).c else bit (rotatedImmediate ins) 31
  else
    match shiftKind ins with
    | .lsl =>
        if shiftAmount ins = 0 then (flagsOf p.cpsr).c
        else bit (armReadRegister p (rmNum ins)) (32 - shiftAmount ins)
    | _ => bit (armReadRegister p (rmNum ins)) (shiftAmount ins - 1)

def logicalResult (p : ArmCore) (ins operand : Word) : Word :=
  armResult (opCode ins) (armReadRegister p (rnNum ins)) operand (flagsOf p.cpsr).c

def armLogicalFlags (p : ArmCore) (ins : Word) : Flags :=
  logicalFlags (opCode ins) (armReadRegister p (rnNum ins)) (shifterOperand p ins)
    (flagsOf p.cpsr).c (shifterCarry p ins) (flagsOf p.cpsr).v

-- An immediate that is not rotated is shifted by 32, which the C standard leaves open.
def undefinedBits (h : Host) (ins : Word) : Word :=
  if bit ins 25 = true ∧ getBits ins 11 8 = 0 then h.shlOut (getBits ins 7 0) 32 else 0

def LogicalFlagsRight (h : Host) (p : ArmCore) (ins : Word) : Prop :=
  let result := logicalResult p ins (shifterOperand p ins)
  let actual := logicalResult p ins (shifterOperand p ins ||| undefinedBits h ins)
  if condField ins = 5 then flagsOf p.cpsr = armLogicalFlags p ins
  else if opCode ins = 15 then
    bit actual 31 = bit result 31 ∧ result ≠ 0 ∧ shifterCarry p ins = true ∧
      (flagsOf p.cpsr).v = true
  else
    bit actual 31 = bit result 31 ∧ (actual = 0 ↔ result = 0) ∧ shifterCarry p ins = false ∧
      (flagsOf p.cpsr).v = false

theorem tempFlags_word (r : Word) : tempFlags (r.setWidth 64) = ⟨bit r 31, r = 0, false, false⟩ := by
  have hlt := r.isLt
  have hn : bit (r.setWidth 64) 31 = bit r 31 := bit_setWidth _ _ _ (by decide)
  have hz : r.setWidth 64 = 0 ↔ r = 0 := by
    rw [← BitVec.toNat_inj, ← BitVec.toNat_inj, BitVec.toNat_setWidth]
    simp only [BitVec.ofNat_eq_ofNat, BitVec.toNat_ofNat]
    omega
  have hc : bit (r.setWidth 64) 32 = false := by
    rw [bit_setWidth _ _ _ (by decide)]
    exact BitVec.getLsbD_of_ge r 32 (Nat.le_refl _)
  have hv : ((r.setWidth 64).setWidth 32 : Word) = r := by
    rw [BitVec.setWidth_setWidth_of_le _ (by decide), BitVec.setWidth_eq]
  simp only [tempFlags, hn, hc, hv, hz, ne_eq, not_true, decide_false]

theorem tempFlags_not (r : Word) :
    tempFlags (~~~r.setWidth 64) = ⟨bit (~~~r) 31, false, true, true⟩ := by
  have hhigh (i : Nat) (h32 : 32 ≤ i) (hi : i < 64) : bit (~~~r.setWidth 64) i = true := by
    rw [bit, BitVec.getLsbD_not, BitVec.getLsbD_setWidth, BitVec.getLsbD_of_ge r i h32]
    simp [hi]
  have hn : bit (~~~r.setWidth 64) 31 = bit (~~~r) 31 := by simp [bit]
  have hz : ~~~r.setWidth 64 ≠ 0 := by
    intro hz
    have hb := hhigh 32 (Nat.le_refl _) (by decide)
    rw [hz] at hb
    exact absurd hb (by decide)
  have hv : ~~~r.setWidth 64 ≠ ((~~~r.setWidth 64).setWidth 32 : Word).setWidth 64 := by
    intro hv
    have hb := hhigh 32 (Nat.le_refl _) (by decide)
    rw [hv, bit_setWidth _ _ _ (by decide), bit,
      BitVec.getLsbD_of_ge _ 32 (Nat.le_refl _)] at hb
    cases hb
  rw [tempFlags, hn, hhigh 32 (Nat.le_refl _) (by decide), decide_eq_false hz, decide_eq_true hv]

section Logical

variable (h : Host) (p : ArmCore) (ins : Word)

theorem immediate_operand (h25 : bit ins 25 = true) :
    effectuerDecalage h ROR ((getBits ins 11 8).toNat * 2) (getBits ins 7 0) =
      shifterOperand p ins ||| undefinedBits h ins := by
  rw [shifterOperand, if_pos h25, undefinedBits, rotatedImmediate]
  by_cases h0 : getBits ins 11 8 = 0
  · rw [if_pos ⟨h25, h0⟩, h0]
    have hz := effectuerDecalage_zero h .ror (getBits ins 7 0)
    have hr : (getBits ins 7 0).rotateRight (2 * (0 : Word).toNat) = getBits ins 7 0 := by
      simp [BitVec.rotateRight_def]
    rw [hr]
    exact hz
  · have hlt : (getBits ins 11 8).toNat < 16 := by
      rw [getBits_toNat]
      exact Nat.mod_lt _ (by decide)
    have hpos : (getBits ins 11 8).toNat ≠ 0 := fun hn => h0 (BitVec.eq_of_toNat_eq hn)
    have hs := effectuerDecalage_shift h .ror ((getBits ins 11 8).toNat * 2) (getBits ins 7 0)
      (by omega) (Or.inr (by omega))
    have hor (x : Word) : x ||| 0 = x := BitVec.or_zero
    rw [if_neg (fun hh => h0 hh.2), hor, Nat.mul_comm 2]
    exact hs

theorem executerLogique_eq (hw : LogicalWord ins) :
    executerLogique h p ins =
      if condNotRespect p ins ≠ 0 then (1, p)
      else effectuerOperation (opCode ins) (armReadRegister p (rnNum ins))
        (shifterOperand p ins ||| undefinedBits h ins) p ins := by
  rw [executerLogique]
  cases h25 : bit ins 25 with
  | true =>
      rw [if_pos rfl, armDataProcessingImmediateMsr, ← immediate_operand h p ins h25]
      rfl
  | false =>
      obtain ⟨h4, hs⟩ := hw.operand h25
      have hd : decodedOperand h p ins = shifterOperand p ins ||| undefinedBits h ins := by
        rw [decodedOperand, decodedAmount, h4, if_neg (by decide),
          effectuerDecalage_shift h _ _ _ (shiftAmount_lt ins) hs, shifterOperand, undefinedBits, h25]
        simp
      rw [if_neg (by decide), armDataProcessingShift_operande, operandePasse, hd, h4]
      by_cases hc : condNotRespect p ins ≠ 0
      · rw [if_pos hc, if_pos hc, appelOperation]
      · rw [if_neg hc, if_neg hc, if_neg (by simp), appelOperation]

theorem logical_temp (hop : isLogical (opCode ins)) (operand : Word) :
    tempFlags (tempOf (opCode ins) (armReadRegister p (rnNum ins)) operand p.cpsr) =
      if opCode ins = 15 then ⟨bit (logicalResult p ins operand) 31, false, true, true⟩
      else ⟨bit (logicalResult p ins operand) 31, logicalResult p ins operand = 0, false, false⟩ := by
  by_cases h15 : opCode ins = 15
  · rw [if_pos h15, logicalResult, h15]
    exact tempFlags_not operand
  · rw [if_neg h15, tempOf_logical _ _ _ _ hop h15 (flagsOf p.cpsr).c, tempFlags_word]
    rfl

end Logical

theorem logical_flags (h : Host) (p : ArmCore) (ins : Word) (hw : LogicalWord ins)
    (hp : Passed p ins) :
    flagsOf (executerLogique h p ins).2.cpsr = armLogicalFlags p ins ↔
      LogicalFlagsRight h p ins := by
  have hacc := passed_accepted_iff p ins hp
  rw [executerLogique_eq h p ins hw, LogicalFlagsRight]
  by_cases h5 : condField ins = 5
  · have hc : condNotRespect p ins ≠ 0 := fun hc => hacc.mp hc h5
    rw [if_pos hc, if_pos h5]
  · have hc : ¬ condNotRespect p ins ≠ 0 := fun hn => hn (hacc.mpr h5)
    rw [if_neg hc, if_neg h5,
      effectuerOperation_flags _ _ _ p ins (opCode_lt ins) hw.flags hw.dest, armWriteCpsr_cpsr,
      flagsOf_putFlags, logical_temp p ins hw.opcode, armLogicalFlags, logicalFlags]
    split
    · simp only [Flags.mk.injEq, Bool.false_eq, Bool.true_eq, decide_eq_false_iff_not]
      exact Iff.rfl
    · simp only [Flags.mk.injEq, Bool.false_eq, decide_eq_decide]
      exact Iff.rfl

-- MVNS R0, R1 with 0 in R1: the complemented upper half sets C and V.
theorem mvns_sets_overflow :
    LogicalWord 0xE1F00001 ∧ Passed (afterReset []) 0xE1F00001 ∧
      flagsOf (executerLogique Host.blank (afterReset []) 0xE1F00001).2.cpsr ≠
        armLogicalFlags (afterReset []) 0xE1F00001 :=
  ⟨⟨by decide, by decide, by decide, by decide, by decide⟩, by decide, by decide⟩

theorem movs_zero :
    flagsOf (executerLogique Host.blank (afterReset []) 0xE1B00001).2.cpsr =
      armLogicalFlags (afterReset []) 0xE1B00001 :=
  (logical_flags Host.blank (afterReset []) 0xE1B00001
    ⟨by decide, by decide, by decide, by decide, by decide⟩ (by decide)).mpr
    (by unfold LogicalFlagsRight; decide)

end Armator
