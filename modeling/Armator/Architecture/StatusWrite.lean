import Armator.Architecture.FlagUpdate
import Armator.Simulator.BranchOther

namespace Armator

open BitFields

theorem bit_mode (p : ArmCore) (i : Nat) (hi : i < 5) : bit p.mode i = bit p.cpsr i := by
  have hm : (0x1f : Byte) = ~~~((BitVec.allOnes 8 >>> 5) <<< 5) := by decide
  rw [ArmCore.mode, registersGetMode, hm, bit_low_mask, bit_setWidth _ _ _ (by omega)]
  simp [hi, ArmCore.cpsr]

theorem cpsr_bit_four (p : ArmCore) (h : p.mode ∈ armModes) : bit p.cpsr 4 = true := by
  have hall : ∀ m ∈ armModes, bit m 4 = true := by decide
  rw [← bit_mode p 4 (by decide)]
  exact hall p.mode h

theorem cNot_bit (x : Word) (i : Nat) (hi : i ≠ 0) : bit (cNot x) i = false := by
  unfold cNot
  split
  · rw [show (1 : Word) = 1#32 from rfl, bit_one]
    simp [hi]
  · simp [bit]

theorem cNot_getBit_ne_zero (x : Word) (i : Nat) : cNot (getBit x i) ≠ 0 ↔ bit x i = false := by
  rw [← getBit_eq_zero x i, cNot]
  split <;> simp_all

section Msr

def msrMerge (old mask operand : Word) : Word := (old &&& cNot mask) ||| (operand &&& mask)

def msrAllowed (p : ArmCore) (ins : Word) : Word :=
  if bit ins 22 then UserMask ||| PrivMask ||| StateMask
  else if armInAPrivilegedMode p then UserMask ||| PrivMask
  else UserMask

def msrMask (p : ArmCore) (ins : Word) : Word := msrByteMask ins &&& msrAllowed p ins

def MsrRefused (p : ArmCore) (ins operand : Word) : Prop :=
  operand &&& UnallocMask ≠ 0 ∨
    if bit ins 22 then armCurrentModeHasSpsr p = false
    else armInAPrivilegedMode p = true ∧ operand &&& StateMask ≠ 0

instance (p : ArmCore) (ins operand : Word) : Decidable (MsrRefused p ins operand) :=
  inferInstanceAs (Decidable (_ ∨ ite _ _ _))

variable (h : Host) (p : ArmCore) (ins : Word)

def msrWritten : ArmCore :=
  if bit ins 22 then
    armWriteSpsr p (msrMerge (armReadSpsr p) (msrMask p ins) (msrOperand h p ins))
  else armWriteCpsr p (msrMerge p.cpsr (msrMask p ins) (msrOperand h p ins))

theorem fonctionMSR_refused (hr : MsrRefused p ins (msrOperand h p ins)) :
    fonctionMSR h p ins = (DATA_ABORT, p) := by
  unfold fonctionMSR
  unfold MsrRefused at hr
  simp only [cNot_getBit_ne_zero]
  generalize msrOperand h p ins = operand at hr ⊢
  by_cases hu : operand &&& UnallocMask = 0#32
  · have hr := hr.resolve_left fun hn => hn hu
    cases hb : bit ins 22 with
    | true =>
        rw [hb, if_pos rfl] at hr
        simp [hr]
    | false =>
        rw [hb, if_neg (by decide)] at hr
        have hs := hr.2
        simp only [BitVec.ofNat_eq_ofNat] at hs
        simp [hr.1, hs]
  · simp [hu]

theorem fonctionMSR_accepted (hr : ¬ MsrRefused p ins (msrOperand h p ins)) :
    fonctionMSR h p ins = (0, msrWritten h p ins) := by
  unfold fonctionMSR msrWritten msrMask msrAllowed msrMerge
  unfold MsrRefused at hr
  simp only [cNot_getBit_ne_zero]
  generalize msrOperand h p ins = operand at hr ⊢
  obtain ⟨hu, hr⟩ := not_or.mp hr
  rw [if_neg hu]
  cases hb : bit ins 22 with
  | true =>
      rw [hb, if_pos rfl, Bool.not_eq_false] at hr
      simp [hr]
  | false =>
      rw [hb, if_neg (by decide)] at hr
      cases hp : armInAPrivilegedMode p with
      | true =>
          have hs : operand &&& StateMask = 0#32 := not_not.mp fun hn => hr ⟨hp, hn⟩
          simp [hs]
      | false => simp

theorem fonctionMSR_eq :
    fonctionMSR h p ins =
      if MsrRefused p ins (msrOperand h p ins) then (DATA_ABORT, p) else (0, msrWritten h p ins) := by
  split
  · exact fonctionMSR_refused h p ins ‹_›
  · exact fonctionMSR_accepted h p ins ‹_›

theorem fonctionMSR_code :
    (fonctionMSR h p ins).1 = 0 ∨ fonctionMSR h p ins = (DATA_ABORT, p) := by
  rw [fonctionMSR_eq]
  split
  · exact Or.inr rfl
  · exact Or.inl rfl

theorem fonctionMSR_cases :
    fonctionMSR h p ins = (DATA_ABORT, p) ∨
      ∃ k v, 16 ≤ k ∧ fonctionMSR h p ins = (0, armWriteRegister p k v) := by
  rw [fonctionMSR_eq, msrWritten]
  split
  · exact Or.inl rfl
  · right
    cases bit ins 22 with
    | true => exact ⟨17, _, by decide, rfl⟩
    | false => exact ⟨16, _, by decide, rfl⟩

theorem msrMask_bit_four (hR : bit ins 22 = false) : bit (msrMask p ins) 4 = false := by
  have hall : bit (msrAllowed p ins) 4 = false := by
    rw [msrAllowed, hR]
    cases armInAPrivilegedMode p <;> decide
  rw [msrMask, bit_and, hall, Bool.and_false]

-- `!(mask)` keeps at most bit 0 of CPSR, and no mask reaches bit 4.
theorem fonctionMSR_cpsr_bit_four (hR : bit ins 22 = false) (hz : (fonctionMSR h p ins).1 = 0) :
    bit (fonctionMSR h p ins).2.cpsr 4 = false := by
  rw [fonctionMSR_eq] at hz ⊢
  split at hz
  · cases hz
  · rename_i hr
    rw [if_neg hr, msrWritten, hR, if_neg (by decide), armWriteCpsr_cpsr, msrMerge, bit_or, bit_and,
      bit_and, cNot_bit _ 4 (by decide), msrMask_bit_four p ins hR]
    simp

end Msr

theorem armMiscellaneous_msr (h : Host) (p : ArmCore) (ins : Word)
    (hc : condNotRespect p ins = 0) (h27 : bit ins 27 = false) (h26 : bit ins 26 = false)
    (h24 : bit ins 24 = true) (h23 : bit ins 23 = false) (h21 : bit ins 21 = true)
    (h20 : bit ins 20 = false) : armMiscellaneous h p ins = fonctionMSR h p ins := by
  have e27 := (getBit_eq_zero ins 27).mpr h27
  have e26 := (getBit_eq_zero ins 26).mpr h26
  have e24 := (getBit_eq_one ins 24).mpr h24
  have e23 := (getBit_eq_zero ins 23).mpr h23
  have e21 := (getBit_eq_one ins 21).mpr h21
  have e20 := (getBit_eq_zero ins 20).mpr h20
  rw [armMiscellaneous, if_pos hc, e27, e26, e24, e23, e21, e20, if_pos (by decide)]

end Armator
