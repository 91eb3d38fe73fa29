import Armator.Architecture.Inert
import Armator.Properties.WordTransfer

namespace Armator

open BitFields

namespace ArmCore

def withMem (p : ArmCore) (m : Memory) : ArmCore := { p with mem := m }

end ArmCore

def SameElsewhere (pc : Word) (m n : Memory) : Prop :=
  m.size = n.size ∧ ∀ b : Word, (∀ i < 4, b ≠ pc + BitVec.ofNat 32 i) → m.data b = n.data b

-- Two states that differ in the fetched word only: MSR immediate in one, MSR register in the other.
structure MsrPair (h : Host) (p : ArmCore) (m : Memory) (imm reg : Word) : Prop where
  memory : SameElsewhere p.pc p.mem m
  fetchedImm : p.fetchedWord h = imm
  fetchedReg : (p.withMem m).fetchedWord h = reg
  immCode : getBits imm 27 23 = 6 ∧ getBits imm 21 20 = 2 ∧ getBits imm 15 12 = 15
  regCode : getBits reg 27 23 = 2 ∧ getBits reg 21 20 = 2
  condition : condField imm = condField reg
  r : bit imm 22 = bit reg 22
  mask : getBits imm 19 16 = getBits reg 19 16
  operand : rmNum reg ≠ 15 ∧ armReadRegister p (rmNum reg) = rotatedImmediate imm
  passed : Passed p imm

def SameOutcome (h : Host) (p : ArmCore) (m : Memory) : Prop :=
  (armStep h p).1 = (armStep h (p.withMem m)).1 ∧
    (armStep h p).2.reg = (armStep h (p.withMem m)).2.reg ∧
    SameElsewhere p.pc (armStep h p).2.mem (armStep h (p.withMem m)).2.mem

-- The immediate form copies the SPSR to the CPSR: the register form must end there too.
def MsrAgreement (p : ArmCore) (reg : Word) : Prop :=
  let operand := armReadRegister p (rmNum reg)
  armCurrentModeHasSpsr p = true ∧ operand &&& UnallocMask = 0 ∧
    if bit reg 22 = false then
      operand &&& StateMask = 0 ∧
        msrMerge p.cpsr (msrByteMask reg &&& (UserMask ||| PrivMask)) operand = armReadSpsr p
    else
      p.cpsr = armReadSpsr p ∧
        p.holds 17 (msrMerge (armReadSpsr p)
          (msrByteMask reg &&& (UserMask ||| PrivMask ||| StateMask)) operand)

theorem privileged_of_hasSpsr (p : ArmCore) (hs : armCurrentModeHasSpsr p = true) :
    armInAPrivilegedMode p = true := by
  rw [armCurrentModeHasSpsr, registersCurrentModeHasSpsr, registersModeHasSpsr] at hs
  rw [armInAPrivilegedMode, registersInAPrivilegedMode]
  split
  · rename_i hu
    rw [if_pos (Or.inl hu)] at hs
    cases hs
  · rfl

theorem fonctionMSR_privileged (h : Host) (p : ArmCore) (ins : Word)
    (hs : armCurrentModeHasSpsr p = true) :
    fonctionMSR h p ins =
      if msrOperand h p ins &&& UnallocMask ≠ 0 then (DATA_ABORT, p)
      else if bit ins 22 = false then
        if msrOperand h p ins &&& StateMask ≠ 0 then (DATA_ABORT, p)
        else (0, armWriteCpsr p (msrMerge p.cpsr
          (msrByteMask ins &&& (UserMask ||| PrivMask)) (msrOperand h p ins)))
      else (0, armWriteSpsr p (msrMerge (armReadSpsr p)
        (msrByteMask ins &&& (UserMask ||| PrivMask ||| StateMask)) (msrOperand h p ins))) := by
  unfold fonctionMSR
  simp only [cNot_getBit_ne_zero, privileged_of_hasSpsr p hs, hs, if_true]
  rfl

theorem armWriteCpsr_inj (p : ArmCore) (u v : Word) :
    armWriteCpsr p u = armWriteCpsr p v ↔ u = v := by
  constructor
  · intro he
    have hc := congrArg ArmCore.cpsr he
    rwa [armWriteCpsr_cpsr, armWriteCpsr_cpsr] at hc
  · rintro rfl
    rfl

theorem fetched_holds (p : ArmCore) (reg : RegNum) (value : Word) (h : reg ≠ 15) :
    p.fetched.holds reg value ↔ p.holds reg value := by
  unfold ArmCore.holds
  rw [fetched_mode]
  refine forall_congr' fun i => imp_congr_right fun hi => ?_
  have hpc : i ≠ PC := by
    rintro rfl
    exact h ((bank_eq_pc reg p.mode).mp hi)
  change (p.reg.set PC (p.pc + 4)).registre i = value ↔ _
  rw [Registers.set_registre, if_neg hpc]

theorem fetched_hasSpsr (p : ArmCore) :
    armCurrentModeHasSpsr p.fetched = armCurrentModeHasSpsr p := by
  have hm := fetched_mode p
  unfold ArmCore.mode at hm
  rw [armCurrentModeHasSpsr, armCurrentModeHasSpsr, registersCurrentModeHasSpsr,
    registersCurrentModeHasSpsr, hm]

theorem fetched_readSpsr (p : ArmCore) : armReadSpsr p.fetched = armReadSpsr p :=
  fetched_armReadRegister p 17 (by decide)

namespace MsrPair

variable {h : Host} {p : ArmCore} {m : Memory} {imm reg : Word}

theorem kind_imm (hm : MsrPair h p m imm reg) : kindOf imm = .dataProcessing := by
  have hclass : insClass imm = 1 := by
    refine insClass_of_bits imm 1 ?_ ?_ ?_ (by decide)
    · exact bit_of_getBits_eq hm.immCode.1 4 (by decide)
    · exact bit_of_getBits_eq hm.immCode.1 3 (by decide)
    · exact bit_of_getBits_eq hm.immCode.1 2 (by decide)
  have h21 := bit_of_getBits_eq hm.immCode.2.1 1 (by decide)
  rw [kindOf, hclass]
  refine if_neg ?_
  rintro ⟨_, _, hf, _⟩
  rw [h21] at hf
  exact absurd hf (by decide)

theorem kind_reg (hm : MsrPair h p m imm reg) : kindOf reg = .miscellaneous := by
  have hclass : insClass reg = 0 := by
    refine insClass_of_bits reg 0 ?_ ?_ ?_ (by decide)
    · exact bit_of_getBits_eq hm.regCode.1 4 (by decide)
    · exact bit_of_getBits_eq hm.regCode.1 3 (by decide)
    · exact bit_of_getBits_eq hm.regCode.1 2 (by decide)
  rw [kindOf, hclass]
  refine if_pos ⟨?_, ?_, ?_⟩
  · exact bit_of_getBits_eq hm.regCode.1 1 (by decide)
  · exact bit_of_getBits_eq hm.regCode.1 0 (by decide)
  · exact bit_of_getBits_eq hm.regCode.2 0 (by decide)

theorem comparison (hm : MsrPair h p m imm reg) : isComparison (opCode imm) := by
  have hn := congrArg BitVec.toNat hm.immCode.1
  have h6 : (6 : Word).toNat = 6 := rfl
  rw [getBits_toNat, h6] at hn
  rw [isComparison, opCode, getBits_toNat]
  omega

theorem dest (hm : MsrPair h p m imm reg) : rdNum imm = 15 := by
  rw [rdNum, hm.immCode.2.2]
  rfl

theorem operand_eq (hm : MsrPair h p m imm reg) :
    msrOperand h (p.withMem m).fetched reg = armReadRegister p (rmNum reg) := by
  have h25 : bit reg 25 = false := bit_of_getBits_eq hm.regCode.1 2 (by decide)
  have hi : ¬ getBit reg 25 ≠ 0 := fun hn => hn ((getBit_eq_zero reg 25).mpr h25)
  rw [msrOperand, if_neg hi]
  exact fetched_armReadRegister (p.withMem m) _ hm.operand.1

theorem execute_imm (hm : MsrPair h p m imm reg) (hc : condNotRespect p.fetched imm = 0) :
    armExecuteInstruction h p =
      if armCurrentModeHasSpsr p then (0, armWriteCpsr p.fetched (armReadSpsr p))
      else (UNDEFINED_INSTRUCTION, p.fetched) := by
  have hw : aluWrite h p.fetched imm = p.fetched := if_pos hm.comparison
  rw [armExecuteInstruction_accepted, hm.fetchedImm, hm.kind_imm]
  · change executeDataProcessing h p.fetched imm = _
    rw [executeDataProcessing_spsr _ _ _ (Or.inl hm.comparison) hm.dest, hw, fetched_hasSpsr,
      fetched_readSpsr]
  · rw [hm.fetchedImm]
    exact hc

theorem execute_reg (hm : MsrPair h p m imm reg)
    (hc : condNotRespect (p.withMem m).fetched reg = 0) :
    armExecuteInstruction h (p.withMem m) = fonctionMSR h (p.withMem m).fetched reg := by
  have h21 : bit reg 21 = true := bit_of_getBits_eq hm.regCode.2 1 (by decide)
  rw [armExecuteInstruction_accepted, hm.fetchedReg, hm.kind_reg]
  · exact if_pos h21
  · rw [hm.fetchedReg]
    exact hc

theorem accepted_reg (hm : MsrPair h p m imm reg) :
    condNotRespect (p.withMem m).fetched reg = condNotRespect p.fetched imm := by
  rw [condNotRespect_eq, condNotRespect_eq, ← hm.condition, fetched_cpsr, fetched_cpsr]
  rfl

theorem accepted_iff (hm : MsrPair h p m imm reg) :
    condNotRespect p.fetched imm = 0 ↔ condField imm ≠ 5 :=
  fetched_accepted_iff p imm hm.passed

theorem refused (hm : MsrPair h p m imm reg) (hc : condNotRespect p.fetched imm ≠ 0) :
    ¬ SameOutcome h p m := by
  have hcr : condNotRespect (p.withMem m).fetched reg ≠ 0 := by
    rw [hm.accepted_reg]
    exact hc
  have himm : (armExecuteInstruction h p).1 = 1 := by
    rw [armExecuteInstruction_eq, hm.fetchedImm, aiguiller_refused _ _ _ hc, hm.kind_imm]
    · rfl
    · rw [hm.kind_imm]
      intro hb
      cases hb
  have hreg : (armExecuteInstruction h (p.withMem m)).1 = UNDEFINED_INSTRUCTION := by
    rw [armExecuteInstruction_eq, hm.fetchedReg, aiguiller_refused _ _ _ hcr, hm.kind_reg]
    · rfl
    · rw [hm.kind_reg]
      intro hb
      cases hb
  rintro ⟨hcode, _⟩
  rw [armStep_code h p _ himm (by decide) (by decide),
    armStep_code h _ _ hreg (by decide) (by decide)] at hcode
  exact absurd hcode (by decide)

theorem without_spsr (hm : MsrPair h p m imm reg) (hc : condNotRespect p.fetched imm = 0)
    (hs : ¬ armCurrentModeHasSpsr p = true) : ¬ SameOutcome h p m := by
  have himm := hm.execute_imm hc
  have hreg := hm.execute_reg (hm.accepted_reg.trans hc)
  rw [if_neg hs] at himm
  rintro ⟨hcode, _⟩
  rw [armStep_code h p UNDEFINED_INSTRUCTION (by rw [himm]) (by decide) (by decide)] at hcode
  rcases fonctionMSR_code h (p.withMem m).fetched reg with hz | habort
  · rw [armStep_of_zero h (p.withMem m) (by rw [hreg]; exact hz), hreg, hz] at hcode
    exact absurd hcode (by decide)
  · rw [armStep_code h _ DATA_ABORT (by rw [hreg, habort]) (by decide) (by decide)] at hcode
    exact absurd hcode (by decide)

theorem aborted (hm : MsrPair h p m imm reg) (hc : condNotRespect p.fetched imm = 0)
    (hs : armCurrentModeHasSpsr p = true) (q : ArmCore)
    (ha : armExecuteInstruction h (p.withMem m) = (DATA_ABORT, q)) : ¬ SameOutcome h p m := by
  have himm := hm.execute_imm hc
  rw [if_pos hs] at himm
  rintro ⟨hcode, _⟩
  rw [armStep_of_zero h p (by rw [himm]), himm,
    armStep_code h _ DATA_ABORT (by rw [ha]) (by decide) (by decide)] at hcode
  exact absurd (show (0 : Int) = _ from hcode) (by decide)

theorem completed (hm : MsrPair h p m imm reg) (hc : condNotRespect p.fetched imm = 0)
    (hs : armCurrentModeHasSpsr p = true) (k : RegNum) (v : Word)
    (ha : armExecuteInstruction h (p.withMem m) =
      (0, armWriteRegister (p.withMem m).fetched k v)) :
    SameOutcome h p m ↔
      armWriteRegister p.fetched 16 (armReadSpsr p) = armWriteRegister p.fetched k v := by
  have himm := hm.execute_imm hc
  rw [if_pos hs] at himm
  rw [SameOutcome, armStep_of_zero h p (by rw [himm]), himm,
    armStep_of_zero h (p.withMem m) (by rw [ha]), ha, and_iff_right rfl]
  have hmem : SameElsewhere p.pc p.mem m := hm.memory
  constructor
  · rintro ⟨hregs, _⟩
    exact congrArg (fun r => ({ p.fetched with reg := r } : ArmCore)) hregs
  · intro he
    have hregs := congrArg ArmCore.reg he
    exact ⟨hregs, hmem⟩

end MsrPair

theorem msr_forms_agree (h : Host) (p : ArmCore) (m : Memory) (imm reg : Word)
    (hm : MsrPair h p m imm reg) :
    SameOutcome h p m ↔ condField imm ≠ 5 ∧ MsrAgreement p reg := by
  by_cases hc : condNotRespect p.fetched imm = 0
  · rw [and_iff_right (hm.accepted_iff.mp hc), MsrAgreement]
    by_cases hs : armCurrentModeHasSpsr p = true
    · have hq : armCurrentModeHasSpsr (p.withMem m).fetched = true :=
        (fetched_hasSpsr (p.withMem m)).trans hs
      have he := (hm.execute_reg (hm.accepted_reg.trans hc)).trans
        (fonctionMSR_privileged h (p.withMem m).fetched reg hq)
      rw [hm.operand_eq, fetched_cpsr, fetched_readSpsr] at he
      rw [and_iff_right hs]
      by_cases hu : armReadRegister p (rmNum reg) &&& UnallocMask = 0
      · rw [if_neg (fun hn => hn hu)] at he
        rw [and_iff_right hu]
        by_cases h22 : bit reg 22 = false
        · rw [if_pos h22] at he ⊢
          by_cases hst : armReadRegister p (rmNum reg) &&& StateMask = 0
          · rw [if_neg (fun hn => hn hst)] at he
            rw [hm.completed hc hs 16 _ he, and_iff_right hst]
            exact (armWriteCpsr_inj p.fetched _ _).trans eq_comm
          · rw [if_pos hst] at he
            exact iff_of_false (hm.aborted hc hs _ he) (fun hh => hst hh.1)
        · rw [if_neg h22] at he ⊢
          rw [hm.completed hc hs 17 _ he, write_eq_write_iff _ _ _ _ _ (by decide),
            holds_sixteen, fetched_cpsr, fetched_holds _ _ _ (by decide)]
          rfl
      · rw [if_pos hu] at he
        exact iff_of_false (hm.aborted hc hs _ he) (fun hh => hu hh.1)
    · exact iff_of_false (hm.without_spsr hc hs) (fun hh => hs hh.1)
  · exact iff_of_false (hm.refused hc) (fun hh => hc (hm.accepted_iff.mpr hh.1))

theorem single_word_elsewhere (x y : Word) :
    SameElsewhere 0 (Memory.ofWords [x]) (Memory.ofWords [y]) := by
  refine ⟨rfl, ?_⟩
  intro b hb
  have h4 : ¬ b.toNat < 4 := by
    intro hlt
    apply hb b.toNat hlt
    rw [BitVec.ofNat_toNat, BitVec.setWidth_eq]
    exact (BitVec.zero_add b).symm
  have hd : ∀ z : Word, [z].getD (b.toNat / 4) 0 = 0 := by
    intro z
    obtain ⟨k, hk⟩ : ∃ k, b.toNat / 4 = k + 1 := ⟨b.toNat / 4 - 1, by omega⟩
    rw [hk]
    rfl
  simp only [Memory.ofWords, hd]

-- MSR CPSR_c, #0x13 after a reset, and MSR CPSR_c, R0 with 0x13 in R0.
theorem msr_immediate_copies_spsr :
    MsrPair Host.blank (armWriteRegister (afterReset [0xE321F013]) 0 0x13)
        (Memory.ofWords [0xE121F000]) 0xE321F013 0xE121F000 ∧
      ¬ SameOutcome Host.blank (armWriteRegister (afterReset [0xE321F013]) 0 0x13)
        (Memory.ofWords [0xE121F000]) := by
  refine ⟨⟨single_word_elsewhere _ _, by decide, by decide, by decide, by decide, by decide,
    by decide, by decide, by decide, by decide⟩, ?_⟩
  rintro ⟨_, hregs, _⟩
  exact absurd (congrArg (fun r => r.registre CPSR) hregs) (by decide)

theorem msr_zero_agrees :
    SameOutcome Host.blank (afterReset [0xE321F000]) (Memory.ofWords [0xE121F000]) :=
  (msr_forms_agree Host.blank (afterReset [0xE321F000]) (Memory.ofWords [0xE121F000]) 0xE321F000
    0xE121F000 ⟨single_word_elsewhere _ _, by decide, by decide, by decide, by decide, by decide,
      by decide, by decide, by decide, by decide⟩).mpr
    ⟨by decide, by unfold MsrAgreement ArmCore.holds; decide⟩

end Armator
