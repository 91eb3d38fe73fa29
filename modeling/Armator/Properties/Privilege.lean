import Armator.Architecture.Alu
import Armator.Architecture.DataWrites
import Armator.Simulator.Create

namespace Armator

open BitFields

def controlBits : List Nat := [0, 1, 2, 3, 4, 6, 7]

def ControlKept (p q : ArmCore) : Prop := ∀ i ∈ controlBits, bit q.cpsr i = bit p.cpsr i

structure MsrToCpsr (p : ArmCore) (ins : Word) : Prop where
  accepted : condNotRespect p ins = 0
  kind : kindOf ins = .miscellaneous
  msr : bit ins 21 = true
  cpsr : bit ins 22 = false
  allocated : armReadRegister p (regNum (getBits ins 3 0)) &&& UnallocMask = 0

theorem ControlKept.of_cpsr {p q : ArmCore} (h : q.cpsr = p.cpsr) : ControlKept p q := by
  intro i _
  rw [h]

theorem controlBits_spec (i : Nat) (hi : i ∈ controlBits) : i < 28 ∧ i ≠ 5 := by
  revert i
  decide

theorem armBranch_control (p : ArmCore) (ins : Word) : ControlKept p (armBranch p ins).2 := by
  intro i hi
  obtain ⟨_, h5⟩ := controlBits_spec i hi
  have h14 (c : Prop) [Decidable c] (v : Word) :
      (if c then armWriteRegister p 14 v else p).cpsr = p.cpsr := by
    split
    · exact armWriteRegister_cpsr p 14 v (by decide)
    · rfl
  have h15 (q : ArmCore) (v : Word) : (armWriteRegister q 15 v).cpsr = q.cpsr :=
    armWriteRegister_cpsr q 15 v (by decide)
  have h16 (q : ArmCore) : (armWriteRegister q 16 (setBit (armReadRegister q 16) 5)).cpsr =
      setBit q.cpsr 5 := armWriteCpsr_cpsr q _
  unfold armBranch
  dsimp only
  split
  · split
    · rw [h15, h16, h14, bit_setBit _ _ _ (by decide), if_neg h5]
    · rw [h15, h14]
  · rfl

theorem usr_hasSpsr (p : ArmCore) (hm : p.mode = USR) : armCurrentModeHasSpsr p = false := by
  change registersModeHasSpsr p.mode = false
  rw [hm]
  rfl

theorem usr_privileged (p : ArmCore) (hm : p.mode = USR) : armInAPrivilegedMode p = false := by
  change (if p.mode = USR then false else true) = false
  rw [if_pos hm]

theorem executeDataProcessing_control (h : Host) (p : ArmCore) (ins : Word) (hm : p.mode = USR)
    (hz : (executeDataProcessing h p ins).1 = 0) :
    ControlKept p (executeDataProcessing h p ins).2 := by
  by_cases hs : updatesFlags ins
  · by_cases hd : rdNum ins = 15
    · rw [executeDataProcessing_spsr h p ins hs hd, usr_hasSpsr p hm] at hz
      cases hz
    · rw [executeDataProcessing_flags h p ins hs hd]
      intro i hi
      rw [armWriteCpsr_cpsr, bit_putFlags_low _ _ _ (controlBits_spec i hi).1]
  · rw [executeDataProcessing_plain h p ins hs]
    exact ControlKept.of_cpsr (operationWrite_cpsr _ _ _ p ins)

theorem miscellaneous_register (ins : Word) (hk : kindOf ins = .miscellaneous) :
    bit ins 25 = false := by
  have h25 := insClass_bits ins 0 (by decide)
  have hc := kindOf_class ins
  rw [hk, Kind.classes, List.mem_singleton] at hc
  rw [BitVec.eq_of_toNat_eq (y := 0) hc] at h25
  exact h25.symm

theorem msrOperand_register (h : Host) (p : ArmCore) (ins : Word)
    (hk : kindOf ins = .miscellaneous) :
    msrOperand h p ins = armReadRegister p (regNum (getBits ins 3 0)) := by
  have h25 := (getBit_eq_zero ins 25).mpr (miscellaneous_register ins hk)
  rw [msrOperand, if_neg (fun hn => hn h25)]

theorem fonctionMSR_usr (h : Host) (p : ArmCore) (ins : Word) (hm : p.mode = USR)
    (hk : kindOf ins = .miscellaneous) :
    (fonctionMSR h p ins).1 = 0 ↔
      bit ins 22 = false ∧ armReadRegister p (regNum (getBits ins 3 0)) &&& UnallocMask = 0 := by
  have hacc : ¬ MsrRefused p ins (msrOperand h p ins) ↔
      bit ins 22 = false ∧
        armReadRegister p (regNum (getBits ins 3 0)) &&& UnallocMask = 0 := by
    rw [msrOperand_register h p ins hk, MsrRefused, usr_privileged p hm, usr_hasSpsr p hm]
    cases bit ins 22 <;> simp
  rw [← hacc]
  by_cases hr : MsrRefused p ins (msrOperand h p ins)
  · rw [fonctionMSR_refused h p ins hr]
    have hcode : DATA_ABORT ≠ 0 := by decide
    exact iff_of_false hcode (not_not.mpr hr)
  · rw [fonctionMSR_accepted h p ins hr]
    exact iff_of_true rfl hr

theorem execute_control (h : Host) (p : ArmCore) (ins : Word) (hm : p.mode = USR)
    (hc : condNotRespect p ins = 0) (hn : ¬ MsrToCpsr p ins)
    (hz : ((kindOf ins).execute h p ins).1 = 0) :
    ControlKept p ((kindOf ins).execute h p ins).2 := by
  cases hk : kindOf ins with
  | miscellaneous =>
      rw [hk] at hz
      simp only [Kind.execute] at hz ⊢
      split at hz
      · rename_i h21
        obtain ⟨h22, ho⟩ := (fonctionMSR_usr h p ins hm hk).mp hz
        exact absurd ⟨hc, hk, h21, h22, ho⟩ hn
      · cases hz
  | dataProcessing =>
      rw [hk] at hz
      exact executeDataProcessing_control h p ins hm hz
  | transfer => exact ControlKept.of_cpsr (armLoadStore_writes h p ins).cpsr
  | blockTransfer => exact ControlKept.of_cpsr (armLoadStoreMultiple_writes h p ins).cpsr
  | branch => exact armBranch_control p ins
  | interrupt => exact ControlKept.of_cpsr rfl
  | undefined => exact ControlKept.of_cpsr rfl

theorem aiguiller_control (h : Host) (p : ArmCore) (ins : Word) (hm : p.mode = USR)
    (hn : ¬ MsrToCpsr p ins) (hz : (aiguiller h p ins).1 = 0) :
    ControlKept p (aiguiller h p ins).2 := by
  by_cases hc : condNotRespect p ins = 0
  · rw [aiguiller_accepted h p ins hc] at hz ⊢
    exact execute_control h p ins hm hc hn hz
  · by_cases hb : kindOf ins = .branch ∧ condNotRespect p ins = 2
    · have he : aiguiller h p ins = armBranch p ins := aiguiller_branch h p ins hb.1
      rw [he]
      exact armBranch_control p ins
    · rw [aiguiller_refused h p ins hc (fun hk h2 => hb ⟨hk, h2⟩)]
      exact ControlKept.of_cpsr rfl

theorem MsrToCpsr.escapes (h : Host) {p : ArmCore} {ins : Word} (hm : p.mode = USR)
    (hs : MsrToCpsr p ins) :
    (aiguiller h p ins).1 = 0 ∧ bit (aiguiller h p ins).2.cpsr 4 ≠ bit p.cpsr 4 := by
  have hz := (fonctionMSR_usr h p ins hm hs.kind).mpr ⟨hs.cpsr, hs.allocated⟩
  rw [aiguiller_accepted h p ins hs.accepted, hs.kind]
  simp only [Kind.execute, hs.msr, if_true]
  refine ⟨hz, ?_⟩
  rw [fonctionMSR_cpsr_bit_four h p ins hs.cpsr hz, cpsr_bit_four p (by rw [hm]; decide)]
  decide

theorem user_mode_control (h : Host) (p : ArmCore) (hm : p.mode = USR) :
    ((armExecuteInstruction h p).1 = 0 → ControlKept p (armExecuteInstruction h p).2) ↔
      ¬ MsrToCpsr p.fetched (p.fetchedWord h) := by
  have hmf : p.fetched.mode = USR := by rw [fetched_mode, hm]
  have hcpsr : ControlKept p = ControlKept p.fetched := by
    unfold ControlKept
    rw [fetched_cpsr]
  rw [armExecuteInstruction_eq, hcpsr]
  constructor
  · intro hkept hs
    obtain ⟨hz, hbit⟩ := hs.escapes h hmf
    exact hbit (hkept hz 4 (by decide))
  · intro hn hz
    exact aiguiller_control h p.fetched (p.fetchedWord h) hmf hn hz

def userProgram (words : List Word) : ArmCore := armWriteCpsr (afterReset words) 0x10

-- MSR CPSR_c, R0 with R0 = 0 leaves a mode field of zeros.
theorem msr_leaves_user_mode :
    (userProgram [0xE121F000]).mode = USR ∧
      ¬ ((armExecuteInstruction Host.blank (userProgram [0xE121F000])).1 = 0 →
        ControlKept (userProgram [0xE121F000])
          (armExecuteInstruction Host.blank (userProgram [0xE121F000])).2) :=
  ⟨by decide, fun hk => absurd (hk (by decide) 4 (by decide)) (by decide)⟩

theorem user_add_control :
    ControlKept (userProgram [0xE2800001])
      (armExecuteInstruction Host.blank (userProgram [0xE2800001])).2 :=
  (user_mode_control Host.blank (userProgram [0xE2800001]) (by decide)).mpr
    (fun hs => absurd hs.kind (by decide)) (by decide)

end Armator
