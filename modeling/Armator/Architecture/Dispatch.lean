import Armator.Architecture.Condition
import Armator.Simulator.Instruction

namespace Armator

open BitFields

namespace ArmCore

def fetched (p : ArmCore) : ArmCore :=
  { p with reg := p.reg.set PC (p.pc + 4), cycle_count := p.cycle_count + 1 }

def fetchedWord (h : Host) (p : ArmCore) : Word :=
  (memoryReadWord p.mem p.pc h.ins h.ENDIANESS).2

end ArmCore

theorem armExecuteInstruction_eq (h : Host) (p : ArmCore) :
    armExecuteInstruction h p = aiguiller h p.fetched (p.fetchedWord h) := rfl

@[simp] theorem fetched_mem (p : ArmCore) : p.fetched.mem = p.mem := rfl

@[simp] theorem fetched_pc (p : ArmCore) : p.fetched.pc = p.pc + 4 := by
  simp [ArmCore.pc, ArmCore.fetched, Registers.set]

@[simp] theorem fetched_cpsr (p : ArmCore) : p.fetched.cpsr = p.cpsr := by
  simp [ArmCore.cpsr, ArmCore.fetched, Registers.set, PC, CPSR]

theorem fetched_accepted_iff (p : ArmCore) (ins : Word) (hp : Passed p ins) :
    condNotRespect p.fetched ins = 0 ↔ condField ins ≠ 5 := by
  apply passed_accepted_iff
  rw [Passed, fetched_cpsr]
  exact hp

@[simp] theorem fetched_mode (p : ArmCore) : p.fetched.mode = p.mode := by
  have h := fetched_cpsr p
  unfold ArmCore.cpsr at h
  rw [ArmCore.mode, ArmCore.mode, registersGetMode, registersGetMode, h]

theorem fetched_registersRead (p : ArmCore) (reg : RegNum) (mode : Byte) (h : reg ≠ 15) :
    registersRead p.fetched.reg reg mode = registersRead p.reg reg mode :=
  registersRead_write_other p.reg 15 mode (p.pc + 4) reg (Ne.symm h)

theorem fetched_armReadRegister (p : ArmCore) (reg : RegNum) (h : reg ≠ 15) :
    armReadRegister p.fetched reg = armReadRegister p reg := by
  rw [armReadRegister_of_ne _ _ h, armReadRegister_of_ne _ _ h, fetched_mode,
    fetched_registersRead _ _ _ h]

theorem and_not_two (x : Word) : x &&& 0xFFFFFFFD = if bit x 1 then x - 2 else x :=
  and_not_bit x 1 (by decide)

theorem fetched_armReadPc (p : ArmCore) (h : bit p.pc 1 = false) :
    armReadRegister p.fetched 15 = p.pc + 8 := by
  have h8 : p.fetched.pc + 4 = p.pc + 8 := by
    rw [fetched_pc, BitVec.add_assoc]
    rfl
  have hb : bit (p.pc + 8) 1 = false := by
    rw [bit_eq_decide] at h ⊢
    have hlt := p.pc.isLt
    have ht : (8 : Word).toNat = 8 := rfl
    simp only [decide_eq_false_iff_not, BitVec.toNat_add, ht] at h ⊢
    omega
  rw [armReadRegister_pc, h8, and_not_two, hb]
  rfl

theorem aligned_bit_one (a : Word) (h : a.toNat % 4 = 0) : bit a 1 = false := by
  rw [bit_eq_decide, decide_eq_false_iff_not]
  omega

def insClass (ins : Word) : Word := getBits ins 27 25

theorem insClass_of_bits (ins v : Word) (h27 : bit ins 27 = bit v 2) (h26 : bit ins 26 = bit v 1)
    (h25 : bit ins 25 = bit v 0) (hv : v.toNat < 8) : insClass ins = v := by
  have hv3 : v = getBits v 2 0 := by
    apply BitVec.eq_of_toNat_eq
    rw [getBits_toNat]
    omega
  rw [hv3]
  apply bit_ext
  intro i _
  rw [insClass, bit_getBits, bit_getBits]
  by_cases hi : i < 3
  · interval_cases i <;> simp [h27, h26, h25]
  · have h3 : ¬ i < 27 - 25 + 1 := by omega
    simp [h3]

theorem functionToUse_eq (ins : Word) : (ins >>> 25) &&& 7#32 = insClass ins := by
  rw [insClass, getBits]
  congr 1

theorem insClass_lt (ins : Word) : (insClass ins).toNat < 8 := by
  rw [insClass, getBits_toNat]
  exact Nat.mod_lt _ (by decide)

theorem aiguiller_eq (h : Host) (p : ArmCore) (ins : Word) :
    aiguiller h p ins =
      match (insClass ins).toNat with
      | 0 =>
          if bit ins 24 = true ∧ bit ins 23 = false ∧ bit ins 20 = false then armMiscellaneous h p ins
          else if bit ins 4 = true ∧ bit ins 7 = true then armLoadStore h p ins
          else armDataProcessingShift h p ins
      | 1 =>
          if bit ins 24 = true ∧ bit ins 23 = false ∧ bit ins 21 = false ∧ bit ins 20 = false then
            (UNDEFINED_INSTRUCTION, p)
          else armDataProcessingImmediateMsr h p ins
      | 2 => armLoadStore h p ins
      | 3 =>
          if getBits ins 24 20 = 0x1F ∧ getBits ins 7 4 = 0xF then (UNDEFINED_INSTRUCTION, p)
          else armLoadStore h p ins
      | 4 => armLoadStoreMultiple h p ins
      | 5 => armBranch p ins
      | 6 => armCoprocessorLoadStore p ins
      | 7 => armCoprocessorOthersSwi p ins
      | _ => (-1, p) := by
  have hlt := insClass_lt ins
  unfold aiguiller
  simp only [functionToUse_eq, BitVec.ofNat_eq_ofNat, getBit_eq_one, getBit_eq_zero, ne_eq]
  generalize (insClass ins).toNat = n at hlt
  interval_cases n <;> simp only
  · split_ifs <;> rfl
  · by_cases h21 : bit ins 21 = false
    · simp only [h21, not_true_eq_false, if_false]
      split_ifs <;> rfl
    · simp [h21]
  · split_ifs <;> rfl

section Step

variable (h : Host) (p : ArmCore)

theorem armStep_of_zero (hz : (armExecuteInstruction h p).1 = 0) :
    armStep h p = armExecuteInstruction h p := by
  unfold armStep
  simp only [hz, ne_eq, not_true_eq_false, if_false]
  rw [← hz]

theorem armStep_of_ne_zero (hz : (armExecuteInstruction h p).1 ≠ 0) :
    armStep h p = armException h (armExecuteInstruction h p).2
      (BitVec.ofInt 8 (armExecuteInstruction h p).1) := by
  unfold armStep
  simp only [hz, ne_eq, not_false_eq_true, if_true]

theorem armException_code (q : ArmCore) (e : Byte) (he : e ≠ 8) :
    (armException h q e).1 = e.toNat := by
  have h8 : (e.toNat : Int) ≠ SOFTWARE_INTERRUPT := by
    intro hh
    apply he
    apply BitVec.eq_of_toNat_eq
    unfold SOFTWARE_INTERRUPT at hh
    exact_mod_cast hh
  rw [armException, if_neg h8, armExceptionReset]
  split <;> rfl

theorem armStep_code (r : Int) (hr : (armExecuteInstruction h p).1 = r)
    (h0 : BitVec.ofInt 8 r ≠ 0) (h8 : BitVec.ofInt 8 r ≠ 8) :
    (armStep h p).1 = (BitVec.ofInt 8 r).toNat := by
  have hz : (armExecuteInstruction h p).1 ≠ 0 := by
    rw [hr]
    rintro rfl
    exact h0 (by decide)
  rw [armStep_of_ne_zero h p hz, hr, armException_code h _ _ h8]

theorem armStep_code_ne_zero (r : Int) (hr : (armExecuteInstruction h p).1 = r)
    (h0 : BitVec.ofInt 8 r ≠ 0) (h8 : BitVec.ofInt 8 r ≠ 8) : (armStep h p).1 ≠ 0 := by
  rw [armStep_code h p r hr h0 h8]
  intro hn
  apply h0
  apply BitVec.eq_of_toNat_eq
  exact_mod_cast hn

end Step

end Armator
