import Armator.Architecture.BranchHandler
import Armator.Simulator.Create

namespace Armator

open BitFields

def isLinked (ins : Word) : Bool := bit ins 24 || isBlx ins

def branchTarget (p : ArmCore) (ins : Word) : Word :=
  p.pc + 8 + 4 * signedImmediate ins + (if isBlx ins && bit ins 24 then 2 else 0)

def branchRegisters (p : ArmCore) (ins : Word) : Registers :=
  let r := if isLinked ins then registersWrite p.reg 14 p.mode (p.pc + 4) else p.reg
  let r := if isBlx ins then r.set CPSR (setBit p.cpsr 5) else r
  r.set PC (branchTarget p ins)

def BranchContract (h : Host) (p : ArmCore) (ins : Word) : Prop :=
  (armStep h p).1 = 0 ∧ (armStep h p).2.reg = branchRegisters p ins ∧
    (armStep h p).2.mem = p.mem

structure BranchAt (h : Host) (p : ArmCore) (a ins : Word) : Prop where
  aligned : a.toNat % 4 = 0
  inside : a.toNat < p.mem.size
  pc : p.pc = a
  mode : p.mode ∈ armModes
  stored : p.fetchedWord h = ins
  branch : insClass ins = 5
  passed : condField ins = 15 ∨ conditionPassed (condField ins) (flagsOf p.cpsr) = true

theorem branch_never (h : Host) (p : ArmCore) (a ins : Word) (hb : BranchAt h p a ins) :
    ¬ BranchContract h p ins := by
  rintro ⟨hcode, hreg, _⟩
  have hp1 : bit p.pc 1 = false := hb.pc ▸ aligned_bit_one a hb.aligned
  have he : armExecuteInstruction h p = armBranch p.fetched ins := by
    rw [armExecuteInstruction_eq, hb.stored, aiguiller_eq, hb.branch]
    rfl
  by_cases hc : condNotRespect p.fetched ins = 0 ∨ condNotRespect p.fetched ins = 2
  · have hz : (armExecuteInstruction h p).1 = 0 := by
      rw [he, armBranch, if_pos hc]
      dsimp only
      split <;> rfl
    have hpc : (armStep h p).2.pc = branchTarget p ins := by
      rw [ArmCore.pc, hreg, branchRegisters, Registers.set_registre, if_pos rfl]
    rw [armStep_of_zero h p hz, he, armBranch_pc _ _ hc, fetched_armReadPc p hp1,
      branchTarget] at hpc
    generalize p.pc + 8 + 4 * signedImmediate ins = t at hpc
    generalize (if isBlx ins && bit ins 24 then (2 : Word) else 0) = u at hpc
    bv_omega
  · have hr : (armExecuteInstruction h p).1 = -1 := by
      rw [he, armBranch, if_neg hc]
    exact armStep_code_ne_zero h p (-1) hr (by decide) (by decide) hcode

theorem branch_short :
    BranchAt Host.blank (afterReset [0xEA000000]) 0 0xEA000000 ∧
      ¬ BranchContract Host.blank (afterReset [0xEA000000]) 0xEA000000 := by
  refine ⟨⟨by decide, by decide, by decide, by decide, by decide, by decide,
    Or.inr (by decide)⟩, ?_⟩
  rintro ⟨_, hreg, _⟩
  exact absurd (congrArg (fun r => r.registre PC) hreg) (by decide)

theorem branch_link_short :
    ¬ BranchContract Host.blank (afterReset [0xEB000002]) 0xEB000002 :=
  branch_never Host.blank (afterReset [0xEB000002]) 0 0xEB000002
    ⟨by decide, by decide, by decide, by decide, by decide, by decide, Or.inr (by decide)⟩

end Armator
