import Armator.Architecture.Answers
import Armator.Architecture.Inert
import Armator.Simulator.Create

namespace Armator

open BitFields

structure ConditionFailed (h : Host) (p : ArmCore) : Prop where
  field : condField (p.fetchedWord h) ≠ 15
  failed : conditionPassed (condField (p.fetchedWord h)) (flagsOf p.cpsr) = false

structure NoOp (h : Host) (p : ArmCore) : Prop where
  code : (armStep h p).1 = 0
  reg : (armStep h p).2.reg = p.reg.set PC (p.pc + 4)
  mem : (armStep h p).2.mem = p.mem
  cycle_count : (armStep h p).2.cycle_count = p.cycle_count + 1

-- PL and LE are the conditions that the code lets pass when they fail.
def isMistested (ins : Word) : Prop := condField ins = 5 ∨ condField ins = 13

def Inert (h : Host) (p : ArmCore) (ins : Word) : Prop :=
  match kindOf ins with
  | .miscellaneous => bit ins 21 = true ∧ MsrInert h p ins
  | .dataProcessing => DataProcessingInert h p ins
  | .transfer => TransferInert h p ins
  | .blockTransfer => BlockInert h p ins
  | .branch => BranchInert p ins
  | _ => False

def IsPrint (h : Host) (p : ArmCore) (ins : Word) : Prop :=
  kindOf ins = .interrupt ∧
    (armReadWord h p (armReadRegister p 15 - 8) h.instruction).2 &&& 0xFFFFFF = 1

def SameHost (p q : ArmCore) : Prop := q.console = p.console ∧ q.cycle_count = p.cycle_count

theorem accepted_of_failed (p : ArmCore) (ins : Word) (h15 : condField ins ≠ 15)
    (hf : conditionPassed (condField ins) (flagsOf p.cpsr) = false) :
    condNotRespect p ins = 0 ↔ isMistested ins := by
  rw [condNotRespect_eq, if_neg h15]
  have ha : conditionAccepted (condField ins) (flagsOf p.cpsr) = true ↔ isMistested ins := by
    revert hf
    unfold isMistested conditionAccepted
    split
    · rename_i h5
      simp [conditionPassed, h5]
    · rename_i h13
      simp [h13]
    · rename_i h5 h13
      intro hf
      rw [hf]
      exact iff_of_false (by decide) fun hor => hor.elim h5 h13
  rw [← ha]
  split <;> simp_all

section Execute

variable (h : Host) (p : ArmCore) (ins : Word)

theorem execute_inert (hc : condNotRespect p ins = 0) :
    (kindOf ins).execute h p ins = (0, p) ↔ Inert h p ins := by
  unfold Inert
  cases kindOf ins with
  | miscellaneous =>
      simp only [Kind.execute]
      cases bit ins 21 with
      | true => simp [fonctionMSR_inert]
      | false => simp [UNDEFINED_INSTRUCTION]
  | dataProcessing => exact executeDataProcessing_inert h p ins
  | transfer =>
      change armLoadStore h p ins = (0, p) ↔ _
      rw [armLoadStore_eq h p ins hc]
      exact transferred_inert h p ins
  | blockTransfer => exact armLoadStoreMultiple_inert h p ins hc
  | branch => exact armBranch_inert p ins hc
  | interrupt => simp [Kind.execute, SOFTWARE_INTERRUPT]
  | undefined => simp [Kind.execute, UNDEFINED_INSTRUCTION]

theorem sameHost_of_writes {q : ArmCore} (hw : DataWrites p q) : SameHost p q :=
  ⟨hw.console, hw.cycle_count⟩

theorem aluWrite_sameHost : SameHost p (aluWrite h p ins) := by
  unfold aluWrite
  split <;> exact ⟨rfl, rfl⟩

theorem executeDataProcessing_sameHost : SameHost p (executeDataProcessing h p ins).2 := by
  have ha := aluWrite_sameHost h p ins
  rcases executeDataProcessing_cases h p ins with he | ⟨v, he⟩ | he <;>
  · rw [he]
    exact ha

theorem fonctionMSR_sameHost : SameHost p (fonctionMSR h p ins).2 := by
  rw [fonctionMSR_eq, msrWritten]
  split_ifs <;> exact ⟨rfl, rfl⟩

theorem execute_sameHost (hc : condNotRespect p ins = 0) :
    SameHost p ((kindOf ins).execute h p ins).2 := by
  cases kindOf ins with
  | miscellaneous =>
      simp only [Kind.execute]
      split
      · exact fonctionMSR_sameHost h p ins
      · exact ⟨rfl, rfl⟩
  | dataProcessing => exact executeDataProcessing_sameHost h p ins
  | transfer => exact sameHost_of_writes p (armLoadStore_writes h p ins)
  | blockTransfer => exact sameHost_of_writes p (armLoadStoreMultiple_writes h p ins)
  | branch =>
      change SameHost p (armBranch p ins).2
      rw [armBranch_accepted p ins hc]
      dsimp only
      split <;> exact ⟨rfl, rfl⟩
  | interrupt => exact ⟨rfl, rfl⟩
  | undefined => exact ⟨rfl, rfl⟩

end Execute

section Step

variable (h : Host) (p : ArmCore)

theorem noOp_of_interrupt (hk : kindOf (p.fetchedWord h) = .interrupt) :
    NoOp h p ↔ IsPrint h p.fetched (p.fetchedWord h) := by
  have he : armExecuteInstruction h p = (SOFTWARE_INTERRUPT, p.fetched) := by
    rw [armExecuteInstruction_eq]
    by_cases hc : condNotRespect p.fetched (p.fetchedWord h) = 0
    · rw [aiguiller_accepted _ _ _ hc, hk]
      rfl
    · rw [aiguiller_refused _ _ _ hc, hk]
      · rfl
      · rw [hk]
        intro hb
        cases hb
  have hs : armStep h p = armException h p.fetched 8 := by
    have hne : (armExecuteInstruction h p).1 ≠ 0 := by
      rw [he]
      exact (by decide : SOFTWARE_INTERRUPT ≠ 0)
    rw [armStep_of_ne_zero h p hne, he]
    rfl
  have h8 : ((8 : Byte).toNat : Int) = SOFTWARE_INTERRUPT := rfl
  rw [IsPrint, and_iff_right hk]
  rw [armException, if_pos h8] at hs
  dsimp only at hs
  generalize (armReadWord h p.fetched (armReadRegister p.fetched 15 - 8) h.instruction).2 &&&
    0xFFFFFF = w at hs ⊢
  constructor
  · intro hn
    have hcode := hn.code
    by_contra h1
    rw [hs, if_neg h1] at hcode
    split at hcode <;> cases hcode
  · rintro rfl
    rw [if_neg (by decide), if_pos (by decide)] at hs
    exact ⟨by rw [hs], by rw [hs]; rfl, by rw [hs]; rfl, by rw [hs]; rfl⟩

theorem noOp_of_execute (hc : condNotRespect p.fetched (p.fetchedWord h) = 0)
    (hk : kindOf (p.fetchedWord h) ≠ .interrupt) :
    NoOp h p ↔ Inert h p.fetched (p.fetchedWord h) := by
  have he : armExecuteInstruction h p =
      (kindOf (p.fetchedWord h)).execute h p.fetched (p.fetchedWord h) := by
    rw [armExecuteInstruction_eq, aiguiller_accepted _ _ _ hc]
  have hans := execute_answer h p.fetched (p.fetchedWord h) hc hk
  have hhost := execute_sameHost h p.fetched (p.fetchedWord h) hc
  rw [← execute_inert h p.fetched (p.fetchedWord h) hc, ← he]
  rw [← he] at hans hhost
  constructor
  · intro hn
    have hz : (armExecuteInstruction h p).1 = 0 := by
      rcases hans with hz | h2 | h7
      · exact hz
      · exact absurd hn.code (armStep_code_ne_zero h p _ h2 (by decide) (by decide))
      · exact absurd hn.code (armStep_code_ne_zero h p _ h7 (by decide) (by decide))
    have hs := armStep_of_zero h p hz
    obtain ⟨hcode, hreg, hmem, hcycle⟩ := hn
    rw [hs] at hcode hreg hmem hcycle
    generalize armExecuteInstruction h p = out at hcode hreg hmem hcycle hhost
    obtain ⟨r, q⟩ := out
    obtain ⟨c, g, m, o⟩ := q
    obtain ⟨hco, _⟩ := hhost
    simp only at hcode hreg hmem hcycle hco
    rw [hcode, hreg, hmem, hcycle, hco]
    rfl
  · intro hz
    have hs := armStep_of_zero h p (by rw [hz])
    rw [hz] at hs
    exact ⟨by rw [hs], by rw [hs]; rfl, by rw [hs]; rfl, by rw [hs]; rfl⟩

theorem not_noOp_of_refused (hc : condNotRespect p.fetched (p.fetchedWord h) = 1)
    (hk : kindOf (p.fetchedWord h) ≠ .interrupt) : ¬ NoOp h p := by
  have hn0 : condNotRespect p.fetched (p.fetchedWord h) ≠ 0 := by
    rw [hc]
    decide
  have hn2 : condNotRespect p.fetched (p.fetchedWord h) ≠ 2 := by
    rw [hc]
    decide
  exact fun hno => armStep_refused h p hn0 (fun _ => hn2) hk hno.code

theorem failed_condition_no_op (hf : ConditionFailed h p) :
    NoOp h p ↔ IsPrint h p.fetched (p.fetchedWord h) ∨
      (isMistested (p.fetchedWord h) ∧ Inert h p.fetched (p.fetchedWord h)) := by
  have hacc : condNotRespect p.fetched (p.fetchedWord h) = 0 ↔ isMistested (p.fetchedWord h) := by
    apply accepted_of_failed _ _ hf.field
    rw [fetched_cpsr]
    exact hf.failed
  by_cases hk : kindOf (p.fetchedWord h) = .interrupt
  · rw [noOp_of_interrupt h p hk]
    refine (or_iff_left ?_).symm
    rintro ⟨_, hi⟩
    rw [Inert, hk] at hi
    exact hi
  · have hprint : ¬ IsPrint h p.fetched (p.fetchedWord h) := fun hp => hk hp.1
    rw [or_iff_right hprint]
    by_cases hc : condNotRespect p.fetched (p.fetchedWord h) = 0
    · rw [noOp_of_execute h p hc hk]
      exact (and_iff_right (hacc.mp hc)).symm
    · have h1 : condNotRespect p.fetched (p.fetchedWord h) = 1 := by
        rw [condNotRespect_eq, if_neg hf.field] at hc ⊢
        split at hc
        · exact absurd rfl hc
        · rename_i hn
          rw [if_neg hn]
      refine iff_of_false (not_noOp_of_refused h p h1 hk) ?_
      rintro ⟨hm, _⟩
      exact hc (hacc.mpr hm)

end Step

-- MOVEQ R0, #1 after a reset: the refusal is taken for a new reset.
theorem moveq_resets :
    ConditionFailed Host.blank (afterReset [0x03A00001]) ∧
      ¬ NoOp Host.blank (afterReset [0x03A00001]) :=
  ⟨⟨by decide, by decide⟩, fun hn => absurd hn.code (by decide)⟩

theorem swieq_no_op : NoOp Host.blank (afterReset [0x0F000001]) :=
  (failed_condition_no_op Host.blank (afterReset [0x0F000001]) ⟨by decide, by decide⟩).mpr
    (Or.inl ⟨by decide, by decide⟩)

end Armator
