import Armator.Architecture.BlockHandler
import Armator.Architecture.BranchHandler

namespace Armator

open BitFields

section Execute

variable (h : Host) (p : ArmCore) (ins : Word)

def isAnswer (code : Int) : Prop :=
  code = 0 ∨ code = DATA_ABORT ∨ code = UNDEFINED_INSTRUCTION

theorem executeDataProcessing_answer : isAnswer (executeDataProcessing h p ins).1 := by
  rcases executeDataProcessing_cases h p ins with he | ⟨v, he⟩ | he
  · exact Or.inl (by rw [he])
  · exact Or.inl (by rw [he])
  · exact Or.inr (Or.inr (by rw [he]))

theorem transferred_answer : isAnswer (transferred h p ins).1 := by
  unfold transferred isAnswer
  split_ifs <;> simp

theorem armLoadStoreMultiple_answer (hc : condNotRespect p ins = 0) :
    isAnswer (armLoadStoreMultiple h p ins).1 := by
  by_cases hr : blockRefused ins
  · rw [armLoadStoreMultiple_refused h p ins hc hr]
    exact Or.inr (Or.inr rfl)
  by_cases hi : BlockInside p ins
  · rw [armLoadStoreMultiple_inside h p ins hc hr hi]
    unfold isAnswer
    split_ifs <;> simp
  · exact Or.inr (Or.inl (armLoadStoreMultiple_outside h p ins hc hr hi))

theorem execute_answer (hc : condNotRespect p ins = 0) (hk : kindOf ins ≠ .interrupt) :
    isAnswer ((kindOf ins).execute h p ins).1 := by
  cases hkind : kindOf ins with
  | miscellaneous =>
      simp only [Kind.execute]
      split
      · rcases fonctionMSR_code h p ins with hz | habort
        · exact Or.inl hz
        · exact Or.inr (Or.inl (by rw [habort]))
      · exact Or.inr (Or.inr rfl)
  | dataProcessing => exact executeDataProcessing_answer h p ins
  | transfer =>
      change isAnswer (armLoadStore h p ins).1
      rw [armLoadStore_eq h p ins hc]
      exact transferred_answer h p ins
  | blockTransfer => exact armLoadStoreMultiple_answer h p ins hc
  | branch =>
      change isAnswer (armBranch p ins).1
      rw [armBranch_accepted p ins hc]
      exact Or.inl rfl
  | interrupt => exact absurd hkind hk
  | undefined => exact Or.inr (Or.inr rfl)

end Execute

def executionCodes : List Int :=
  [0, 1, -1, DATA_ABORT, UNDEFINED_INSTRUCTION, SOFTWARE_INTERRUPT]

theorem zero_mem_executionCodes : (0 : Int) ∈ executionCodes := by decide

theorem interrupt_mem_executionCodes : SOFTWARE_INTERRUPT ∈ executionCodes := by decide

theorem answer_mem_executionCodes (r : Int) (hr : isAnswer r) : r ∈ executionCodes := by
  rcases hr with rfl | rfl | rfl <;> decide

theorem refusal_mem_executionCodes (k : Kind) : k.refusal ∈ executionCodes := by
  cases k <;> decide

section Step

variable (h : Host) (p : ArmCore)

theorem armExecuteInstruction_code : (armExecuteInstruction h p).1 ∈ executionCodes := by
  by_cases hc : condNotRespect p.fetched (p.fetchedWord h) = 0
  · rw [armExecuteInstruction_accepted h p hc]
    by_cases hk : kindOf (p.fetchedWord h) = .interrupt
    · rw [hk]
      exact interrupt_mem_executionCodes
    · exact answer_mem_executionCodes _
        (execute_answer h p.fetched (p.fetchedWord h) hc hk)
  · rw [armExecuteInstruction_eq]
    by_cases hb : kindOf (p.fetchedWord h) = .branch → condNotRespect p.fetched (p.fetchedWord h) ≠ 2
    · rw [aiguiller_refused _ _ _ hc hb]
      exact refusal_mem_executionCodes _
    · obtain ⟨hk, h2⟩ := Classical.not_imp.mp hb
      rw [aiguiller_branch _ _ _ hk, armBranch, if_pos (Or.inr (not_not.mp h2))]
      dsimp only
      split <;> exact zero_mem_executionCodes

theorem armException_interrupt (q : ArmCore) :
    (armException h q 8).1 ∈ [END_SIMULATION, 0, SOFTWARE_INTERRUPT] := by
  have h8 : ((8 : Byte).toNat : Int) = SOFTWARE_INTERRUPT := rfl
  have hr : ¬ ((8 : Byte).toNat : Int) = RESET := by decide
  rw [armException, if_pos h8]
  dsimp only
  split
  · exact List.mem_cons_self
  · split
    · exact List.mem_cons_of_mem _ List.mem_cons_self
    · rw [armExceptionReset, if_neg hr]
      exact List.mem_cons_of_mem _ (List.mem_cons_of_mem _ List.mem_cons_self)

theorem armStep_not_prefetch_abort : (armStep h p).1 ≠ PREFETCH_ABORT := by
  have hcode := armExecuteInstruction_code h p
  generalize hr : (armExecuteInstruction h p).1 = r at hcode
  by_cases h0 : r = 0
  · rw [armStep_of_zero h p (hr.trans h0), hr, h0]
    decide
  · by_cases h8 : r = SOFTWARE_INTERRUPT
    · have hz : (armExecuteInstruction h p).1 ≠ 0 := by
        rw [hr]
        exact h0
      have hs := armException_interrupt h (armExecuteInstruction h p).2
      rw [armStep_of_ne_zero h p hz, hr, h8]
      intro he
      rw [show BitVec.ofInt 8 SOFTWARE_INTERRUPT = 8 from rfl] at he
      rw [he] at hs
      exact absurd hs (by decide)
    · have hall : ∀ r ∈ executionCodes, r ≠ 0 → r ≠ SOFTWARE_INTERRUPT →
          BitVec.ofInt 8 r ≠ 0 ∧ BitVec.ofInt 8 r ≠ 8 ∧
            ((BitVec.ofInt 8 r).toNat : Int) ≠ PREFETCH_ABORT := by
        decide
      obtain ⟨hn0, hn8, hne⟩ := hall r hcode h0 h8
      rw [armStep_code h p r hr hn0 hn8]
      exact hne

end Step

end Armator
