import Armator.Architecture.BlockHandler
import Armator.Architecture.BranchHandler

namespace Armator

open BitFields

section DataProcessing

variable (h : Host) (p : ArmCore) (ins : Word)

def aluValue : Word := (aluResult h p ins).setWidth 32

theorem aluWrite_settled :
    aluWrite h p ins = p ↔ (¬ isComparison (opCode ins) → p.holds (rdNum ins) (aluValue h p ins)) := by
  rw [aluWrite]
  split
  · rename_i hc
    simp [hc]
  · rename_i hc
    rw [armWriteRegister_settled]
    exact ⟨fun hh _ => hh, fun hh => hh hc⟩

theorem aluWrite_cpsr_settled (v : Word) :
    armWriteCpsr (aluWrite h p ins) v = p ↔ aluWrite h p ins = p ∧ p.cpsr = v := by
  have h16 := (ne_of_val_lt (rdNum_lt ins)).1
  have hw (q : ArmCore) : armWriteCpsr q v = armWriteRegister q 16 v := rfl
  rw [aluWrite]
  split
  · rw [hw, armWriteRegister_settled, holds_sixteen]
    exact (and_iff_right rfl).symm
  · rw [hw, two_writes_settled _ _ _ _ _ h16 h16, armWriteRegister_settled, holds_sixteen]

def DataProcessingInert : Prop :=
  (¬ isComparison (opCode ins) → p.holds (rdNum ins) (aluValue h p ins)) ∧
    (updatesFlags ins →
      if rdNum ins = 15 then armCurrentModeHasSpsr p = true ∧ armReadSpsr p = p.cpsr
      else flagsOf p.cpsr = tempFlags (aluResult h p ins))

theorem executeDataProcessing_inert :
    executeDataProcessing h p ins = (0, p) ↔ DataProcessingInert h p ins := by
  rw [DataProcessingInert, ← aluWrite_settled]
  by_cases hs : updatesFlags ins
  · by_cases hd : rdNum ins = 15
    · rw [executeDataProcessing_spsr h p ins hs hd]
      simp only [hs, hd, if_true, forall_const]
      cases armCurrentModeHasSpsr p with
      | true =>
          simp only [if_true, Prod.mk.injEq, true_and]
          rw [aluWrite_cpsr_settled, eq_comm (a := p.cpsr)]
      | false => simp [UNDEFINED_INSTRUCTION]
    · rw [executeDataProcessing_flags h p ins hs hd]
      simp only [hs, hd, if_false, forall_const, Prod.mk.injEq, true_and]
      rw [aluWrite_cpsr_settled, eq_comm (a := p.cpsr), putFlags_eq_self_iff]
  · rw [executeDataProcessing_plain h p ins hs]
    simp [hs]

end DataProcessing

section Transfer

variable (h : Host) (p : ArmCore) (ins : Word)

def AccessInside : Prop :=
  if bit ins 20 = true ∧ isWordByte ins ∧ rnNum ins = 15 then h.result ≠ -1
  else ¬ p.mem.horsPlage (accessAddress h p ins)

def StoreSettled (value : Word) : Prop :=
  if isWordByte ins then
    if bit ins 22 then
      p.mem.data (accessAddress h p ins) =
        if rnNum ins ≠ 15 then value.setWidth 8 else h.value8
    else
      p.mem.word h.ENDIANESS (accessAddress h p ins) =
        if rnNum ins ≠ 15 then value else baseValue p ins + 8
  else p.mem.holds 2 h.ENDIANESS (accessAddress h p ins) (value.setWidth 16 : Half)

def AccessSettled : Prop :=
  if bit ins 20 then p.holds (rdNum ins) (loaded h p ins).2
  else StoreSettled h p ins (armReadRegister p (rdNum ins))

theorem stored_settled (value : Word) (hi : ¬ p.mem.horsPlage (accessAddress h p ins)) :
    (stored h p ins value).2 = p.mem ↔ StoreSettled h p ins value := by
  rw [stored, StoreSettled]
  split
  · split
    · exact memoryWriteByte_eq_self_iff _ _ _ hi
    · exact memoryWriteWord_eq_self_iff _ _ _ _ hi
  · exact memoryWriteHalf_eq_self_iff _ _ _ _ hi

theorem stored_code (value : Word) :
    (stored h p ins value).1 = if p.mem.horsPlage (accessAddress h p ins) then -1 else 0 := by
  rw [stored]
  split
  · split
    · rw [memoryWriteByte]
      split <;> rfl
    · rw [memoryWriteWord]
      split <;> rfl
  · rw [memoryWriteHalf]
    split <;> rfl

theorem loaded_code (hb : ¬ (isWordByte ins ∧ rnNum ins = 15)) :
    (loaded h p ins).1 = if p.mem.horsPlage (accessAddress h p ins) then -1 else 0 := by
  rw [loaded]
  split
  · rename_i hw
    have hr : rnNum ins ≠ 15 := fun hr => hb ⟨hw, hr⟩
    rw [if_pos hr, if_pos hr]
    split
    · rw [memoryReadByte]
      split <;> rfl
    · rw [memoryReadWord]
      split <;> rfl
  · rw [memoryReadHalf]
    split <;> rfl

theorem accessed_code : (accessed h p ins).1 = -1 ↔ ¬ AccessInside h p ins := by
  have hcode : (if p.mem.horsPlage (accessAddress h p ins) then (-1 : Int) else 0) = -1 ↔
      p.mem.horsPlage (accessAddress h p ins) := by
    split <;> simp_all
  rw [accessed, AccessInside]
  cases h20 : bit ins 20 with
  | true =>
      simp only [if_true, true_and]
      by_cases hb : isWordByte ins ∧ rnNum ins = 15
      · have hr : ¬ rnNum ins ≠ 15 := fun hn => hn hb.2
        rw [if_pos hb, loaded, if_pos hb.1, if_neg hr, if_neg hr]
        split <;> simp
      · rw [if_neg hb, loaded_code h p ins hb, hcode, not_not]
  | false =>
      simp only [Bool.false_eq_true, false_and, if_false]
      rw [stored_code, hcode, not_not]

theorem inside_of_store (hi : AccessInside h p ins) (h20 : bit ins 20 = false) :
    ¬ p.mem.horsPlage (accessAddress h p ins) := by
  rw [AccessInside, if_neg] at hi
  · exact hi
  · rintro ⟨ht, _⟩
    rw [h20] at ht
    cases ht

theorem accessed_settled (hpre : preIndexed h p ins = p) (hi : AccessInside h p ins) :
    (accessed h p ins).2 = p ↔ AccessSettled h p ins := by
  rw [accessed, AccessSettled, hpre]
  cases h20 : bit ins 20 with
  | true => exact armWriteRegister_settled _ _ _
  | false =>
      simp only [Bool.false_eq_true, if_false]
      rw [with_mem_eq_iff]
      exact stored_settled h p ins _ (inside_of_store h p ins hi h20)

-- A register that is written twice counts with its last value only.
def TransferInert : Prop :=
  ¬ transferRefused ins ∧ ¬ accessRefused ins ∧ AccessInside h p ins ∧
    (bit ins 24 = true ∨ bit ins 21 = false) ∧
    (bit ins 24 = false ∨ bit ins 21 = true →
      ¬ (bit ins 24 = true ∧ bit ins 20 = true ∧ rdNum ins = rnNum ins) →
      p.holds (rnNum ins) (indexedAddress h p ins)) ∧
    (¬ (bit ins 24 = false ∧ bit ins 20 = true ∧ rdNum ins = rnNum ins) → AccessSettled h p ins)

theorem preIndexed_settled :
    preIndexed h p ins = p ↔
      (bit ins 24 = true ∧ bit ins 21 = true → p.holds (rnNum ins) (indexedAddress h p ins)) := by
  rw [preIndexed]
  split
  · rename_i hw
    rw [armWriteRegister_settled]
    exact ⟨fun hh _ => hh, fun hh => hh hw⟩
  · rename_i hw
    simp [hw]

theorem accessed_writeback (hp : bit ins 24 = true) (hw : bit ins 21 = true)
    (hi : AccessInside h p ins) :
    (accessed h p ins).2 = p ↔
      (¬ (bit ins 20 = true ∧ rdNum ins = rnNum ins) →
        p.holds (rnNum ins) (indexedAddress h p ins)) ∧ AccessSettled h p ins := by
  have h16 := (ne_of_val_lt (rnNum_lt ins)).1
  have hpre : preIndexed h p ins = armWriteRegister p (rnNum ins) (indexedAddress h p ins) :=
    if_pos ⟨hp, hw⟩
  cases h20 : bit ins 20 with
  | true =>
      rw [accessed, AccessSettled, if_pos h20, if_pos h20, hpre]
      dsimp only
      by_cases hd : rdNum ins = rnNum ins
      · rw [hd, write_write_same _ _ _ _ h16, armWriteRegister_settled]
        simp
      · rw [two_writes_settled _ _ _ _ _ h16 (Ne.symm hd)]
        simp [hd]
  | false =>
      have hn : ¬ (false = true ∧ rdNum ins = rnNum ins) := by simp
      have hiff := accessed_settled h p ins
      simp only [hn, not_false_eq_true, forall_const]
      constructor
      · intro he
        have hh : p.holds (rnNum ins) (indexedAddress h p ins) := by
          rw [← armWriteRegister_settled, ← hpre]
          rw [accessed, h20] at he
          simp only [Bool.false_eq_true, if_false] at he
          have hreg := congrArg ArmCore.reg he
          change (preIndexed h p ins).reg = p.reg at hreg
          rw [hpre] at hreg ⊢
          exact (with_reg_eq_iff p _).mpr hreg
        have hsame := (preIndexed_settled h p ins).mpr fun _ => hh
        exact ⟨hh, (hiff hsame hi).mp he⟩
      · rintro ⟨hh, hs⟩
        have hsame := (preIndexed_settled h p ins).mpr fun _ => hh
        exact (hiff hsame hi).mpr hs

theorem accessed_post (hp : bit ins 24 = false) (hi : AccessInside h p ins) :
    armWriteRegister (accessed h p ins).2 (rnNum ins) (indexedAddress h p ins) = p ↔
      p.holds (rnNum ins) (indexedAddress h p ins) ∧
        (¬ (bit ins 20 = true ∧ rdNum ins = rnNum ins) → AccessSettled h p ins) := by
  have h16n := (ne_of_val_lt (rnNum_lt ins)).1
  have h16d := (ne_of_val_lt (rdNum_lt ins)).1
  have hpre : preIndexed h p ins = p := by
    rw [preIndexed_settled, hp]
    rintro ⟨hf, _⟩
    cases hf
  cases h20 : bit ins 20 with
  | true =>
      rw [accessed, AccessSettled, if_pos h20, if_pos h20, hpre]
      dsimp only
      by_cases hd : rdNum ins = rnNum ins
      · rw [hd, write_write_same _ _ _ _ h16n, armWriteRegister_settled]
        simp
      · rw [two_writes_settled _ _ _ _ _ h16d hd]
        simp [hd, and_comm]
  | false =>
      have hn : ¬ (false = true ∧ rdNum ins = rnNum ins) := by simp
      have hs := stored_settled h p ins (armReadRegister p (rdNum ins))
        (inside_of_store h p ins hi h20)
      have h20' : ¬ bit ins 20 = true := by
        rw [h20]
        decide
      rw [accessed, AccessSettled, if_neg h20', if_neg h20', hpre]
      simp only [hn, not_false_eq_true, forall_const, ← hs, ← armWriteRegister_settled]
      generalize (stored h p ins (armReadRegister p (rdNum ins))).2 = m
      have he : armWriteRegister { p with mem := m } (rnNum ins) (indexedAddress h p ins) =
          { armWriteRegister p (rnNum ins) (indexedAddress h p ins) with mem := m } := rfl
      rw [he]
      constructor
      · intro heq
        have hreg := congrArg ArmCore.reg heq
        have hmem := congrArg ArmCore.mem heq
        exact ⟨(with_reg_eq_iff p _).mpr hreg, hmem⟩
      · rintro ⟨hreg, hmem⟩
        rw [hreg, hmem]

theorem transferred_inert : transferred h p ins = (0, p) ↔ TransferInert h p ins := by
  have hcode := accessed_code h p ins
  unfold transferred TransferInert
  by_cases hr : transferRefused ins
  · simp [hr, UNDEFINED_INSTRUCTION]
  by_cases ha : accessRefused ins
  · simp [hr, ha, UNDEFINED_INSTRUCTION]
  by_cases hi : AccessInside h p ins
  · have hz : ¬ (accessed h p ins).1 = -1 := fun hz => hcode.mp hz hi
    simp only [hr, ha, hi, hz, if_false, not_false_eq_true, true_and]
    cases hp : bit ins 24 with
    | true =>
        cases hw : bit ins 21 with
        | true =>
            have hacc := accessed_writeback h p ins hp hw hi
            simp [hacc]
        | false =>
            have hpre : preIndexed h p ins = p := by
              rw [preIndexed_settled, hw]
              rintro ⟨_, hf⟩
              cases hf
            have hacc := accessed_settled h p ins hpre hi
            simp [hacc]
    | false =>
        cases hw : bit ins 21 with
        | true => simp [UNDEFINED_INSTRUCTION]
        | false =>
            have hacc := accessed_post h p ins hp hi
            simp [hacc]
  · have hz := hcode.mpr hi
    simp [hr, ha, hi, hz, DATA_ABORT]

end Transfer

section Block

variable (h : Host) (p : ArmCore) (ins : Word)

def BlockSettled : Prop :=
  ∀ x ∈ blockPlan p ins,
    if bit ins 20 then p.holds x.1 (p.mem.word h.ENDIANESS x.2)
    else p.mem.word h.ENDIANESS x.2 = armReadRegister p x.1

def BlockInert : Prop :=
  ¬ blockRefused ins ∧ BlockInside p ins ∧ bit ins 15 = false ∧ BlockSettled h p ins ∧
    (bit ins 21 = true → p.holds (rnNum ins) (endAddress p ins))

theorem blockMoved_writeback (hr : ¬ blockRefused ins) (hw : bit ins 21 = true) (v : Word) :
    armWriteRegister (blockMoved h p ins) (rnNum ins) v = p ↔
      BlockSettled h p ins ∧ p.holds (rnNum ins) v := by
  have hout : bit ins (rnNum ins) ≠ true := fun hb => hr (Or.inr (Or.inl ⟨hb, hw⟩))
  have h16 := (ne_of_val_lt (rnNum_lt ins)).1
  have hset := blockMoved_settled h p ins
  rw [BlockSettled, ← hset, ← armWriteRegister_settled]
  unfold blockMoved at hset ⊢
  cases h20 : bit ins 20 with
  | true =>
      simp only [h20, if_true] at hset ⊢
      have hregs : ∀ x ∈ blockPlan p ins, x.1 ≠ 16 := by
        intro x hx
        have hlt := (blockPlan_reg p ins x hx).1
        exact (ne_of_val_lt (by omega)).1
      have hne : ∀ x ∈ blockPlan p ins, x.1 ≠ rnNum ins := by
        rintro x hx he
        exact hout (he ▸ (blockPlan_reg p ins x hx).2)
      have happ : armWriteRegister (p.loadPlan h.ENDIANESS (blockPlan p ins)) (rnNum ins) v =
          p.writeRegs ((blockPlan p ins).map (fun x => (x.1, p.mem.word h.ENDIANESS x.2)) ++
            [(rnNum ins, v)]) := by
        rw [loadPlan_writeRegs, ArmCore.writeRegs, ArmCore.writeRegs, List.foldl_append]
        rfl
      rw [happ, writeRegs_settled, hset, armWriteRegister_settled]
      · simp only [List.mem_append, List.mem_singleton, or_imp, forall_and, forall_eq,
          List.forall_mem_map]
      · simp only [List.mem_append, List.mem_singleton, or_imp, forall_and, forall_eq,
          List.forall_mem_map]
        exact ⟨hregs, h16⟩
      · rw [List.pairwise_append]
        refine ⟨?_, List.pairwise_singleton _ _, ?_⟩
        · rw [List.pairwise_map]
          exact plan_pairwise _ _ lowRegs (by decide) _
        · simp only [List.mem_singleton, forall_eq, List.forall_mem_map]
          exact hne
  | false =>
      simp only [Bool.false_eq_true, if_false]
      constructor
      · intro he
        have hreg := congrArg ArmCore.reg he
        have hmem := congrArg ArmCore.mem he
        refine ⟨(with_mem_eq_iff p _).mpr hmem, (with_reg_eq_iff p _).mpr hreg⟩
      · rintro ⟨hm, hreg⟩
        rw [hm, hreg]

theorem armLoadStoreMultiple_inert (hc : condNotRespect p ins = 0) :
    armLoadStoreMultiple h p ins = (0, p) ↔ BlockInert h p ins := by
  unfold BlockInert
  by_cases hr : blockRefused ins
  · rw [armLoadStoreMultiple_refused h p ins hc hr]
    simp [hr, UNDEFINED_INSTRUCTION]
  by_cases hi : BlockInside p ins
  · rw [armLoadStoreMultiple_inside h p ins hc hr hi]
    cases h15 : bit ins 15 with
    | true => simp [UNDEFINED_INSTRUCTION]
    | false =>
        cases hw : bit ins 21 with
        | true =>
            have hset := blockMoved_writeback h p ins hr hw (endAddress p ins)
            simp [hr, hi, hset]
        | false =>
            have hset := blockMoved_settled h p ins
            simp only [Bool.false_eq_true, if_false, Prod.mk.injEq, true_and, hset, hr, hi,
              not_false_eq_true, false_implies, and_true]
            rfl
  · have hcode := armLoadStoreMultiple_outside h p ins hc hr hi
    simp only [hi, false_and, and_false, iff_false]
    intro he
    rw [he] at hcode
    cases hcode

end Block

section Status

variable (h : Host) (p : ArmCore) (ins : Word)

def MsrInert : Prop :=
  msrOperand h p ins &&& UnallocMask = 0 ∧
    if bit ins 22 = false then
      if armInAPrivilegedMode p then
        msrOperand h p ins &&& StateMask = 0 ∧
          p.cpsr = msrMerge p.cpsr (msrByteMask ins &&& (UserMask ||| PrivMask)) (msrOperand h p ins)
      else p.cpsr = msrMerge p.cpsr (msrByteMask ins &&& UserMask) (msrOperand h p ins)
    else
      armCurrentModeHasSpsr p = true ∧
        p.holds 17 (msrMerge (armReadSpsr p)
          (msrByteMask ins &&& (UserMask ||| PrivMask ||| StateMask)) (msrOperand h p ins))

theorem armWriteCpsr_settled (v : Word) : armWriteCpsr p v = p ↔ p.cpsr = v := by
  rw [← holds_sixteen]
  exact armWriteRegister_settled p 16 v

theorem armWriteSpsr_settled (v : Word) : armWriteSpsr p v = p ↔ p.holds 17 v :=
  armWriteRegister_settled p 17 v

theorem fonctionMSR_inert : fonctionMSR h p ins = (0, p) ↔ MsrInert h p ins := by
  have h2 : ((DATA_ABORT, p) : Int × ArmCore) ≠ (0, p) := by
    intro he
    cases congrArg Prod.fst he
  unfold MsrInert
  by_cases hr : MsrRefused p ins (msrOperand h p ins)
  · rw [fonctionMSR_refused h p ins hr]
    refine iff_of_false h2 ?_
    rintro ⟨hu, hi⟩
    have hr := hr.resolve_left fun hn => hn hu
    cases hb : bit ins 22 with
    | true =>
        rw [hb, if_pos rfl] at hr
        rw [hb, if_neg (by decide), hr] at hi
        cases hi.1
    | false =>
        rw [hb, if_neg (by decide)] at hr
        rw [hb, if_pos rfl, if_pos hr.1] at hi
        exact hr.2 hi.1
  · rw [fonctionMSR_accepted h p ins hr, Prod.mk.injEq, and_iff_right rfl, msrWritten, msrMask,
      msrAllowed]
    obtain ⟨hu, hr⟩ := not_or.mp hr
    rw [and_iff_right (not_not.mp hu)]
    cases hb : bit ins 22 with
    | true =>
        rw [hb, if_pos rfl, Bool.not_eq_false] at hr
        simp [hr, armWriteSpsr_settled]
    | false =>
        rw [hb, if_neg (by decide)] at hr
        cases hp : armInAPrivilegedMode p with
        | true =>
            have hs : msrOperand h p ins &&& StateMask = 0#32 := not_not.mp fun hn => hr ⟨hp, hn⟩
            simp [hs, armWriteCpsr_settled]
        | false => simp [armWriteCpsr_settled]

end Status

end Armator
