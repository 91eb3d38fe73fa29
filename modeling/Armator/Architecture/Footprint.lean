import Armator.Architecture.Alu
import Armator.Architecture.Answers
import Armator.Architecture.DataWrites
import Armator.Architecture.Transfer

namespace Armator

open BitFields

def Owns (mode : Byte) (i : Slot) : Prop := ∃ reg, bank (reg, mode) = some i

instance (mode : Byte) (i : Slot) : Decidable (Owns mode i) :=
  inferInstanceAs (Decidable (∃ reg, bank (reg, mode) = some i))

def Within (mode : Byte) (p q : ArmCore) : Prop :=
  ∀ i, ¬ Owns mode i → q.reg.registre i = p.reg.registre i

section Within

variable {mode : Byte} {p q r : ArmCore}

theorem Within.refl (mode : Byte) (p : ArmCore) : Within mode p p := fun _ _ => rfl

theorem Within.trans (hpq : Within mode p q) (hqr : Within mode q r) : Within mode p r :=
  fun i hi => (hqr i hi).trans (hpq i hi)

theorem Within.write (p : ArmCore) (reg : RegNum) (value : Word) :
    Within p.mode p (armWriteRegister p reg value) := by
  intro i hi
  change (registersWrite p.reg reg p.mode value).registre i = _
  rw [registersWrite_registre, if_neg fun hb => hi ⟨reg, hb⟩]

theorem owns_pc (mode : Byte) : Owns mode PC := ⟨15, (bank_eq_pc 15 mode).mpr rfl⟩

theorem owns_cpsr (mode : Byte) : Owns mode CPSR := ⟨16, (bank_eq_cpsr 16 mode).mpr rfl⟩

theorem Within.pc (mode : Byte) (p : ArmCore) (value : Word) :
    Within mode p (armWriteRegister p 15 value) := by
  intro i hi
  change (p.reg.set PC value).registre i = _
  rw [Registers.set_registre]
  refine if_neg ?_
  rintro rfl
  exact hi (owns_pc mode)

theorem Within.cpsr (mode : Byte) (p : ArmCore) (value : Word) :
    Within mode p (armWriteCpsr p value) := by
  intro i hi
  change (p.reg.set CPSR value).registre i = _
  rw [Registers.set_registre]
  refine if_neg ?_
  rintro rfl
  exact hi (owns_cpsr mode)

theorem DataWrites.within (h : DataWrites p q) : Within p.mode p q := by
  induction h with
  | refl => exact .refl _ _
  | @reg q reg value _ hpq ih =>
      have hone := Within.write q reg value
      rw [hpq.mode] at hone
      exact ih.trans hone
  | mem m _ ih => exact ih

end Within

-- A step that does not store leaves the memory as it is. One that does stays below its size, but
-- for the three bytes that a word or a halfword at the end of the memory takes beyond it.
structure Kept (store : Prop) (m m' : Memory) : Prop where
  size : m'.size = m.size
  beyond : ∀ b : Word, m.size + 3 ≤ b.toNat → m'.data b = m.data b
  same : ¬ store → m' = m

section Kept

variable {store : Prop} {m m' m'' : Memory}

theorem Kept.refl (store : Prop) (m : Memory) : Kept store m m := ⟨rfl, fun _ _ => rfl, fun _ => rfl⟩

theorem Kept.trans (h : Kept store m m') (h' : Kept store m' m'') : Kept store m m'' where
  size := h'.size.trans h.size
  beyond b hb := (h'.beyond b (by rw [h.size]; exact hb)).trans (h.beyond b hb)
  same hs := (h'.same hs).trans (h.same hs)

theorem Kept.mono {store' : Prop} (h : Kept store m m') (hs : store → store') : Kept store' m m' :=
  ⟨h.size, h.beyond, fun hn => h.same fun hc => hn (hs hc)⟩

theorem kept_writeCells (m : Memory) (n : Nat) (hn : n ≤ 4) (be : Bool) {k : Nat}
    (address : Word) (value : BitVec k) (hin : ¬ m.horsPlage address) :
    Kept True m (m.writeCells (cells n be address value)) := by
  refine ⟨rfl, fun b hb => ?_, fun hc => absurd trivial hc⟩
  refine Cells.writeAll_frame some m.data _ b fun c hc he => ?_
  obtain ⟨i, hi, rfl⟩ := List.mem_map.mp hc
  have hlt := List.mem_range.mp hi
  have hb' : b = address + BitVec.ofNat 32 i := (Option.some.inj he).symm
  have hle : (address + BitVec.ofNat 32 i).toNat ≤ address.toNat + i := by
    rw [BitVec.toNat_add, BitVec.toNat_ofNat]
    exact Nat.le_trans (Nat.mod_le _ _) (Nat.add_le_add_left (Nat.mod_le _ _) _)
  rw [m.horsPlage_iff] at hin
  rw [hb'] at hb
  omega

theorem memoryWriteByte_kept (m : Memory) (address : Word) (value : Byte) :
    Kept True m (memoryWriteByte m address value).2 := by
  rw [memoryWriteByte]
  split
  · exact .refl _ m
  · rename_i hin
    refine ⟨rfl, fun b hb => ?_, fun hc => absurd trivial hc⟩
    rw [m.horsPlage_iff] at hin
    refine Function.update_of_ne ?_ _ _
    rintro rfl
    omega

theorem memoryWriteHalf_kept (m : Memory) (address : Word) (value : Half) (be : Bool) :
    Kept True m (memoryWriteHalf m address value be).2 := by
  by_cases hin : m.horsPlage address
  · rw [memoryWriteHalf, if_pos hin]
    exact .refl _ m
  · rw [memoryWriteHalf_cells m address value be hin]
    exact kept_writeCells m 2 (by decide) be address value hin

theorem memoryWriteWord_kept (m : Memory) (address value : Word) (be : Bool) :
    Kept True m (memoryWriteWord m address value be).2 := by
  by_cases hin : m.horsPlage address
  · rw [memoryWriteWord, if_pos hin]
    exact .refl _ m
  · rw [memoryWriteWord_cells m address value be hin]
    exact kept_writeCells m 4 (Nat.le_refl 4) be address value hin

end Kept

section LoadStore

variable (h : Host) (p : ArmCore)

theorem preIndexer_mem (rn : RegNum) (adresse offset u w p_bit : Word) :
    (preIndexer p rn adresse offset u w p_bit).2.mem = p.mem := by
  unfold preIndexer
  dsimp only
  split
  · dsimp only
    split <;> rfl
  · rfl

theorem terminer_mem (acces : Int × ArmCore) (rn : RegNum) (adresse offset u w p_bit : Word) :
    (terminer acces rn adresse offset u w p_bit).2.mem = acces.2.mem := by
  unfold terminer postIndexer
  repeat' split
  all_goals rfl

theorem chargerWordByte_mem (rn rd : RegNum) (b adresse value : Word) :
    (chargerWordByte h p rn rd b adresse value).2.mem = p.mem := by
  unfold chargerWordByte
  split <;> rfl

theorem rangerWordByte_kept (rn rd : RegNum) (b adresse value : Word) :
    Kept True p.mem (rangerWordByte h p rn rd b adresse value).2.mem := by
  unfold rangerWordByte
  dsimp only
  split
  · exact memoryWriteByte_kept _ _ _
  · exact memoryWriteWord_kept _ _ _ _

theorem armLoadStoreWordByte_kept (ins : Word) (rn rd : RegNum) (u p_bit w l adresse value : Word) :
    Kept (l = 0) p.mem (armLoadStoreWordByte h p ins rn rd u p_bit w l adresse value).2.mem := by
  unfold armLoadStoreWordByte
  dsimp only
  split
  · exact .refl _ _
  · rw [terminer_mem]
    have hpre := preIndexer_mem p rn adresse (offsetWordByte h p ins) u w p_bit
    generalize preIndexer p rn adresse (offsetWordByte h p ins) u w p_bit = a at hpre
    rw [← hpre]
    split
    · rw [chargerWordByte_mem]
      exact .refl _ _
    · rename_i hl
      exact (rangerWordByte_kept h a.2 rn rd _ _ _).mono fun _ => not_not.mp hl

theorem armLoadStoreHalf_kept (ins : Word) (rn rd : RegNum) (u p_bit w adresse : Word) :
    Kept (getBit ins 20 = 0) p.mem
      (armLoadStoreHalf h p ins rn rd u p_bit w (getBit ins 20) adresse).2.mem := by
  have hpre := preIndexer_mem p rn adresse (offsetHalf p ins) u w p_bit
  unfold armLoadStoreHalf
  split
  · exact .refl _ _
  · split
    · dsimp only
      generalize preIndexer p rn adresse (offsetHalf p ins) u w p_bit = a at hpre
      rw [← hpre, acces_mem_eq]
      split
      · rename_i hstore
        have h20 : bit ins 20 = false := by
          cases h20 : bit ins 20 with
          | false => rfl
          | true =>
              rw [h20] at hstore
              change 4 + _ = 1 at hstore
              omega
        rw [terminer_mem]
        exact (memoryWriteHalf_kept _ _ _ _).mono fun _ => (getBit_eq_zero ins 20).mpr h20
      · rw [terminer_mem]
        exact .refl _ _
      · exact .refl _ _
    · exact .refl _ _

theorem armLoadStore_kept (ins : Word) :
    Kept (getBit ins 20 = 0) p.mem (armLoadStore h p ins).2.mem := by
  unfold armLoadStore
  dsimp only
  split
  · exact .refl _ _
  · split
    · exact armLoadStoreWordByte_kept h p ins _ _ _ _ _ _ _ _
    · exact armLoadStoreHalf_kept h p ins _ _ _ _ _ _

theorem transfererMot_kept (l : Word) (reg_num : RegNum) (adresse value : Word) :
    Kept (l = 0) p.mem (transfererMot h p l reg_num adresse value).2.2.mem := by
  unfold transfererMot
  split
  · exact .refl _ _
  · rename_i hl
    exact (memoryWriteWord_kept _ _ _ _).mono fun _ => not_not.mp hl

theorem transferer_kept (l u : Word) (list_reg : Half) (regs : List RegNum) (value adresse : Word) :
    Kept (l = 0) p.mem (transferer h l u list_reg regs p value adresse).2.1.mem := by
  induction regs generalizing p value adresse with
  | nil => exact .refl _ _
  | cons r rs ih =>
      unfold transferer
      split
      · have hone := transfererMot_kept h p l r adresse value
        dsimp only
        split
        · exact hone
        · exact hone.trans (ih _ _ _)
      · exact ih p value adresse

theorem armLoadStoreMultiple_kept (ins : Word) :
    Kept (getBit ins 20 = 0) p.mem (armLoadStoreMultiple h p ins).2.mem := by
  unfold armLoadStoreMultiple
  dsimp only
  split
  · exact .refl _ _
  · generalize (if getBit ins 24 ≠ 0 then _ else armReadRegister p (regNum (getBits ins 19 16))) = a
    have ht := transferer_kept h p (getBit ins 20) (getBit ins 23) ((getBits ins 15 0).setWidth 16)
      ((List.range 15).map (Fin.ofNat 18)) h.value a
    repeat' split
    all_goals first | exact .refl _ _ | exact ht

end LoadStore

section Step

variable (h : Host) (p : ArmCore) (ins : Word)

theorem armBranch_within : Within p.mode p (armBranch p ins).2 := by
  unfold armBranch
  dsimp only
  have hlink : Within p.mode p (if (getBit ins 24).setWidth 8 ≠ 0 ∨ getBits ins 31 28 = 15 then
      armWriteRegister p 14 (armReadRegister p 15) else p) := by
    split
    · exact .write p 14 _
    · exact .refl _ p
  split
  · split
    · exact (hlink.trans (.cpsr _ _ _)).trans (.pc _ _ _)
    · exact hlink.trans (.pc _ _ _)
  · exact .refl _ p

theorem execute_within : Within p.mode p ((kindOf ins).execute h p ins).2 := by
  have halu : Within p.mode p (aluWrite h p ins) := by
    rw [aluWrite]
    split
    · exact .refl _ p
    · exact .write p _ _
  cases kindOf ins with
  | miscellaneous =>
      rw [Kind.execute]
      split
      · rcases fonctionMSR_cases h p ins with he | ⟨k, v, _, he⟩
        · rw [he]
          exact .refl _ p
        · rw [he]
          exact .write p k v
      · exact .refl _ p
  | dataProcessing =>
      rw [Kind.execute]
      rcases executeDataProcessing_cases h p ins with he | ⟨v, he⟩ | he
      · rw [he]
        exact halu
      · rw [he]
        exact halu.trans (.cpsr _ _ v)
      · rw [he]
        exact halu
  | transfer => exact (armLoadStore_writes h p ins).within
  | blockTransfer => exact (armLoadStoreMultiple_writes h p ins).within
  | branch => exact armBranch_within p ins
  | interrupt => exact .refl _ p
  | undefined => exact .refl _ p

def Storing (ins : Word) : Prop :=
  (kindOf ins = .transfer ∨ kindOf ins = .blockTransfer) ∧ bit ins 20 = false

theorem armBranch_mem : (armBranch p ins).2.mem = p.mem := by
  unfold armBranch
  dsimp only
  repeat' split
  all_goals rfl

theorem execute_kept :
    Kept (Storing ins) p.mem ((kindOf ins).execute h p ins).2.mem := by
  have hsame (q : ArmCore) (hq : q.mem = p.mem) : Kept (Storing ins) p.mem q.mem := by
    rw [hq]
    exact .refl _ _
  cases hk : kindOf ins with
  | miscellaneous =>
      rw [Kind.execute]
      split
      · rcases fonctionMSR_cases h p ins with he | ⟨k, v, _, he⟩
        · exact hsame _ (by rw [he])
        · exact hsame _ (by rw [he]; rfl)
      · exact hsame _ rfl
  | dataProcessing =>
      have halu : (aluWrite h p ins).mem = p.mem := by
        rw [aluWrite]
        split <;> rfl
      rw [Kind.execute]
      rcases executeDataProcessing_cases h p ins with he | ⟨v, he⟩ | he
      · exact hsame _ (by rw [he]; exact halu)
      · exact hsame _ (by rw [he]; exact halu)
      · exact hsame _ (by rw [he]; exact halu)
  | transfer =>
      exact (armLoadStore_kept h p ins).mono fun h20 => ⟨Or.inl hk, (getBit_eq_zero ins 20).mp h20⟩
  | blockTransfer =>
      exact (armLoadStoreMultiple_kept h p ins).mono fun h20 =>
        ⟨Or.inr hk, (getBit_eq_zero ins 20).mp h20⟩
  | branch => exact hsame _ (armBranch_mem p ins)
  | interrupt => exact hsame _ rfl
  | undefined => exact hsame _ rfl

theorem aiguiller_cases :
    (condNotRespect p ins = 0 ∧ aiguiller h p ins = (kindOf ins).execute h p ins) ∨
      (kindOf ins = .branch ∧ aiguiller h p ins = armBranch p ins) ∨
      (condNotRespect p ins ≠ 0 ∧ aiguiller h p ins = ((kindOf ins).refusal, p)) := by
  by_cases hc : condNotRespect p ins = 0
  · exact Or.inl ⟨hc, aiguiller_accepted h p ins hc⟩
  · by_cases hb : kindOf ins = .branch
    · exact Or.inr (Or.inl ⟨hb, aiguiller_branch h p ins hb⟩)
    · exact Or.inr (Or.inr ⟨hc, aiguiller_refused h p ins hc fun hk => absurd hk hb⟩)

theorem aiguiller_within : Within p.mode p (aiguiller h p ins).2 := by
  rcases aiguiller_cases h p ins with ⟨_, he⟩ | ⟨_, he⟩ | ⟨_, he⟩
  · rw [he]
    exact execute_within h p ins
  · rw [he]
    exact armBranch_within p ins
  · rw [he]
    exact .refl _ p

theorem aiguiller_kept :
    Kept (condNotRespect p ins = 0 ∧ Storing ins) p.mem (aiguiller h p ins).2.mem := by
  rcases aiguiller_cases h p ins with ⟨hc, he⟩ | ⟨_, he⟩ | ⟨_, he⟩
  · rw [he]
    exact (execute_kept h p ins).mono fun hs => ⟨hc, hs⟩
  · rw [he, armBranch_mem]
    exact .refl _ _
  · rw [he]
    exact .refl _ _

inductive Raised (q : ArmCore) : ArmCore → Prop
  | nothing : Raised q q
  | prints (value : Word) : Raised q (putchar q value)
  | resets : Raised q (armWriteRegister (armWriteCpsr q (0x1d3 ||| Exception_bit_9)) 15 0)

theorem armException_raised (q : ArmCore) (e : Byte) : Raised q (armException h q e).2 := by
  have hreset : Raised q (armExceptionReset q e).2 := by
    rw [armExceptionReset]
    split
    · exact .resets
    · exact .nothing
  rw [armException]
  split
  · dsimp only
    split
    · exact .nothing
    · split
      · exact .prints _
      · exact hreset
  · exact hreset

theorem armStep_raised : Raised (armExecuteInstruction h p).2 (armStep h p).2 := by
  by_cases hz : (armExecuteInstruction h p).1 = 0
  · rw [armStep_of_zero h p hz]
    exact .nothing
  · rw [armStep_of_ne_zero h p hz]
    exact armException_raised h _ _

theorem Raised.within {q q' : ArmCore} (hr : Raised q q') (mode : Byte) : Within mode q q' := by
  cases hr with
  | nothing => exact .refl _ q
  | prints value => exact .refl _ q
  | resets => exact (Within.cpsr _ _ _).trans (.pc _ _ _)

theorem Raised.mem {q q' : ArmCore} (hr : Raised q q') : q'.mem = q.mem := by
  cases hr <;> rfl

theorem armStep_within : Within p.mode p (armStep h p).2 := by
  have hfetch : Within p.mode p p.fetched := .pc _ p _
  have hexec := aiguiller_within h p.fetched (p.fetchedWord h)
  rw [fetched_mode] at hexec
  exact (hfetch.trans hexec).trans ((armStep_raised h p).within _)

theorem armStep_kept :
    Kept (condNotRespect p.fetched (p.fetchedWord h) = 0 ∧ Storing (p.fetchedWord h))
      p.mem (armStep h p).2.mem := by
  rw [(armStep_raised h p).mem]
  exact aiguiller_kept h p.fetched (p.fetchedWord h)

end Step

end Armator
