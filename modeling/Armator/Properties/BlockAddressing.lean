import Armator.Architecture.MultipleTransfer
import Armator.Simulator.Create

namespace Armator

open BitFields

section Statement

variable (h : Host) (p : ArmCore) (ins : Word)

def updatedBase : Word :=
  if bit ins 23 then baseValue p ins + listedBytes ins else baseValue p ins - listedBytes ins

def Exchanged (q : ArmCore) (k : Fin (listed ins).length) : Prop :=
  if bit ins 20 then
    armReadRegister q ((listed ins).get k) = p.mem.word h.ENDIANESS (wordAddress p ins k)
  else q.mem.word h.ENDIANESS (wordAddress p ins k) = armReadRegister p ((listed ins).get k)

instance (q : ArmCore) (k : Fin (listed ins).length) : Decidable (Exchanged h p ins q k) :=
  inferInstanceAs (Decidable (ite _ _ _))

def TargetReg (a : ArchReg) : Prop :=
  (bit ins 20 = true ∧ ∃ r ∈ listed ins, archReg r p.mode = some a) ∨
    (bit ins 21 = true ∧ archReg (rnNum ins) p.mode = some a)

structure Transferred (r : Int × ArmCore) : Prop where
  code : r.1 = 0
  exchanged : ∀ k : Fin (listed ins).length, Exchanged h p ins r.2 k
  base : bit ins 21 = true → armReadRegister r.2 (rnNum ins) = updatedBase p ins
  registers : ∀ a : ArchReg, ¬ TargetReg p ins a → r.2.arch a = p.arch a
  size : r.2.mem.size = p.mem.size
  bytes : ∀ b : Word, ¬ TargetByte p ins b → r.2.mem.data b = p.mem.data b

def movedValue (k : Fin (listed ins).length) : Word :=
  if bit ins 20 then p.mem.word h.ENDIANESS (wordAddress p ins k)
  else armReadRegister p ((listed ins).get k)

-- The decrementing forms give the highest address to the lowest register.
def MultipleRight : Prop :=
  condField ins ≠ 5 ∧ ¬ (bit ins 24 = true ∧ bit ins 21 = true) ∧
    (bit ins 23 = false → ∀ k : Fin (listed ins).length,
      movedValue h p ins k.rev = movedValue h p ins k)

theorem placed_right_iff :
    (∀ k : Fin (listed ins).length, movedValue h p ins (placed ins k) = movedValue h p ins k) ↔
      (bit ins 23 = false → ∀ k : Fin (listed ins).length,
        movedValue h p ins k.rev = movedValue h p ins k) := by
  unfold placed
  cases bit ins 23 <;> simp

end Statement

section Addresses

variable {p : ArmCore} {ins : Word}

theorem updatedBase_eq :
    updatedBase p ins = baseValue p ins + BitVec.ofNat 32 (blockCount ins) * blockPas ins := by
  rw [updatedBase, blockCount_eq, blockPas_eq, listedBytes]
  cases bit ins 23 with
  | true => rfl
  | false => simp only [Bool.false_eq_true, if_false, BitVec.mul_neg, BitVec.sub_eq_add_neg]

theorem endAddress_eq_iff : endAddress p ins = updatedBase p ins ↔ bit ins 24 = false := by
  rw [endAddress, updatedBase_eq, startAddress, BitVec.add_left_inj]
  cases bit ins 24 with
  | false => simp
  | true =>
      rcases pasOf_cases (getBit ins 23) with hp | hp <;> simp [blockPas, hp]

end Addresses

namespace MultipleTransfer

variable {p : ArmCore} {ins : Word} (h : Host)

theorem moved_exchanged (ht : MultipleTransfer p ins) (k : Fin (listed ins).length) :
    Exchanged h p ins (blockMoved h p ins) k ↔
      movedValue h p ins (placed ins k) = movedValue h p ins k := by
  unfold Exchanged movedValue blockMoved
  cases bit ins 20 with
  | true =>
      have hx := (mem_blockPlan_placed (p := p) _).mpr ⟨placed ins k, rfl⟩
      have hr := loadPlan_read h.ENDIANESS p ins ht.mode _ hx
      rw [placed_placed] at hr
      simp only [if_true, hr]
  | false =>
      have hx := (mem_blockPlan_placed (p := p) _).mpr ⟨k, rfl⟩
      have hr := storePlan_word h.ENDIANESS p ins _ hx
      simp only [Bool.false_eq_true, if_false, hr]

theorem moved_arch (ht : MultipleTransfer p ins) (a : ArchReg) (ha : ¬ TargetReg p ins a) :
    (blockMoved h p ins).arch a = p.arch a := by
  unfold blockMoved
  cases hl : bit ins 20 with
  | true =>
      rw [if_pos rfl]
      apply loadPlan_arch _ p ins ht.mode
      intro x hx he
      obtain ⟨k, rfl⟩ := (mem_blockPlan_placed x).mp hx
      exact ha (Or.inl ⟨hl, _, List.get_mem _ _, he⟩)
  | false => rfl

theorem written_exchanged (ht : MultipleTransfer p ins) (k : Fin (listed ins).length) :
    Exchanged h p ins (blockWritten h p ins) k ↔
      movedValue h p ins (placed ins k) = movedValue h p ins k := by
  rw [← ht.moved_exchanged h k, blockWritten]
  cases hw : bit ins 21 with
  | false => rfl
  | true =>
      have hne : rnNum ins ≠ (listed ins).get k := by
        intro he
        have hb := ((mem_listedRegs _ _).mp (List.get_mem (listed ins) k)).2
        rw [← he, bit_listReg ins _ (rnNum_lt ins), ht.base_out hw] at hb
        cases hb
      have h16 := (ne_of_val_lt (rnNum_lt ins)).1
      rw [if_pos rfl, Exchanged, armReadRegister_write_other _ _ _ _ h16 hne]
      rfl

theorem written_base (ht : MultipleTransfer p ins) (hw : bit ins 21 = true) :
    armReadRegister (blockWritten h p ins) (rnNum ins) = endAddress p ins := by
  obtain ⟨h16, h17⟩ := ne_of_val_lt (rnNum_lt ins)
  rw [blockWritten, if_pos hw]
  apply armReadRegister_write_same _ _ _ h16 ht.base
  rw [moved_mode]
  exact bank_isSome _ _ ht.mode h17

theorem written_arch (ht : MultipleTransfer p ins) (a : ArchReg) (ha : ¬ TargetReg p ins a) :
    (blockWritten h p ins).arch a = p.arch a := by
  rw [blockWritten, ← ht.moved_arch h a ha]
  cases hw : bit ins 21 with
  | false => rfl
  | true =>
      have hm : (blockMoved h p ins).mode ∈ armModes := by
        rw [moved_mode]
        exact ht.mode
      rw [if_pos rfl, armWriteRegister_arch _ _ _ _ hm, moved_mode, if_neg]
      exact fun he => ha (Or.inr ⟨hw, he⟩)

theorem written_mem (p : ArmCore) (ins : Word) :
    (blockWritten h p ins).mem = (blockMoved h p ins).mem := by
  unfold blockWritten
  cases bit ins 21 <;> rfl

end MultipleTransfer

theorem multiple_transfer_addressing (h : Host) (p : ArmCore) (ins : Word)
    (ht : MultipleTransfer p ins) :
    Transferred h p ins (armLoadStoreMultiple h p ins) ↔ MultipleRight h p ins := by
  rw [MultipleRight, ← placed_right_iff]
  constructor
  · intro hr
    have h5 := ht.not_never h hr.code
    rw [ht.result h h5] at hr
    refine ⟨h5, ?_, fun k => (ht.written_exchanged h k).mp (hr.exchanged k)⟩
    rintro ⟨hp, hw⟩
    have hb := hr.base hw
    rw [ht.written_base h hw, endAddress_eq_iff, hp] at hb
    cases hb
  · rintro ⟨h5, hpw, hv⟩
    rw [ht.result h h5]
    have hdata (b : Word) (hb : ¬ TargetByte p ins b) := ht.moved_data h b hb
    rw [← MultipleTransfer.written_mem] at hdata
    exact {
      code := rfl
      exchanged := fun k => (ht.written_exchanged h k).mpr (hv k)
      base := fun hw => by
        have hp : bit ins 24 = false := by simpa [hw] using hpw
        rw [ht.written_base h hw, endAddress_eq_iff.mpr hp]
      registers := ht.written_arch h
      size := by rw [MultipleTransfer.written_mem, MultipleTransfer.moved_size]
      bytes := hdata }

-- LDMDA R1, {R2, R3} with 4 in R1. R2 is loaded from 4 and R3 from 0.
theorem decrement_after_crossed :
    MultipleTransfer (armWriteRegister (afterReset [1, 2]) 1 4) 0xE811000C ∧
      ¬ Transferred Host.blank (armWriteRegister (afterReset [1, 2]) 1 4) 0xE811000C
        (armLoadStoreMultiple Host.blank (armWriteRegister (afterReset [1, 2]) 1 4) 0xE811000C) := by
  refine ⟨⟨by decide, by decide, by decide, by decide, by decide, by decide, by decide, by decide,
    by decide, by decide⟩, fun hr => ?_⟩
  exact absurd (hr.exchanged ⟨0, by decide⟩) (by decide)

theorem increment_after_loads :
    Transferred Host.blank (armWriteRegister (afterReset [1, 2]) 1 0) 0xE8B1000C
      (armLoadStoreMultiple Host.blank (armWriteRegister (afterReset [1, 2]) 1 0) 0xE8B1000C) :=
  (multiple_transfer_addressing Host.blank (armWriteRegister (afterReset [1, 2]) 1 0) 0xE8B1000C
    ⟨by decide, by decide, by decide, by decide, by decide, by decide, by decide, by decide,
      by decide, by decide⟩).mpr ⟨by decide, by decide, fun hu => absurd hu (by decide)⟩

end Armator
