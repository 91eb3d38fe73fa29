import Armator.Architecture.Transfer
import Armator.Architecture.Widths

namespace Armator

open BitFields

def updatesBase (ins : Word) : Prop := bit ins 24 = false ∨ bit ins 21 = true

instance (ins : Word) : Decidable (updatesBase ins) := inferInstanceAs (Decidable (_ ∨ _))

def widthOf (ins : Word) : Width :=
  if isWordByte ins then (if bit ins 22 then .byte else .word) else .half

theorem widthOf_cases (ins : Word) :
    (isWordByte ins ∧ bit ins 22 = true ∧ widthOf ins = .byte) ∨
      (isWordByte ins ∧ bit ins 22 = false ∧ widthOf ins = .word) ∨
      (¬ isWordByte ins ∧ widthOf ins = .half) := by
  unfold widthOf
  by_cases hw : isWordByte ins
  · cases hb : bit ins 22 with
    | true => exact Or.inl ⟨hw, rfl, by rw [if_pos hw, if_pos rfl]⟩
    | false => exact Or.inr (Or.inl ⟨hw, rfl, by rw [if_pos hw, if_neg (by decide)]⟩)
  · exact Or.inr (Or.inr ⟨hw, if_neg hw⟩)

def movedBase (p : ArmCore) (ins off : Word) : Word :=
  if bit ins 23 then armReadRegister p (rnNum ins) + off
  else armReadRegister p (rnNum ins) - off

def effectiveAddress (p : ArmCore) (ins off : Word) : Word :=
  if bit ins 24 then movedBase p ins off else armReadRegister p (rnNum ins)

def transferEffect (h : Host) (p : ArmCore) (ins off : Word) (w : Width) : ArmCore :=
  let ea := effectiveAddress p ins off
  let q :=
    if bit ins 20 then
      armWriteRegister p.fetched (rdNum ins) ((p.mem.valueAt ea h.ENDIANESS w).setWidth 32)
    else
      { p.fetched with
        mem := (memoryWrite p.mem ea h.ENDIANESS w
          ((armReadRegister p (rdNum ins)).setWidth (8 * w.bytes))).2 }
  if updatesBase ins then armWriteRegister q (rnNum ins) (movedBase p ins off) else q

structure SingleTransfer (h : Host) (p : ArmCore) (ins off : Word) : Prop where
  mode : p.mode ∈ armModes
  base : rnNum ins ≠ 15
  dest : rdNum ins ≠ 15
  form : ¬ (bit ins 24 = false ∧ bit ins 21 = true)
  distinct : updatesBase ins → rdNum ins ≠ rnNum ins
  inside : (effectiveAddress p ins off).toNat + (widthOf ins).bytes ≤ p.mem.size
  offset : transferOffset h p.fetched ins = off
  accepted : ¬ transferRefused ins ∧ ¬ accessRefused ins

namespace SingleTransfer

variable {h : Host} {p : ArmCore} {ins off : Word}

theorem indexed_eq (ht : SingleTransfer h p ins off) :
    indexedAddress h p.fetched ins = movedBase p ins off := by
  rw [indexedAddress, baseValue, fetched_armReadRegister _ _ ht.base, ht.offset, movedBase, avancer]
  simp only [getBit_ne_zero]
  cases bit ins 23 with
  | true => rfl
  | false => exact (BitVec.sub_eq_add_neg _ _).symm

theorem address_eq (ht : SingleTransfer h p ins off) :
    accessAddress h p.fetched ins = effectiveAddress p ins off := by
  rw [accessAddress, ht.indexed_eq, effectiveAddress, baseValue, fetched_armReadRegister _ _ ht.base]

theorem inRange (ht : SingleTransfer h p ins off) :
    ¬ p.mem.horsPlage (effectiveAddress p ins off) := by
  have hin := ht.inside
  have hp := (widthOf ins).bytes_pos
  rw [Memory.horsPlage_iff]
  omega

theorem loaded_eq (ht : SingleTransfer h p ins off) :
    loaded h p.fetched ins =
      (0, (p.mem.valueAt (effectiveAddress p ins off) h.ENDIANESS (widthOf ins)).setWidth 32) := by
  have hread (w : Width) (old : w.Value) :=
    memoryRead_inside p.mem (effectiveAddress p ins off) h.ENDIANESS w old ht.inRange
  rw [loaded, ht.address_eq, fetched_mem, if_pos ht.base, if_pos ht.base]
  rcases widthOf_cases ins with ⟨hw, hb, hwidth⟩ | ⟨hw, hb, hwidth⟩ | ⟨hw, hwidth⟩
  · rw [if_pos hw, hb, hwidth]
    exact congrArg (fun r : Int × Byte => (r.1, r.2.setWidth 32)) (hread .byte h.value8)
  · rw [if_pos hw, hb, hwidth]
    exact (hread .word h.value).trans (congrArg (Prod.mk 0) (BitVec.setWidth_eq _).symm)
  · rw [if_neg hw, hwidth]
    exact congrArg (fun r : Int × Half => (r.1, r.2.setWidth 32)) (hread .half h.value16)

theorem stored_eq (ht : SingleTransfer h p ins off) (value : Word) :
    stored h p.fetched ins value =
      memoryWrite p.mem (effectiveAddress p ins off) h.ENDIANESS (widthOf ins)
        (value.setWidth (8 * (widthOf ins).bytes)) := by
  rw [stored, ht.address_eq, fetched_mem, if_pos ht.base, if_pos ht.base]
  rcases widthOf_cases ins with ⟨hw, hb, hwidth⟩ | ⟨hw, hb, hwidth⟩ | ⟨hw, hwidth⟩
  · rw [if_pos hw, hb, hwidth]
    rfl
  · have hv : value.setWidth (8 * Width.word.bytes) = value := BitVec.setWidth_eq value
    rw [if_pos hw, hb, hwidth, hv]
    rfl
  · rw [if_neg hw, hwidth]
    rfl

theorem preIndexed_eq (ht : SingleTransfer h p ins off) :
    preIndexed h p.fetched ins =
      if bit ins 24 = true ∧ bit ins 21 = true then
        armWriteRegister p.fetched (rnNum ins) (movedBase p ins off)
      else p.fetched := by
  rw [preIndexed, ht.indexed_eq]

theorem stored_code (ht : SingleTransfer h p ins off) (value : Word) :
    (stored h p.fetched ins value).1 = 0 := by
  rw [ht.stored_eq, memoryWrite_inside _ _ _ _ _ ht.inRange]

theorem accessed_code (ht : SingleTransfer h p ins off) : (accessed h p.fetched ins).1 = 0 := by
  rw [accessed]
  split
  · rw [ht.loaded_eq]
  · exact ht.stored_code _

theorem transferred_eq (ht : SingleTransfer h p ins off) :
    transferred h p.fetched ins = (0, transferEffect h p ins off (widthOf ins)) := by
  have hrn := ne_of_val_lt (rnNum_lt ins)
  have hrd := ne_of_val_lt (rdNum_lt ins)
  have hcode : ¬ (accessed h p.fetched ins).1 = -1 := by
    rw [ht.accessed_code]
    decide
  have hread : armReadRegister p.fetched (rdNum ins) = armReadRegister p (rdNum ins) :=
    fetched_armReadRegister _ _ ht.dest
  rw [transferred, if_neg ht.accepted.1, if_neg ht.accepted.2, if_neg hcode, ht.indexed_eq, accessed,
    ht.preIndexed_eq, ht.loaded_eq, ht.stored_eq, transferEffect]
  cases hp : bit ins 24 with
  | true =>
      cases hw : bit ins 21 with
      | true =>
          have hu : updatesBase ins := Or.inr hw
          have hne := ht.distinct hu
          have hother := armReadRegister_write_other p.fetched (rnNum ins) (movedBase p ins off)
            (rdNum ins) hrn.1 (Ne.symm hne)
          simp only [and_self, if_true, if_pos hu, hother, hread]
          cases bit ins 20 with
          | true =>
              exact congrArg (Prod.mk 0)
                (armWriteRegister_comm p.fetched _ _ _ _ hrn.1 hrd.1 (Ne.symm hne))
          | false => rfl
      | false =>
          have hu : ¬ updatesBase ins := by simp [updatesBase, hp, hw]
          simp only [Bool.false_eq_true, and_false, if_true, if_false, if_neg hu, hread]
          cases bit ins 20 <;> rfl
  | false =>
      have hw : bit ins 21 = false := by
        cases hw : bit ins 21 with
        | false => rfl
        | true => exact absurd ⟨hp, hw⟩ ht.form
      have hu : updatesBase ins := Or.inl hp
      simp only [hw, Bool.false_eq_true, and_self, if_false, if_pos hu, hread]
      cases bit ins 20 <;> rfl

theorem step_eq (ht : SingleTransfer h p ins off) (hw : p.fetchedWord h = ins)
    (hk : kindOf ins = .transfer) (hc : condNotRespect p.fetched ins = 0) :
    armStep h p = (0, transferEffect h p ins off (widthOf ins)) := by
  have he : armExecuteInstruction h p = (0, transferEffect h p ins off (widthOf ins)) := by
    rw [← ht.transferred_eq, ← armLoadStore_eq h p.fetched ins hc, armExecuteInstruction_accepted,
      hw, hk]
    · rfl
    · rw [hw]
      exact hc
  rw [armStep_of_zero h p (by rw [he]), he]

end SingleTransfer

end Armator
