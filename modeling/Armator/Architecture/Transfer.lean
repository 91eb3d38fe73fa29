import Armator.Architecture.Alu
import Armator.Architecture.MemoryCells

namespace Armator

open BitFields

def isWordByte (ins : Word) : Prop := getBits ins 27 26 = 1

instance (ins : Word) : Decidable (isWordByte ins) := inferInstanceAs (Decidable (_ = _))

def transferRefused (ins : Word) : Prop :=
  (isWordByte ins ∧ bit ins 25 = true ∧ bit ins 4 = true) ∨
    (¬ isWordByte ins ∧
      (rnNum ins = 15 ∨ ¬ (getBits ins 27 25 = 0 ∧ bit ins 7 = true ∧ bit ins 4 = true)))

def accessRefused (ins : Word) : Prop := ¬ isWordByte ins ∧ getBits ins 6 5 ≠ 1

instance (ins : Word) : Decidable (transferRefused ins) :=
  inferInstanceAs (Decidable (_ ∨ _))

instance (ins : Word) : Decidable (accessRefused ins) := inferInstanceAs (Decidable (_ ∧ _))

def transferOffset (h : Host) (p : ArmCore) (ins : Word) : Word :=
  if isWordByte ins then offsetWordByte h p ins else offsetHalf p ins

def baseValue (p : ArmCore) (ins : Word) : Word := armReadRegister p (rnNum ins)

def indexedAddress (h : Host) (p : ArmCore) (ins : Word) : Word :=
  avancer (baseValue p ins) (transferOffset h p ins) (getBit ins 23)

def accessAddress (h : Host) (p : ArmCore) (ins : Word) : Word :=
  if bit ins 24 then indexedAddress h p ins else baseValue p ins

def preIndexed (h : Host) (p : ArmCore) (ins : Word) : ArmCore :=
  if bit ins 24 = true ∧ bit ins 21 = true then
    armWriteRegister p (rnNum ins) (indexedAddress h p ins)
  else p

-- The read is skipped when the base is R15.
def loaded (h : Host) (p : ArmCore) (ins : Word) : Int × Word :=
  if isWordByte ins then
    if bit ins 22 then
      if rnNum ins ≠ 15 then
        let r := memoryReadByte p.mem (accessAddress h p ins) h.value8
        (r.1, r.2.setWidth 32)
      else (h.result, h.value8.setWidth 32)
    else if rnNum ins ≠ 15 then memoryReadWord p.mem (accessAddress h p ins) h.value h.ENDIANESS
    else (h.result, baseValue p ins + 8)
  else
    let r := memoryReadHalf p.mem (accessAddress h p ins) h.value16 h.ENDIANESS
    (r.1, r.2.setWidth 32)

def stored (h : Host) (p : ArmCore) (ins value : Word) : Int × Memory :=
  if isWordByte ins then
    if bit ins 22 then
      memoryWriteByte p.mem (accessAddress h p ins)
        (if rnNum ins ≠ 15 then value.setWidth 8 else h.value8)
    else
      memoryWriteWord p.mem (accessAddress h p ins)
        (if rnNum ins ≠ 15 then value else baseValue p ins + 8) h.ENDIANESS
  else memoryWriteHalf p.mem (accessAddress h p ins) (value.setWidth 16) h.ENDIANESS

def accessed (h : Host) (p : ArmCore) (ins : Word) : Int × ArmCore :=
  let q := preIndexed h p ins
  if bit ins 20 then
    let r := loaded h p ins
    (r.1, armWriteRegister q (rdNum ins) r.2)
  else
    let r := stored h p ins (armReadRegister q (rdNum ins))
    (r.1, { q with mem := r.2 })

def transferred (h : Host) (p : ArmCore) (ins : Word) : Int × ArmCore :=
  if transferRefused ins then (UNDEFINED_INSTRUCTION, p)
  else if accessRefused ins then (UNDEFINED_INSTRUCTION, preIndexed h p ins)
  else if (accessed h p ins).1 = -1 then (DATA_ABORT, (accessed h p ins).2)
  else if bit ins 24 then (0, (accessed h p ins).2)
  else if bit ins 21 then (UNDEFINED_INSTRUCTION, (accessed h p ins).2)
  else (0, armWriteRegister (accessed h p ins).2 (rnNum ins) (indexedAddress h p ins))

section Transfer

variable (h : Host) (p : ArmCore) (ins : Word)

theorem preIndexed_mem : (preIndexed h p ins).mem = p.mem := by
  unfold preIndexed
  split <;> rfl

theorem preIndexer_eq :
    preIndexer p (rnNum ins) (baseValue p ins) (transferOffset h p ins) (getBit ins 23)
      (getBit ins 21) (getBit ins 24) = (accessAddress h p ins, preIndexed h p ins) := by
  simp only [preIndexer, preIndexed, accessAddress, indexedAddress, getBit_ne_zero]
  cases bit ins 24 <;> cases bit ins 21 <;> rfl

theorem terminer_eq (acces : Int × ArmCore) :
    terminer acces (rnNum ins) (accessAddress h p ins) (transferOffset h p ins) (getBit ins 23)
      (getBit ins 21) (getBit ins 24) =
      if acces.1 = -1 then (DATA_ABORT, acces.2)
      else if bit ins 24 then (0, acces.2)
      else if bit ins 21 then (UNDEFINED_INSTRUCTION, acces.2)
      else (0, armWriteRegister acces.2 (rnNum ins) (indexedAddress h p ins)) := by
  have h24 : getBit ins 24 = 0 ↔ bit ins 24 = false := getBit_eq_zero ins 24
  simp only [terminer, postIndexer, accessAddress, indexedAddress, getBit_ne_zero, h24]
  cases bit ins 24 <;> cases bit ins 21 <;> rfl

theorem accessed_wordByte (hw : isWordByte ins) :
    (if getBit ins 20 ≠ 0 then
        chargerWordByte h (preIndexed h p ins) (rnNum ins) (rdNum ins) (getBit ins 22)
          (accessAddress h p ins) (if rnNum ins = 15 then baseValue p ins + 8 else h.value)
      else
        rangerWordByte h (preIndexed h p ins) (rnNum ins) (rdNum ins) (getBit ins 22)
          (accessAddress h p ins) (if rnNum ins = 15 then baseValue p ins + 8 else h.value)) =
      accessed h p ins := by
  have hm := preIndexed_mem h p ins
  simp only [chargerWordByte, rangerWordByte, accessed, loaded, stored, getBit_ne_zero, if_pos hw,
    armReadByte, armReadWord, armWriteByte, armWriteWord, hm]
  by_cases hr : rnNum ins = 15
  · simp only [hr, ne_eq, not_true_eq_false, if_false, if_true]
    cases bit ins 20 <;> cases bit ins 22 <;> rfl
  · simp only [hr, ne_eq, not_false_eq_true, if_false, if_true]
    cases bit ins 20 <;> cases bit ins 22 <;> rfl

theorem armLoadStoreWordByte_eq (hw : isWordByte ins) :
    armLoadStoreWordByte h p ins (rnNum ins) (rdNum ins) (getBit ins 23) (getBit ins 24)
      (getBit ins 21) (getBit ins 20) (baseValue p ins)
      (if rnNum ins = 15 then baseValue p ins + 8 else h.value) = transferred h p ins := by
  have ho : offsetWordByte h p ins = transferOffset h p ins := (if_pos hw).symm
  have hacc := accessed_wordByte h p ins hw
  have hna : ¬ accessRefused ins := fun ha => ha.1 hw
  have href : transferRefused ins ↔ bit ins 25 = true ∧ bit ins 4 = true := by
    simp only [transferRefused, hw, true_and, not_true_eq_false, false_and, or_false]
  rw [armLoadStoreWordByte, transferred, if_neg hna, ho]
  simp only [getBit_ne_zero, href] at hacc ⊢
  split
  · rfl
  · rw [preIndexer_eq]
    dsimp only
    rw [hacc, terminer_eq]

theorem accessed_half (hw : ¬ isWordByte ins) :
    accessed h p ins =
      if bit ins 20 then
        chargerHalf h (preIndexed h p ins) (rdNum ins) (accessAddress h p ins)
      else rangerHalf h (preIndexed h p ins) (rdNum ins) (accessAddress h p ins) := by
  have hm := preIndexed_mem h p ins
  simp only [chargerHalf, rangerHalf, accessed, loaded, stored, if_neg hw, armReadHalf,
    armWriteHalf, hm]

theorem acces_mem_eq :
    (((getBit ins 20).setWidth 8 <<< 2) ||| (getBits ins 6 5).setWidth 8 : Byte).toNat =
      4 * (bit ins 20).toNat + (getBits ins 6 5).toNat := by
  have hlt : (getBits ins 6 5).toNat < 4 := by
    rw [getBits_toNat]
    exact Nat.mod_lt _ (by decide)
  rw [getBit_flag]
  generalize getBits ins 6 5 = sh at hlt ⊢
  have hs : sh = BitVec.ofNat 32 sh.toNat := BitVec.eq_of_toNat_eq (by simp)
  rw [hs]
  generalize sh.toNat = n at hlt
  cases bit ins 20 <;> interval_cases n <;> rfl

theorem armLoadStoreHalf_eq (hw : ¬ isWordByte ins) :
    armLoadStoreHalf h p ins (rnNum ins) (rdNum ins) (getBit ins 23) (getBit ins 24)
      (getBit ins 21) (getBit ins 20) (baseValue p ins) = transferred h p ins := by
  have ho : offsetHalf p ins = transferOffset h p ins := (if_neg hw).symm
  have hlt : (getBits ins 6 5).toNat < 4 := by
    rw [getBits_toNat]
    exact Nat.mod_lt _ (by decide)
  have hsh : getBits ins 6 5 = 1 ↔ (getBits ins 6 5).toNat = 1 := by
    rw [← BitVec.toNat_inj]
    rfl
  have href : transferRefused ins ↔
      rnNum ins = 15 ∨ ¬ (getBits ins 27 25 = 0 ∧ bit ins 7 = true ∧ bit ins 4 = true) := by
    simp only [transferRefused, hw, false_and, not_false_eq_true, true_and, false_or]
  have hbits : (getBits ins 27 25 = 0 ∧ getBit ins 7 = 1 ∧ getBit ins 4 = 1) ↔
      (getBits ins 27 25 = 0 ∧ bit ins 7 = true ∧ bit ins 4 = true) := by
    simp only [BitVec.ofNat_eq_ofNat, getBit_eq_one]
  rw [armLoadStoreHalf, transferred, ho]
  by_cases hr : rnNum ins = 15
  · rw [if_pos hr, if_pos (href.mpr (Or.inl hr))]
  · rw [if_neg hr]
    by_cases hb : getBits ins 27 25 = 0 ∧ bit ins 7 = true ∧ bit ins 4 = true
    · have hnr : ¬ transferRefused ins := fun hor => (href.mp hor).elim hr (fun hn => hn hb)
      rw [if_pos (hbits.mpr hb), if_neg hnr]
      dsimp only
      rw [preIndexer_eq]
      dsimp only
      have hacc : accessRefused ins ↔ (getBits ins 6 5).toNat ≠ 1 := by
        rw [accessRefused, ne_eq, hsh]
        exact and_iff_right hw
      simp only [acces_mem_eq, hacc, accessed_half h p ins hw]
      generalize (getBits ins 6 5).toNat = n at hlt
      cases bit ins 20 <;> interval_cases n <;> simp [terminer_eq]
    · rw [if_neg (fun hc => hb (hbits.mp hc)), if_pos (href.mpr (Or.inr hb))]

theorem armLoadStore_eq (hc : condNotRespect p ins = 0) :
    armLoadStore h p ins = transferred h p ins := by
  have hn : ¬ condNotRespect p ins ≠ 0 := fun hn => hn hc
  rw [armLoadStore, if_neg hn]
  by_cases hw : isWordByte ins
  · rw [← armLoadStoreWordByte_eq h p ins hw]
    exact if_pos hw
  · rw [← armLoadStoreHalf_eq h p ins hw]
    exact if_neg hw

end Transfer

end Armator
