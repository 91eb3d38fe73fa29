import Armator.Architecture.Settled
import Armator.Architecture.Transfer

namespace Armator

open BitFields

def listReg (ins : Word) : Half := (getBits ins 15 0).setWidth 16

def lowRegs : List RegNum := (List.range 15).map (Fin.ofNat 18)

def blockPas (ins : Word) : Word := pasOf (getBit ins 23)

def startAddress (p : ArmCore) (ins : Word) : Word :=
  if bit ins 24 then baseValue p ins + blockPas ins else baseValue p ins

def blockCount (ins : Word) : Nat := lowRegs.countP fun (r : RegNum) => bit (listReg ins) r

def endAddress (p : ArmCore) (ins : Word) : Word :=
  startAddress p ins + BitVec.ofNat 32 (blockCount ins) * blockPas ins

def blockPlan (p : ArmCore) (ins : Word) : List (RegNum × Word) :=
  plan (listReg ins) (blockPas ins) lowRegs (startAddress p ins)

def blockRefused (ins : Word) : Prop :=
  listReg ins = 0 ∨ (bit ins (rnNum ins) = true ∧ bit ins 21 = true) ∨ bit ins 22 = true

instance (ins : Word) : Decidable (blockRefused ins) := inferInstanceAs (Decidable (_ ∨ _))

def BlockInside (p : ArmCore) (ins : Word) : Prop := PlanInside p.mem (blockPlan p ins)

instance (p : ArmCore) (ins : Word) : Decidable (BlockInside p ins) :=
  inferInstanceAs (Decidable (PlanInside _ _))

def blockMoved (h : Host) (p : ArmCore) (ins : Word) : ArmCore :=
  if bit ins 20 then p.loadPlan h.ENDIANESS (blockPlan p ins)
  else p.storePlan h.ENDIANESS (blockPlan p ins)

theorem bit_listReg (ins : Word) (i : Nat) (hi : i < 16) : bit (listReg ins) i = bit ins i := by
  rw [listReg, bit_setWidth _ _ _ hi, bit_getBits]
  simp [hi]

section Handler

variable (h : Host) (p : ArmCore) (ins : Word)

theorem startAddress_eq :
    (if getBit ins 24 ≠ 0 then
        armReadRegister p (rnNum ins) + (if getBit ins 23 ≠ 0 then 4 else -4)
      else armReadRegister p (rnNum ins)) = startAddress p ins := by
  rw [startAddress, blockPas, pasOf, baseValue]
  simp only [getBit_ne_zero]

theorem armLoadStoreMultiple_refused (hc : condNotRespect p ins = 0) (hr : blockRefused ins) :
    armLoadStoreMultiple h p ins = (UNDEFINED_INSTRUCTION, p) := by
  have hn : ¬ condNotRespect p ins ≠ 0 := fun hn => hn hc
  rw [armLoadStoreMultiple, if_neg hn]
  dsimp only
  split
  · rfl
  · rename_i hl
    split
    · rename_i hs
      exfalso
      rcases hr with hr | hr | hr
      · exact hl (Or.inl hr)
      · exact hl (Or.inr ⟨(getBit_ne_zero ins _).mpr hr.1, (getBit_ne_zero ins 21).mpr hr.2⟩)
      · rw [(getBit_eq_zero ins 22).mp hs] at hr
        cases hr
    · rfl

def blockTransfer : Int × ArmCore × Word :=
  transferer h (getBit ins 20) (getBit ins 23) (listReg ins) lowRegs p h.value (startAddress p ins)

theorem armLoadStoreMultiple_transfer (hc : condNotRespect p ins = 0) (hr : ¬ blockRefused ins) :
    armLoadStoreMultiple h p ins =
      if (blockTransfer h p ins).1 ≠ 0 then ((blockTransfer h p ins).1, (blockTransfer h p ins).2.1)
      else if bit ins 15 then (UNDEFINED_INSTRUCTION, (blockTransfer h p ins).2.1)
      else if bit ins 21 then
        (0, armWriteRegister (blockTransfer h p ins).2.1 (rnNum ins) (blockTransfer h p ins).2.2)
      else (0, (blockTransfer h p ins).2.1) := by
  have hn : ¬ condNotRespect p ins ≠ 0 := fun hn => hn hc
  have hl : ¬ (listReg ins = 0 ∨ (getBit ins (rnNum ins) ≠ 0 ∧ getBit ins 21 ≠ 0)) := by
    rintro (hl | hl)
    · exact hr (Or.inl hl)
    · exact hr (Or.inr (Or.inl
        ⟨(getBit_ne_zero ins _).mp hl.1, (getBit_ne_zero ins 21).mp hl.2⟩))
  have hs : getBit ins 22 = 0 := by
    apply (getBit_eq_zero ins 22).mpr
    cases h22 : bit ins 22 with
    | false => rfl
    | true => exact absurd (Or.inr (Or.inr h22)) hr
  have h15 : getBit (listReg ins) 15 ≠ 0 ↔ bit ins 15 = true := by
    rw [ne_eq, BitVec.ofNat_eq_ofNat, getBit_eq_zero, Bool.not_eq_false,
      bit_listReg ins 15 (by decide)]
  have hstart := startAddress_eq p ins
  rw [armLoadStoreMultiple, if_neg hn]
  dsimp only
  unfold rnNum at hl hstart
  unfold listReg at hl h15
  rw [if_neg hl, if_pos hs, hstart]
  simp only [h15, getBit_ne_zero]
  rfl

theorem blockTransfer_code :
    (blockTransfer h p ins).1 = if BlockInside p ins then 0 else DATA_ABORT :=
  transferer_code h _ _ _ _ _ _ _

theorem armLoadStoreMultiple_outside (hc : condNotRespect p ins = 0) (hr : ¬ blockRefused ins)
    (ho : ¬ BlockInside p ins) : (armLoadStoreMultiple h p ins).1 = DATA_ABORT := by
  have hcode := blockTransfer_code h p ins
  rw [if_neg ho] at hcode
  rw [armLoadStoreMultiple_transfer h p ins hc hr, hcode, if_pos (by decide)]

theorem blockTransfer_run (hi : BlockInside p ins) :
    (blockTransfer h p ins).2 =
      (movedPlan h (getBit ins 20) p (blockPlan p ins), endAddress p ins) := by
  have hcode := blockTransfer_code h p ins
  rw [if_pos hi] at hcode
  exact transferer_run h _ _ _ _ _ _ _ hcode

theorem blockTransfer_state (hi : BlockInside p ins) :
    (blockTransfer h p ins).2.1 = blockMoved h p ins := by
  rw [blockTransfer_run h p ins hi, blockMoved]
  cases hl : bit ins 20 with
  | true => exact movedPlan_load h _ ((getBit_ne_zero ins 20).mpr hl) p _
  | false => exact movedPlan_store h _ ((getBit_eq_zero ins 20).mpr hl) p _

theorem blockTransfer_address (hi : BlockInside p ins) :
    (blockTransfer h p ins).2.2 = endAddress p ins := by
  rw [blockTransfer_run h p ins hi]

theorem armLoadStoreMultiple_inside (hc : condNotRespect p ins = 0) (hr : ¬ blockRefused ins)
    (hi : BlockInside p ins) :
    armLoadStoreMultiple h p ins =
      if bit ins 15 then (UNDEFINED_INSTRUCTION, blockMoved h p ins)
      else if bit ins 21 then
        (0, armWriteRegister (blockMoved h p ins) (rnNum ins) (endAddress p ins))
      else (0, blockMoved h p ins) := by
  have hcode := blockTransfer_code h p ins
  rw [if_pos hi] at hcode
  rw [armLoadStoreMultiple_transfer h p ins hc hr, if_neg (fun hn => hn hcode),
    blockTransfer_state h p ins hi, blockTransfer_address h p ins hi]

theorem blockPlan_reg (x : RegNum × Word) (hx : x ∈ blockPlan p ins) :
    x.1.val < 15 ∧ bit ins x.1 = true := by
  obtain ⟨hmem, hb⟩ := plan_mem _ _ _ _ x hx
  have hlt : x.1.val < 15 := by
    have hall : ∀ r ∈ lowRegs, r.val < 15 := by decide
    exact hall x.1 hmem
  rw [bit_listReg ins x.1.val (by omega)] at hb
  exact ⟨hlt, hb⟩

theorem pasOf_cases (u : Word) : pasOf u = 4 ∨ pasOf u = -4 := by
  unfold pasOf
  split
  · exact Or.inl rfl
  · exact Or.inr rfl

theorem blockMoved_settled :
    blockMoved h p ins = p ↔ ∀ x ∈ blockPlan p ins,
      if bit ins 20 then p.holds x.1 (p.mem.word h.ENDIANESS x.2)
      else p.mem.word h.ENDIANESS x.2 = armReadRegister p x.1 := by
  unfold blockMoved
  cases bit ins 20 with
  | true =>
      simp only [if_true]
      apply loadPlan_settled
      · intro x hx
        have hlt := (blockPlan_reg p ins x hx).1
        exact (ne_of_val_lt (by omega)).1
      · exact plan_pairwise _ _ lowRegs (by decide) _
  | false =>
      simp only [Bool.false_eq_true, if_false]
      apply storePlan_settled
      exact storeCells_apart _ _ _ _ (pasOf_cases _) lowRegs (by decide) _

end Handler

end Armator
