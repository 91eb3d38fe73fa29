import Armator.Architecture.ArchState
import Armator.Architecture.BlockHandler

namespace Armator

open BitFields

section Listed

def listedRegs (list : Half) : List RegNum := lowRegs.filter fun (r : RegNum) => bit list r

theorem listedRegs_length (list : Half) (hn : list ≠ 0) (hl : bit list 15 = false) :
    0 < (listedRegs list).length ∧ (listedRegs list).length ≤ 15 := by
  refine ⟨?_, List.length_filter_le _ lowRegs⟩
  apply Nat.pos_of_ne_zero
  intro hz
  apply hn
  have hnil := List.eq_nil_of_length_eq_zero hz
  rw [listedRegs, List.filter_eq_nil_iff] at hnil
  apply bit_ext
  intro i hi
  have hzero : bit (0 : Half) i = false := by simp [bit]
  rw [hzero]
  by_cases h15 : i = 15
  · rw [h15, hl]
  · have hmem : Fin.ofNat 18 i ∈ lowRegs :=
      List.mem_map.mpr ⟨i, List.mem_range.mpr (by omega), rfl⟩
    have hv : (Fin.ofNat 18 i).val = i := Nat.mod_eq_of_lt (by omega)
    have hb := hnil _ hmem
    rw [hv] at hb
    exact Bool.not_eq_true _ ▸ hb

theorem mem_listedRegs (list : Half) (r : RegNum) :
    r ∈ listedRegs list ↔ r.val < 15 ∧ bit list r = true := by
  have hall : ∀ x : RegNum, x ∈ lowRegs ↔ x.val < 15 := by decide
  rw [listedRegs, List.mem_filter, hall]

theorem blockPas_eq (ins : Word) : blockPas ins = if bit ins 23 then 4 else -4 := by
  rw [blockPas, pasOf]
  simp only [getBit_ne_zero]

theorem blockCount_eq (ins : Word) : blockCount ins = (listedRegs (listReg ins)).length :=
  List.countP_eq_length_filter

theorem listed_bytes (m : Nat) (hle : m ≤ 16) : (BitVec.ofNat 32 m * 4).toNat = 4 * m := by
  have hn : (BitVec.ofNat 32 m).toNat = m := Nat.mod_eq_of_lt (by omega)
  have h4 : (4 : Word).toNat = 4 := rfl
  rw [BitVec.toNat_mul, hn, h4]
  omega

end Listed

section Moved

variable (be : Bool) (p : ArmCore) (ins : Word)

theorem mem_blockPlan (x : RegNum × Word) :
    x ∈ blockPlan p ins ↔ ∃ k : Fin (listedRegs (listReg ins)).length,
      x = ((listedRegs (listReg ins)).get k,
        startAddress p ins + BitVec.ofNat 32 k * blockPas ins) := by
  rw [blockPlan, mem_plan]
  rfl

theorem loaded_regs (x : RegNum × Word)
    (hx : x ∈ (blockPlan p ins).map fun x => (x.1, p.mem.word be x.2)) : x.1.val < 15 := by
  obtain ⟨y, hy, rfl⟩ := List.mem_map.mp hx
  exact (blockPlan_reg p ins y hy).1

theorem loaded_ne (x : RegNum × Word)
    (hx : x ∈ (blockPlan p ins).map fun x => (x.1, p.mem.word be x.2)) : x.1 ≠ 16 := by
  have hlt := loaded_regs be p ins x hx
  exact (ne_of_val_lt (by omega)).1

theorem loadPlan_mode : (p.loadPlan be (blockPlan p ins)).mode = p.mode := by
  rw [loadPlan_writeRegs]
  exact writeRegs_mode p _ (loaded_ne be p ins)

theorem loadPlan_mem : (p.loadPlan be (blockPlan p ins)).mem = p.mem := by
  rw [loadPlan_writeRegs, writeRegs_eq p _ (loaded_ne be p ins)]

theorem loadPlan_read (hm : p.mode ∈ armModes) (x : RegNum × Word) (hx : x ∈ blockPlan p ins) :
    armReadRegister (p.loadPlan be (blockPlan p ins)) x.1 = p.mem.word be x.2 := by
  rw [loadPlan_writeRegs]
  refine writeRegs_read p _ hm (loaded_regs be p ins) ?_ (x.1, p.mem.word be x.2)
    (List.mem_map_of_mem hx)
  rw [List.pairwise_map]
  exact plan_pairwise _ _ lowRegs (by decide) _

theorem loadPlan_arch (hm : p.mode ∈ armModes) (a : ArchReg)
    (ha : ∀ x ∈ blockPlan p ins, archReg x.1 p.mode ≠ some a) :
    (p.loadPlan be (blockPlan p ins)).arch a = p.arch a := by
  rw [loadPlan_writeRegs, writeRegs_eq p _ (loaded_ne be p ins)]
  apply Cells.writeAll_frame bank
  simp only [List.forall_mem_map]
  exact fun x hx => mt (bank_eq_slot_iff x.1 p.mode hm a).mp (ha x hx)

theorem storePlan_word (x : RegNum × Word) (hx : x ∈ blockPlan p ins) :
    (p.storePlan be (blockPlan p ins)).mem.word be x.2 = armReadRegister p x.1 := by
  have hs : Cells.Apart some (p.storeCells be (blockPlan p ins)) :=
    storeCells_apart _ _ be p (pasOf_cases _) lowRegs (by decide) _
  rw [word_eq_iff, holds_iff_cells]
  intro c hc
  exact Cells.writeAll_at some p.mem.data _ hs c (List.mem_flatMap.mpr ⟨x, hx, hc⟩) c.1 rfl

theorem storePlan_data (b : Word)
    (hb : ∀ x ∈ blockPlan p ins, ∀ i < 4, b ≠ x.2 + BitVec.ofNat 32 i) :
    (p.storePlan be (blockPlan p ins)).mem.data b = p.mem.data b := by
  apply Cells.writeAll_frame some
  intro c hc he
  obtain ⟨x, hx, hcx⟩ := List.mem_flatMap.mp hc
  obtain ⟨i, hi, rfl⟩ := List.mem_map.mp hcx
  exact hb x hx i (List.mem_range.mp hi) (Option.some.inj he).symm

end Moved

end Armator
