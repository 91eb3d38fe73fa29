import Armator.Architecture.BlockTransfer
import Armator.Architecture.Decode

namespace Armator

open BitFields

namespace ArmCore

-- The register holds the value already. A number that the mode leaves without a slot holds any.
def holds (p : ArmCore) (reg : RegNum) (value : Word) : Prop :=
  ∀ i, bank (reg, p.mode) = some i → p.reg.registre i = value

def writeRegs (p : ArmCore) (kvs : List (RegNum × Word)) : ArmCore :=
  kvs.foldl (fun q kv => armWriteRegister q kv.1 kv.2) p

end ArmCore

theorem with_reg_eq_iff (p : ArmCore) (r : Registers) :
    ({ p with reg := r } : ArmCore) = p ↔ r = p.reg := by
  constructor
  · intro he
    rw [← he]
  · rintro rfl
    rfl

theorem with_mem_eq_iff (p : ArmCore) (m : Memory) :
    ({ p with mem := m } : ArmCore) = p ↔ m = p.mem := by
  constructor
  · intro he
    rw [← he]
  · rintro rfl
    rfl

theorem armWriteRegister_settled (p : ArmCore) (reg : RegNum) (value : Word) :
    armWriteRegister p reg value = p ↔ p.holds reg value := by
  rw [armWriteRegister_eq_self_iff, registersWrite_eq_self_iff]
  rfl

theorem holds_fifteen (p : ArmCore) (value : Word) : p.holds 15 value ↔ p.pc = value := by
  have hb : bank (15, p.mode) = some PC := (bank_eq_pc 15 p.mode).mpr rfl
  simp [ArmCore.holds, hb, ArmCore.pc]

theorem holds_sixteen (p : ArmCore) (value : Word) : p.holds 16 value ↔ p.cpsr = value := by
  have hb : bank (16, p.mode) = some CPSR := (bank_eq_cpsr 16 p.mode).mpr rfl
  simp [ArmCore.holds, hb, ArmCore.cpsr]

theorem writeRegs_eq (p : ArmCore) (kvs : List (RegNum × Word)) (h16 : ∀ kv ∈ kvs, kv.1 ≠ 16) :
    p.writeRegs kvs =
      { p with reg := ⟨Cells.writeAll bank p.reg.registre
          (kvs.map fun kv => ((kv.1, p.mode), kv.2))⟩ } := by
  induction kvs generalizing p with
  | nil => rfl
  | cons kv kvs ih =>
      have hm := armWriteRegister_mode p kv.1 kv.2 (h16 kv List.mem_cons_self)
      have hr : (armWriteRegister p kv.1 kv.2).reg =
          ⟨Cells.write bank p.reg.registre (kv.1, p.mode) kv.2⟩ :=
        registersWrite_bank p.reg kv.1 p.mode kv.2
      change (armWriteRegister p kv.1 kv.2).writeRegs kvs = _
      rw [ih _ (fun x hx => h16 x (List.mem_cons_of_mem _ hx)), hm, hr]
      rfl

theorem writeRegs_mode (p : ArmCore) (kvs : List (RegNum × Word))
    (h16 : ∀ kv ∈ kvs, kv.1 ≠ 16) : (p.writeRegs kvs).mode = p.mode := by
  induction kvs generalizing p with
  | nil => rfl
  | cons kv kvs ih =>
      have hm := ih (armWriteRegister p kv.1 kv.2) (fun x hx => h16 x (List.mem_cons_of_mem _ hx))
      exact hm.trans (armWriteRegister_mode p kv.1 kv.2 (h16 kv List.mem_cons_self))

theorem writeRegs_keeps (p : ArmCore) (rn : RegNum) (kvs : List (RegNum × Word))
    (h16 : ∀ kv ∈ kvs, kv.1 ≠ 16) (hk : ∀ kv ∈ kvs, kv.1 ≠ rn) :
    armReadRegister (p.writeRegs kvs) rn = armReadRegister p rn := by
  induction kvs generalizing p with
  | nil => rfl
  | cons kv kvs ih =>
      have hr := ih (armWriteRegister p kv.1 kv.2) (fun x hx => h16 x (List.mem_cons_of_mem _ hx))
        (fun x hx => hk x (List.mem_cons_of_mem _ hx))
      exact hr.trans (armReadRegister_write_other p kv.1 kv.2 rn (h16 kv List.mem_cons_self)
        (hk kv List.mem_cons_self))

theorem writeRegs_read (p : ArmCore) (kvs : List (RegNum × Word)) (hm : p.mode ∈ armModes)
    (hlow : ∀ kv ∈ kvs, kv.1.val < 15) (hd : kvs.Pairwise fun x y => x.1 ≠ y.1)
    (kv : RegNum × Word) (hkv : kv ∈ kvs) : armReadRegister (p.writeRegs kvs) kv.1 = kv.2 := by
  induction kvs generalizing p with
  | nil => cases hkv
  | cons x xs ih =>
      obtain ⟨hx, hxs⟩ := List.pairwise_cons.mp hd
      have hxlt := hlow x List.mem_cons_self
      obtain ⟨h16, h17⟩ := ne_of_val_lt (a := x.1) (by omega)
      have hmode := armWriteRegister_mode p x.1 x.2 h16
      change armReadRegister ((armWriteRegister p x.1 x.2).writeRegs xs) kv.1 = kv.2
      rcases List.mem_cons.mp hkv with rfl | hkv
      · have h15 : kv.1 ≠ 15 := by
          intro he
          rw [he] at hxlt
          exact absurd hxlt (by decide)
        have hxs16 : ∀ y ∈ xs, y.1 ≠ 16 := by
          intro y hy
          have hylt := hlow y (List.mem_cons_of_mem _ hy)
          exact (ne_of_val_lt (by omega)).1
        rw [writeRegs_keeps _ kv.1 xs hxs16 (fun y hy => Ne.symm (hx y hy))]
        exact armReadRegister_write_same p kv.1 kv.2 h16 h15 (bank_isSome kv.1 p.mode hm h17)
      · exact ih _ (by rw [hmode]; exact hm) (fun y hy => hlow y (List.mem_cons_of_mem _ hy)) hxs hkv

theorem writeRegs_settled (p : ArmCore) (kvs : List (RegNum × Word))
    (h16 : ∀ kv ∈ kvs, kv.1 ≠ 16) (hd : kvs.Pairwise fun x y => x.1 ≠ y.1) :
    p.writeRegs kvs = p ↔ ∀ kv ∈ kvs, p.holds kv.1 kv.2 := by
  have hs : Cells.Apart bank (kvs.map fun kv => ((kv.1, p.mode), kv.2)) := by
    unfold Cells.Apart
    rw [List.pairwise_map]
    exact hd.imp fun hne he => (bank_injective _ _ p.mode he).resolve_right hne
  rw [writeRegs_eq p kvs h16, with_reg_eq_iff, Registers.ext_iff, Cells.writeAll_eq_self_iff bank _ _ hs]
  simp only [List.forall_mem_map, Cells.write_eq_self_iff]
  rfl

theorem two_writes_settled (p : ArmCore) (a b : RegNum) (u v : Word) (ha : a ≠ 16)
    (hab : a ≠ b) :
    armWriteRegister (armWriteRegister p a u) b v = p ↔ p.holds a u ∧ p.holds b v := by
  have hm := armWriteRegister_mode p a u ha
  unfold ArmCore.mode at hm
  have he : armWriteRegister (armWriteRegister p a u) b v =
      { p with reg := registersWrite (registersWrite p.reg a p.mode u) b p.mode v } := by
    rw [armWriteRegister, hm]
    rfl
  rw [he, with_reg_eq_iff, registersWrite_write_eq_self_iff _ _ _ _ _ _ hab,
    registersWrite_eq_self_iff, registersWrite_eq_self_iff]
  rfl

theorem write_eq_write_iff (p : ArmCore) (a b : RegNum) (u v : Word) (hab : a ≠ b) :
    armWriteRegister p a u = armWriteRegister p b v ↔ p.holds a u ∧ p.holds b v := by
  rw [← armWriteRegister_settled, ← armWriteRegister_settled]
  constructor
  · intro he
    have hr : registersWrite p.reg a p.mode u = registersWrite p.reg b p.mode v :=
      congrArg ArmCore.reg he
    have ha : p.holds a u := by
      intro i hi
      have hb : bank (b, p.mode) ≠ some i := by
        intro hb
        have hn := (bank_injective a b p.mode (hi.trans hb.symm)).resolve_right hab
        rw [hi] at hn
        cases hn
      have hs := congrFun (congrArg Registers.registre hr) i
      rw [registersWrite_registre, registersWrite_registre, if_pos hi, if_neg hb] at hs
      exact hs.symm
    have hap := (armWriteRegister_settled p a u).mpr ha
    exact ⟨hap, he.symm.trans hap⟩
  · rintro ⟨ha, hb⟩
    rw [ha, hb]

theorem write_write_same (p : ArmCore) (a : RegNum) (u v : Word) (ha : a ≠ 16) :
    armWriteRegister (armWriteRegister p a u) a v = armWriteRegister p a v := by
  have hm := armWriteRegister_mode p a u ha
  unfold ArmCore.mode at hm
  rw [armWriteRegister, hm]
  simp only [armWriteRegister, armWriteRegisterInternal, registersWrite_write_same]

theorem loadPlan_writeRegs (be : Bool) (p : ArmCore) (xs : List (RegNum × Word)) :
    p.loadPlan be xs = p.writeRegs (xs.map fun x => (x.1, p.mem.word be x.2)) := by
  rw [ArmCore.loadPlan, ArmCore.writeRegs, List.foldl_map]

theorem loadPlan_settled (be : Bool) (p : ArmCore) (xs : List (RegNum × Word))
    (h16 : ∀ x ∈ xs, x.1 ≠ 16) (hd : xs.Pairwise fun x y => x.1 ≠ y.1) :
    p.loadPlan be xs = p ↔ ∀ x ∈ xs, p.holds x.1 (p.mem.word be x.2) := by
  rw [loadPlan_writeRegs, writeRegs_settled]
  · simp only [List.forall_mem_map]
  · simpa only [List.forall_mem_map] using h16
  · rw [List.pairwise_map]
    exact hd

theorem storePlan_settled (be : Bool) (p : ArmCore) (xs : List (RegNum × Word))
    (hs : Cells.Apart some (p.storeCells be xs)) :
    p.storePlan be xs = p ↔ ∀ x ∈ xs, p.mem.word be x.2 = armReadRegister p x.1 := by
  rw [ArmCore.storePlan, with_mem_eq_iff, Memory.writeCells, memory_data_eq_iff,
    Cells.writeAll_eq_self_iff some _ _ hs]
  simp only [Cells.write_eq_self_iff, Option.some.injEq, forall_eq', ArmCore.storeCells,
    List.mem_flatMap, forall_exists_index, and_imp, word_eq_iff, holds_iff_cells]
  exact ⟨fun hall x hx c hc => hall c x hx hc, fun hall c x hx hc => hall x hx c hc⟩

end Armator
