import Armator.Architecture.DataWrites
import Armator.Architecture.MemoryCells

namespace Armator

open BitFields

def plan (list_reg : Half) (pas : Word) : List RegNum → Word → List (RegNum × Word)
  | [], _ => []
  | r :: rs, a =>
      if bit list_reg r then (r, a) :: plan list_reg pas rs (a + pas)
      else plan list_reg pas rs a

def PlanInside (mem : Memory) (xs : List (RegNum × Word)) : Prop :=
  ∀ x ∈ xs, ¬ mem.horsPlage x.2

instance (mem : Memory) (xs : List (RegNum × Word)) : Decidable (PlanInside mem xs) :=
  List.decidableBAll (fun x : RegNum × Word => ¬ mem.horsPlage x.2) xs

def pasOf (u : Word) : Word := if u ≠ 0 then 4 else -4

namespace ArmCore

def loadPlan (be : Bool) (p : ArmCore) (xs : List (RegNum × Word)) : ArmCore :=
  xs.foldl (fun q x => armWriteRegister q x.1 (p.mem.word be x.2)) p

def storeCells (be : Bool) (p : ArmCore) (xs : List (RegNum × Word)) : List (Word × Byte) :=
  xs.flatMap fun x => cells 4 be x.2 (armReadRegister p x.1)

def storePlan (be : Bool) (p : ArmCore) (xs : List (RegNum × Word)) : ArmCore :=
  { p with mem := p.mem.writeCells (p.storeCells be xs) }

end ArmCore

section Plan

variable (list_reg : Half) (pas : Word)

theorem plan_mapIdx (regs : List RegNum) (a : Word) :
    plan list_reg pas regs a =
      (regs.filter fun (r : RegNum) => bit list_reg r).mapIdx
        fun i r => (r, a + BitVec.ofNat 32 i * pas) := by
  induction regs generalizing a with
  | nil => rfl
  | cons r rs ih =>
      rw [plan, List.filter_cons]
      cases bit list_reg r with
      | false => exact ih a
      | true =>
          rw [if_pos rfl, if_pos rfl, List.mapIdx_cons, ih]
          have hstep (i : Nat) : a + pas + BitVec.ofNat 32 i * pas =
              a + BitVec.ofNat 32 (i + 1) * pas := by
            rw [BitVec.ofNat_add, BitVec.add_mul, BitVec.one_mul, BitVec.add_assoc,
              BitVec.add_comm pas]
          simp [hstep]

theorem mem_plan (regs : List RegNum) (a : Word) (x : RegNum × Word) :
    x ∈ plan list_reg pas regs a ↔
      ∃ k : Fin (regs.filter fun (r : RegNum) => bit list_reg r).length,
        x = ((regs.filter fun (r : RegNum) => bit list_reg r).get k,
          a + BitVec.ofNat 32 k * pas) := by
  rw [plan_mapIdx, List.mem_mapIdx]
  constructor
  · rintro ⟨k, hk, rfl⟩
    exact ⟨⟨k, hk⟩, rfl⟩
  · rintro ⟨k, rfl⟩
    exact ⟨k, k.isLt, rfl⟩

theorem plan_mem (regs : List RegNum) (a : Word) (x : RegNum × Word)
    (hx : x ∈ plan list_reg pas regs a) : x.1 ∈ regs ∧ bit list_reg x.1 = true := by
  obtain ⟨k, rfl⟩ := (mem_plan list_reg pas regs a x).mp hx
  exact List.mem_filter.mp (List.get_mem _ k)

theorem plan_address (regs : List RegNum) (a : Word) (x : RegNum × Word)
    (hx : x ∈ plan list_reg pas regs a) :
    ∃ i < regs.length, x.2 = a + BitVec.ofNat 32 i * pas := by
  obtain ⟨k, rfl⟩ := (mem_plan list_reg pas regs a x).mp hx
  exact ⟨k, Nat.lt_of_lt_of_le k.isLt (List.length_filter_le _ regs), rfl⟩

theorem plan_pairwise (regs : List RegNum) (hn : regs.Nodup) (a : Word) :
    (plan list_reg pas regs a).Pairwise fun x y => x.1 ≠ y.1 := by
  have hd := List.pairwise_iff_getElem.mp (hn.filter fun (r : RegNum) => bit list_reg r)
  rw [plan_mapIdx, List.pairwise_iff_getElem]
  intro i j hi hj hij
  rw [List.length_mapIdx] at hi hj
  simp only [List.getElem_mapIdx]
  exact hd i j hi hj hij

theorem cells_disjoint (be : Bool) (a b u v : Word) (j : Nat) (hj : 0 < j) (hj' : j < 2 ^ 20)
    (hp : pas = 4 ∨ pas = -4) (hb : b = a + BitVec.ofNat 32 j * pas) :
    ∀ c ∈ cells 4 be a u, ∀ d ∈ cells 4 be b v, c.1 ≠ d.1 := by
  intro c hc d hd he
  simp only [cells, List.mem_map, List.mem_range] at hc hd
  obtain ⟨i, hi, rfl⟩ := hc
  obtain ⟨k, hk, rfl⟩ := hd
  dsimp only at he
  rw [hb, BitVec.add_assoc] at he
  have hik := (BitVec.add_right_inj a).mp he
  have ht : (BitVec.ofNat 32 j * 4).toNat = 4 * j := by
    have h4 : (4 : Word).toNat = 4 := rfl
    rw [BitVec.toNat_mul, BitVec.toNat_ofNat, h4]
    omega
  have hi' : (BitVec.ofNat 32 i).toNat = i := Nat.mod_eq_of_lt (by omega)
  have hk' : (BitVec.ofNat 32 k).toNat = k := Nat.mod_eq_of_lt (by omega)
  rcases hp with rfl | rfl
  · generalize BitVec.ofNat 32 j * 4 = t at ht hik
    have hn := congrArg BitVec.toNat hik
    rw [BitVec.toNat_add, hi', hk', ht] at hn
    omega
  · rw [BitVec.mul_neg] at hik
    generalize BitVec.ofNat 32 j * 4 = t at ht hik
    have hn := congrArg BitVec.toNat hik
    rw [BitVec.toNat_add, BitVec.toNat_neg, hi', hk', ht] at hn
    omega

theorem storeCells_apart (be : Bool) (p : ArmCore) (hp : pas = 4 ∨ pas = -4)
    (regs : List RegNum) (hl : regs.length ≤ 2 ^ 20) (a : Word) :
    Cells.Apart some (p.storeCells be (plan list_reg pas regs a)) := by
  induction regs generalizing a with
  | nil => exact List.Pairwise.nil
  | cons r rs ih =>
      have hrs : rs.length < 2 ^ 20 := hl
      rw [plan]
      split
      · unfold Cells.Apart ArmCore.storeCells
        rw [List.flatMap_cons, List.pairwise_append]
        refine ⟨cells_apart 4 be a _ (by decide), ih (by omega) _, ?_⟩
        intro c hc d hd he
        obtain ⟨x, hx, hdx⟩ := List.mem_flatMap.mp hd
        obtain ⟨i, hi, hxa⟩ := plan_address list_reg pas rs _ x hx
        have hb : x.2 = a + BitVec.ofNat 32 (i + 1) * pas := by
          rw [hxa, BitVec.add_assoc, BitVec.ofNat_add, BitVec.add_mul, BitVec.one_mul,
            BitVec.add_comm pas]
        exact absurd (Option.some.inj he)
          (cells_disjoint pas be a x.2 _ _ (i + 1) (Nat.succ_pos _) (by omega) hp hb c hc d hdx)
      · exact ih (by omega) _

end Plan

theorem storePlan_cons (be : Bool) (p : ArmCore) (x : RegNum × Word) (xs : List (RegNum × Word)) :
    p.storePlan be (x :: xs) = (p.storePlan be [x]).storePlan be xs := by
  have hc : p.storeCells be (x :: xs) = p.storeCells be [x] ++ p.storeCells be xs := by
    simp only [ArmCore.storeCells, List.flatMap_cons, List.flatMap_nil, List.append_nil]
  rw [ArmCore.storePlan, hc, Memory.writeCells, Cells.writeAll_append]
  rfl

theorem loadPlan_cons (be : Bool) (p : ArmCore) (x : RegNum × Word) (xs : List (RegNum × Word)) :
    p.loadPlan be (x :: xs) = (armWriteRegister p x.1 (p.mem.word be x.2)).loadPlan be xs := rfl

section Transferer

variable (h : Host) (l u : Word) (list_reg : Half)

def moved (p : ArmCore) (r : RegNum) (a : Word) : ArmCore :=
  if l ≠ 0 then armWriteRegister p r (p.mem.word h.ENDIANESS a)
  else { p with mem := p.mem.writeCells (cells 4 h.ENDIANESS a (armReadRegister p r)) }

theorem moved_size (p : ArmCore) (r : RegNum) (a : Word) :
    (moved h l p r a).mem.size = p.mem.size := by
  unfold moved
  split <;> rfl

theorem transfererMot_inside (p : ArmCore) (r : RegNum) (a value : Word)
    (ha : ¬ p.mem.horsPlage a) :
    ∃ v, transfererMot h p l r a value = (0, v, moved h l p r a) := by
  unfold transfererMot moved
  split
  · rw [armReadWord, memoryReadWord_word _ _ _ _ ha]
    exact ⟨_, rfl⟩
  · simp only [armWriteWord, memoryWriteWord_cells _ _ _ _ ha]
    exact ⟨_, rfl⟩

theorem transfererMot_outside (p : ArmCore) (r : RegNum) (a value : Word)
    (ha : p.mem.horsPlage a) : (transfererMot h p l r a value).1 = -1 := by
  unfold transfererMot
  split
  · rw [armReadWord, memoryReadWord, if_pos ha]
  · simp only [armWriteWord, memoryWriteWord, if_pos ha]

theorem transferer_unlisted (r : RegNum) (rs : List RegNum) (p : ArmCore) (value a : Word)
    (hr : bit list_reg r = false) :
    transferer h l u list_reg (r :: rs) p value a = transferer h l u list_reg rs p value a := by
  have hb : getBit list_reg r = 0 := (getBit_eq_zero list_reg r).mpr hr
  rw [transferer, if_neg (fun hn => hn hb)]

theorem transferer_inside (r : RegNum) (rs : List RegNum) (p : ArmCore) (value a : Word)
    (hr : bit list_reg r = true) (ha : ¬ p.mem.horsPlage a) :
    ∃ v, transferer h l u list_reg (r :: rs) p value a =
      transferer h l u list_reg rs (moved h l p r a) v (a + pasOf u) := by
  have hb := (getBit_ne_zero list_reg r).mpr hr
  obtain ⟨v, hv⟩ := transfererMot_inside h l p r a value ha
  refine ⟨v, ?_⟩
  rw [transferer, if_pos hb, hv]
  rfl

theorem transferer_outside (r : RegNum) (rs : List RegNum) (p : ArmCore) (value a : Word)
    (hr : bit list_reg r = true) (ha : p.mem.horsPlage a) :
    (transferer h l u list_reg (r :: rs) p value a).1 = DATA_ABORT := by
  have hb := (getBit_ne_zero list_reg r).mpr hr
  have hm := transfererMot_outside h l p r a value ha
  rw [transferer, if_pos hb]
  dsimp only
  rw [if_pos hm]

theorem transferer_code (regs : List RegNum) (p : ArmCore) (value a : Word) :
    (transferer h l u list_reg regs p value a).1 =
      if PlanInside p.mem (plan list_reg (pasOf u) regs a) then 0 else DATA_ABORT := by
  induction regs generalizing p value a with
  | nil =>
      have hi : PlanInside p.mem (plan list_reg (pasOf u) [] a) := fun x hx => by cases hx
      rw [if_pos hi]
      rfl
  | cons r rs ih =>
      rw [plan]
      cases hr : bit list_reg r with
      | false => rw [transferer_unlisted h l u list_reg r rs p value a hr, ih]; rfl
      | true =>
          by_cases ha : p.mem.horsPlage a
          · rw [transferer_outside h l u list_reg r rs p value a hr ha, if_neg]
            intro hall
            exact hall (r, a) List.mem_cons_self ha
          · obtain ⟨v, hv⟩ := transferer_inside h l u list_reg r rs p value a hr ha
            have hsize (x : Word) : (moved h l p r a).mem.horsPlage x ↔ p.mem.horsPlage x := by
              rw [Memory.horsPlage_iff, Memory.horsPlage_iff, moved_size]
            have hiff : PlanInside (moved h l p r a).mem (plan list_reg (pasOf u) rs (a + pasOf u)) ↔
                PlanInside p.mem ((r, a) :: plan list_reg (pasOf u) rs (a + pasOf u)) := by
              simp only [PlanInside, hsize, List.forall_mem_cons, ha, not_false_eq_true, true_and]
            rw [hv, ih]
            simp only [hiff, if_true]

def movedPlan (p : ArmCore) (xs : List (RegNum × Word)) : ArmCore :=
  xs.foldl (fun q x => moved h l q x.1 x.2) p

theorem movedPlan_load (hl : l ≠ 0) (p : ArmCore) (xs : List (RegNum × Word)) :
    movedPlan h l p xs = p.loadPlan h.ENDIANESS xs := by
  induction xs generalizing p with
  | nil => rfl
  | cons x xs ih =>
      have hm : moved h l p x.1 x.2 = armWriteRegister p x.1 (p.mem.word h.ENDIANESS x.2) :=
        if_pos hl
      rw [loadPlan_cons, movedPlan, List.foldl_cons, hm]
      exact ih _

theorem movedPlan_store (hl : l = 0) (p : ArmCore) (xs : List (RegNum × Word)) :
    movedPlan h l p xs = p.storePlan h.ENDIANESS xs := by
  induction xs generalizing p with
  | nil => rfl
  | cons x xs ih =>
      have hm : moved h l p x.1 x.2 = p.storePlan h.ENDIANESS [x] := by
        rw [moved, if_neg (fun hn => hn hl), ArmCore.storePlan, ArmCore.storeCells,
          List.flatMap_singleton]
      rw [storePlan_cons, movedPlan, List.foldl_cons, hm]
      exact ih _

theorem transferer_run (regs : List RegNum) (p : ArmCore) (value a : Word)
    (hz : (transferer h l u list_reg regs p value a).1 = 0) :
    (transferer h l u list_reg regs p value a).2 =
      (movedPlan h l p (plan list_reg (pasOf u) regs a),
        a + BitVec.ofNat 32 (regs.countP fun (r : RegNum) => bit list_reg r) * pasOf u) := by
  induction regs generalizing p value a with
  | nil => simp [transferer, plan, movedPlan]
  | cons r rs ih =>
      rw [plan, List.countP_cons]
      cases hr : bit list_reg r with
      | false =>
          rw [transferer_unlisted h l u list_reg r rs p value a hr] at hz ⊢
          exact ih p value a hz
      | true =>
          by_cases ha : p.mem.horsPlage a
          · rw [transferer_outside h l u list_reg r rs p value a hr ha] at hz
            cases hz
          · obtain ⟨v, hv⟩ := transferer_inside h l u list_reg r rs p value a hr ha
            rw [hv] at hz ⊢
            rw [ih _ _ _ hz, BitVec.add_assoc, if_pos rfl, if_pos rfl, BitVec.ofNat_add,
              BitVec.add_mul, BitVec.one_mul, BitVec.add_comm (pasOf u)]
            rfl

end Transferer

end Armator
