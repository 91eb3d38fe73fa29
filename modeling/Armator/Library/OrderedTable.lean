import Mathlib.Data.List.Sort

namespace OrderedTable

variable {α : Type*} (cmp : α → α → Ordering)

-- The order that a comparison gives; equal under it need not be the same.
def Le (a b : α) : Prop := (cmp a b).isLE = true

instance : DecidableRel (Le cmp) := fun a b => inferInstanceAs (Decidable ((cmp a b).isLE = true))

def Sorted (l : List α) : Prop := l.Pairwise (Le cmp)

def rank (x : α) (l : List α) : Nat := (l.takeWhile fun a => cmp a x == .lt).length

def insert (l : List α) (x : α) : List α := l.orderedInsert (Le cmp) x

theorem rank_le (x : α) (l : List α) : rank cmp x l ≤ l.length :=
  (List.takeWhile_sublist _).length_le

theorem rank_cons (x a : α) (l : List α) :
    rank cmp x (a :: l) = if cmp a x = .lt then rank cmp x l + 1 else 0 := by
  rw [rank, List.takeWhile_cons]
  by_cases h : cmp a x = .lt
  · rw [if_pos h, h]
    rfl
  · rw [if_neg h, if_neg (by simpa using h)]
    rfl

theorem rank_eq_length_iff (x : α) (l : List α) :
    rank cmp x l = l.length ↔ ∀ a ∈ l, cmp a x = .lt := by
  induction l with
  | nil => simp [rank]
  | cons a l ih =>
      rw [rank_cons, List.forall_mem_cons, List.length_cons, ← ih]
      by_cases h : cmp a x = .lt
      · simp [h]
      · simp [h]

theorem insert_length (l : List α) (x : α) : (insert cmp l x).length = l.length + 1 :=
  List.orderedInsert_length _ l x

theorem foldl_insert_perm (xs l : List α) : (xs.foldl (insert cmp) l).Perm (xs ++ l) := by
  induction xs generalizing l with
  | nil => exact List.Perm.refl l
  | cons x xs ih =>
      have hx : (insert cmp l x).Perm (x :: l) := List.perm_orderedInsert _ x l
      exact (ih _).trans ((hx.append_left xs).trans List.perm_middle)

section Order

variable [Std.TransCmp cmp]

theorem not_le_iff (a x : α) : ¬ Le cmp x a ↔ cmp a x = .lt := by
  rw [Le, @Std.OrientedCmp.eq_swap α cmp _ x a]
  cases cmp a x <;> simp

theorem insert_eq (l : List α) (x : α) :
    insert cmp l x = l.take (rank cmp x l) ++ x :: l.drop (rank cmp x l) := by
  induction l with
  | nil => rfl
  | cons a l ih =>
      rw [insert, List.orderedInsert_cons, rank_cons]
      by_cases h : cmp a x = .lt
      · rw [if_neg ((not_le_iff cmp a x).mpr h), if_pos h, List.take_succ_cons,
          List.drop_succ_cons, List.cons_append]
        exact congrArg (a :: ·) ih
      · rw [if_pos (not_not.mp (mt (not_le_iff cmp a x).mp h)), if_neg h]
        rfl

instance : Std.Total (Le cmp) where
  total a b := by
    by_cases h : Le cmp a b
    · exact Or.inl h
    · rw [not_le_iff] at h
      exact Or.inr (by rw [Le, h]; rfl)

instance : IsTrans α (Le cmp) where
  trans _ _ _ hab hbc := Std.TransCmp.isLE_trans hab hbc

theorem sorted_insert (l : List α) (x : α) (hl : Sorted cmp l) : Sorted cmp (insert cmp l x) :=
  List.Pairwise.orderedInsert x l hl

theorem sorted_foldl_insert (xs l : List α) (hl : Sorted cmp l) :
    Sorted cmp (xs.foldl (insert cmp) l) := by
  induction xs generalizing l with
  | nil => exact hl
  | cons x xs ih => exact ih _ (sorted_insert cmp l x hl)

end Order

def probe (c : Nat → Ordering) : Nat → Int → Int → Bool
  | 0, _, _ => false
  | fuel + 1, lo, hi =>
      if lo < hi then
        match c ((lo + hi) / 2).toNat with
        | .lt => probe c fuel ((lo + hi) / 2 + 1) hi
        | .gt => probe c fuel lo ((lo + hi) / 2 - 1)
        | .eq => true
      else lo = hi && c lo.toNat = .eq

structure Monotone (c : Nat → Ordering) (n : Nat) : Prop where
  lt : ∀ i j, i ≤ j → j < n → c j = .lt → c i = .lt
  gt : ∀ i j, i ≤ j → j < n → c i = .gt → c j = .gt

theorem probe_iff (c : Nat → Ordering) (n : Nat) (hc : Monotone c n) (fuel : Nat) (lo hi : Int)
    (h0 : 0 ≤ lo) (hn : hi < n) (hf : hi - lo < fuel) :
    probe c fuel lo hi = true ↔ ∃ i : Nat, lo ≤ i ∧ i ≤ hi ∧ c i = .eq := by
  induction fuel generalizing lo hi with
  | zero =>
      refine iff_of_false Bool.false_ne_true ?_
      rintro ⟨i, h1, h2, _⟩
      omega
  | succ fuel ih =>
      rw [probe]
      by_cases hlt : lo < hi
      · rw [if_pos hlt]
        obtain ⟨m, hm⟩ : ∃ m : Nat, (lo + hi) / 2 = m := ⟨((lo + hi) / 2).toNat, by omega⟩
        rw [hm, Int.toNat_natCast]
        cases hx : c m with
        | lt =>
            dsimp only
            rw [ih _ _ (by omega) hn (by omega)]
            refine exists_congr fun i => ⟨fun h => ⟨by omega, h.2⟩, fun h => ⟨?_, h.2⟩⟩
            have hi : ¬ i ≤ m := fun hle => by
              have hlow := hc.lt i m hle (by omega) hx
              rw [h.2.2] at hlow
              cases hlow
            omega
        | gt =>
            dsimp only
            rw [ih _ _ h0 (by omega) (by omega)]
            refine exists_congr fun i => ⟨fun h => ⟨h.1, by omega, h.2.2⟩, fun h => ⟨h.1, ?_, h.2.2⟩⟩
            have hi : ¬ m ≤ i := fun hle => by
              have hhigh := hc.gt m i hle (by omega) hx
              rw [h.2.2] at hhigh
              cases hhigh
            omega
        | eq => exact iff_of_true rfl ⟨m, by omega, by omega, hx⟩
      · rw [if_neg hlt]
        simp only [Bool.and_eq_true, decide_eq_true_eq]
        constructor
        · rintro ⟨rfl, he⟩
          exact ⟨lo.toNat, by omega, by omega, he⟩
        · rintro ⟨i, h1, h2, he⟩
          have hi : lo.toNat = i := by omega
          exact ⟨by omega, by rw [hi]; exact he⟩

section Sorted

variable [Std.TransCmp cmp]

theorem Sorted.get_le {l : List α} (hl : Sorted cmp l) (i j : Fin l.length) (hij : i ≤ j) :
    Le cmp (l.get i) (l.get j) := by
  rcases lt_or_eq_of_le hij with hlt | rfl
  · exact List.pairwise_iff_get.mp hl i j hlt
  · exact Std.ReflCmp.isLE_rfl

def outcome (l : List α) (x : α) (i : Nat) : Ordering := (l[i]?.map fun a => cmp a x).getD .eq

omit [Std.TransCmp cmp] in
theorem outcome_get (l : List α) (x : α) (i : Fin l.length) :
    outcome cmp l x i = cmp (l.get i) x := by
  rw [outcome, List.getElem?_eq_getElem i.isLt]
  rfl

theorem Sorted.monotone {l : List α} (hl : Sorted cmp l) (x : α) :
    Monotone (outcome cmp l x) l.length where
  lt i j hij hj h := by
    rw [outcome_get cmp l x ⟨j, hj⟩] at h
    rw [outcome_get cmp l x ⟨i, Nat.lt_of_le_of_lt hij hj⟩]
    exact Std.TransCmp.lt_of_isLE_of_lt (hl.get_le cmp _ _ hij) h
  gt i j hij hj h := by
    rw [outcome_get cmp l x ⟨i, Nat.lt_of_le_of_lt hij hj⟩] at h
    rw [outcome_get cmp l x ⟨j, hj⟩]
    refine Std.TransCmp.gt_of_isGE_of_gt ?_ h
    rw [@Std.OrientedCmp.eq_swap α cmp, Ordering.isGE_swap]
    exact hl.get_le cmp _ _ hij

theorem Sorted.probe_iff {l : List α} (hl : Sorted cmp l) (x : α) (fuel : Nat)
    (hf : l.length ≤ fuel) :
    probe (outcome cmp l x) fuel 0 (l.length - 1) = true ↔ ∃ a ∈ l, cmp a x = .eq := by
  rw [OrderedTable.probe_iff _ _ (hl.monotone cmp x) _ _ _ (Int.le_refl 0) (by omega) (by omega)]
  constructor
  · rintro ⟨i, _, hi, he⟩
    have hlt : i < l.length := by omega
    rw [outcome_get cmp l x ⟨i, hlt⟩] at he
    exact ⟨_, List.get_mem l ⟨i, hlt⟩, he⟩
  · rintro ⟨a, ha, he⟩
    obtain ⟨i, rfl⟩ := List.get_of_mem ha
    have hlt := i.isLt
    exact ⟨i, by omega, by omega, (outcome_get cmp l x i).trans he⟩

end Sorted

end OrderedTable
