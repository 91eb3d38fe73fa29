import Mathlib.Data.List.Basic
import Mathlib.Logic.Function.Basic

namespace Placed

variable {α : Type*}

def slice (f : Nat → α) (i n : Nat) : List α := (List.range' i n).map f

def place (f : Nat → α) (i : Nat) (s : List α) : Nat → α :=
  fun k => if h : i ≤ k ∧ k - i < s.length then s.get ⟨k - i, h.2⟩ else f k

@[simp] theorem length_slice (f : Nat → α) (i n : Nat) : (slice f i n).length = n := by
  rw [slice, List.length_map, List.length_range']

@[simp] theorem slice_zero (f : Nat → α) (i : Nat) : slice f i 0 = [] := rfl

theorem slice_succ (f : Nat → α) (i n : Nat) : slice f i (n + 1) = f i :: slice f (i + 1) n := rfl

theorem slice_add (f : Nat → α) (i m n : Nat) :
    slice f i (m + n) = slice f i m ++ slice f (i + m) n := by
  rw [slice, slice, slice, ← List.range'_append_1, List.map_append]

theorem slice_congr {f g : Nat → α} {i n : Nat} (h : ∀ k, i ≤ k → k < i + n → f k = g k) :
    slice f i n = slice g i n := by
  refine List.map_congr_left fun k hk => ?_
  obtain ⟨h1, h2⟩ := List.mem_range'_1.mp hk
  exact h k h1 h2

@[simp] theorem place_nil (f : Nat → α) (i : Nat) : place f i [] = f := by
  funext k
  exact dif_neg (fun h => Nat.not_lt_zero _ h.2)

theorem place_inside (f : Nat → α) (i : Nat) (s : List α) (k : Nat)
    (h : i ≤ k ∧ k - i < s.length) : place f i s k = s.get ⟨k - i, h.2⟩ :=
  dif_pos h

theorem place_outside (f : Nat → α) (i : Nat) (s : List α) (k : Nat)
    (h : k < i ∨ i + s.length ≤ k) : place f i s k = f k :=
  dif_neg (fun hc => by omega)

theorem place_cons (f : Nat → α) (i : Nat) (c : α) (s : List α) :
    place f i (c :: s) = place (Function.update f i c) (i + 1) s := by
  funext k
  by_cases hk : k = i
  · subst hk
    rw [place_outside _ (k + 1) s k (Or.inl (Nat.lt_succ_self k)), Function.update_self, place,
      dif_pos ⟨Nat.le_refl k, by rw [Nat.sub_self]; exact Nat.succ_pos _⟩]
    simp
  · by_cases hin : i + 1 ≤ k ∧ k - (i + 1) < s.length
    · have hs : k - i = k - (i + 1) + 1 := by omega
      rw [place, place, dif_pos hin, dif_pos ⟨by omega, by rw [List.length_cons]; omega⟩]
      simp [hs]
    · rw [place_outside _ (i + 1) s k (by omega), Function.update_of_ne hk,
        place_outside f i _ k (by rw [List.length_cons]; omega)]

theorem place_append (f : Nat → α) (i : Nat) (s t : List α) :
    place f i (s ++ t) = place (place f i s) (i + s.length) t := by
  induction s generalizing f i with
  | nil => rw [place_nil]; rfl
  | cons c s ih =>
      rw [List.cons_append, place_cons, ih, place_cons, List.length_cons]
      congr 1
      omega

theorem slice_place (f : Nat → α) (i : Nat) (s : List α) : slice (place f i s) i s.length = s := by
  induction s generalizing f i with
  | nil => rfl
  | cons c s ih =>
      rw [place_cons, List.length_cons, slice_succ, ih,
        place_outside _ _ _ i (Or.inl (Nat.lt_succ_self i)), Function.update_self]

theorem slice_place_outside (f : Nat → α) (i j n : Nat) (s : List α)
    (h : j + n ≤ i ∨ i + s.length ≤ j) : slice (place f i s) j n = slice f j n :=
  slice_congr fun k h1 h2 => place_outside f i s k (by omega)

theorem place_slice (f : Nat → α) (i : Nat) (s : List α) (h : slice f i s.length = s) :
    place f i s = f := by
  induction s generalizing i with
  | nil => exact place_nil f i
  | cons c s ih =>
      rw [List.length_cons, slice_succ] at h
      obtain ⟨hc, hs⟩ := List.cons.inj h
      rw [place_cons, ← hc, Function.update_eq_self, ih _ hs]

theorem place_place (f : Nat → α) (i j : Nat) (s t : List α) (h : i ≤ j)
    (hs : j + s.length ≤ i + t.length) : place (place f j s) i t = place f i t := by
  funext k
  by_cases hk : i ≤ k ∧ k - i < t.length
  · rw [place_inside _ i t k hk, place_inside f i t k hk]
  · rw [place_outside _ i t k (by omega), place_outside f j s k (by omega),
      place_outside f i t k (by omega)]

theorem place_extend (f : Nat → α) (i k : Nat) (s t u : List α) (hk : k = i + s.length)
    (h : u.length ≤ t.length) : place (place f i (s ++ u)) k t = place f i (s ++ t) := by
  rw [place_append, place_append, hk, place_place _ _ _ _ _ (Nat.le_refl _) (by omega)]

theorem update_extend (f : Nat → α) (i k : Nat) (s u : List α) (c : α) (hk : k = i + s.length)
    (h : u.length ≤ 1) : Function.update (place f i (s ++ u)) k c = place f i (s ++ [c]) := by
  rw [← place_extend f i k s [c] u hk h, place_cons, place_nil]

theorem update_place_before (f : Nat → α) (i : Nat) (s : List α) (c : α) :
    Function.update (place f (i + 1) s) i c = place f i (c :: s) := by
  funext k
  rw [place_cons]
  by_cases hk : i + 1 ≤ k ∧ k - (i + 1) < s.length
  · rw [Function.update_of_ne (by omega), place_inside _ _ _ _ hk, place_inside _ _ _ _ hk]
  · rw [place_outside _ _ _ k (by omega)]
    by_cases hi : k = i
    · rw [hi, Function.update_self, Function.update_self]
    · rw [Function.update_of_ne hi, Function.update_of_ne hi, place_outside _ _ _ k (by omega)]

theorem slice_place_append (f : Nat → α) (i : Nat) (s t : List α) :
    slice (place f i (s ++ t)) i s.length = s := by
  rw [place_append, slice_place_outside _ _ _ _ _ (Or.inl (Nat.le_refl _)), slice_place]

theorem place_append_cons (f : Nat → α) (i : Nat) (s t : List α) (c : α) :
    place f i (s ++ c :: t) (i + s.length) = c := by
  rw [place_append, place_cons, place_outside _ _ _ _ (Or.inl (Nat.lt_succ_self _)),
    Function.update_self]

-- The `k` cells from `i` on move one place up, the last one first.
def raise (f : Nat → α) (i : Nat) : Nat → Nat → α
  | 0 => f
  | k + 1 => raise (Function.update f (i + k + 1) (f (i + k))) i k

theorem raise_apply (f : Nat → α) (i k m : Nat) :
    raise f i k m = if i < m ∧ m ≤ i + k then f (m - 1) else f m := by
  induction k generalizing f with
  | zero => rw [raise, if_neg (by omega)]
  | succ k ih =>
      rw [raise, ih]
      by_cases hm : m = i + k + 1
      · rw [if_neg (by omega), if_pos (by omega), hm, Function.update_self]
        rfl
      · rw [Function.update_of_ne hm]
        by_cases h : i < m ∧ m ≤ i + k
        · rw [if_pos h, if_pos (by omega), Function.update_of_ne (by omega)]
        · rw [if_neg h, if_neg (by omega)]

theorem slice_update_raise (f : Nat → α) (i k : Nat) (x : α) :
    slice (Function.update (raise f i k) i x) 0 (i + (k + 1)) =
      slice f 0 i ++ x :: slice f i k := by
  rw [slice_add, Nat.zero_add, slice_succ, Function.update_self]
  have hlow : slice (Function.update (raise f i k) i x) 0 i = slice f 0 i :=
    slice_congr fun m _ hm => by
      rw [Function.update_of_ne (by omega), raise_apply, if_neg (by omega)]
  have hhigh : slice (Function.update (raise f i k) i x) (i + 1) k = slice f i k := by
    refine List.ext_get (by rw [length_slice, length_slice]) fun m h1 h2 => ?_
    rw [length_slice] at h1
    simp only [slice, List.get_eq_getElem, List.getElem_map, List.getElem_range', Nat.one_mul]
    rw [Function.update_of_ne (by omega), raise_apply, if_pos (by omega)]
    congr 1
    omega
  rw [hlow, hhigh]

end Placed
