import Mathlib.Data.Finset.Card
import Mathlib.Order.Lattice
import Mathlib.Logic.Function.Basic

namespace SortedTable

variable {α : Type*} [LinearOrder α]

-- A table is an array of which the first `n` cells are in use.
def Increasing (f : Nat → α) (n : Nat) : Prop := ∀ i j, i < j → j < n → f i < f j

def Holds (f : Nat → α) (n : Nat) (x : α) : Prop := ∃ i < n, f i = x

theorem Increasing.le {f : Nat → α} {n i j : Nat} (h : Increasing f n) (hij : i ≤ j) (hj : j < n) :
    f i ≤ f j := by
  rcases Nat.lt_or_eq_of_le hij with hlt | rfl
  · exact le_of_lt (h i j hlt hj)
  · exact le_refl _

theorem Increasing.lt_of_lt {f : Nat → α} {n i j : Nat} (h : Increasing f n) (hi : i < n)
    (hlt : f i < f j) : i < j := by
  by_contra hc
  exact absurd hlt (not_lt.mpr (h.le (Nat.not_lt.mp hc) hi))

theorem Increasing.eq_of_eq {f : Nat → α} {n i j : Nat} (h : Increasing f n) (hi : i < n)
    (hj : j < n) (he : f i = f j) : i = j := by
  rcases Nat.lt_trichotomy i j with hlt | hij | hgt
  · exact absurd he (ne_of_lt (h i j hlt hj))
  · exact hij
  · exact absurd he (ne_of_gt (h j i hgt hi))

theorem Increasing.card_eq {f : Nat → α} {n : Nat} (h : Increasing f n) (s : Finset α)
    (hs : ∀ x, x ∈ s ↔ Holds f n x) : s.card = n := by
  have himage : s = (Finset.range n).image f := by
    ext x
    simp only [hs, Holds, Finset.mem_image, Finset.mem_range]
  have hinj : Set.InjOn f (Finset.range n) := by
    intro i hi j hj hf
    have hi' := Finset.mem_range.mp (Finset.mem_coe.mp hi)
    have hj' := Finset.mem_range.mp (Finset.mem_coe.mp hj)
    exact h.eq_of_eq hi' hj' hf
  rw [himage, Finset.card_image_of_injOn hinj, Finset.card_range]

def bisect (f : Nat → α) (x : α) : Nat → Nat → Nat → Option Nat
  | 0, _, _ => none
  | fuel + 1, lo, hi =>
      if lo < hi then
        let mid := (lo + hi) / 2
        if x < f mid then bisect f x fuel lo mid
        else if f mid < x then bisect f x fuel (mid + 1) hi
        else some mid
      else none

theorem bisect_sound (f : Nat → α) (x : α) (fuel lo hi i : Nat)
    (h : bisect f x fuel lo hi = some i) : lo ≤ i ∧ i < hi ∧ f i = x := by
  induction fuel generalizing lo hi with
  | zero => cases h
  | succ fuel ih =>
      rw [bisect] at h
      split at h
      · rename_i hlt
        dsimp only at h
        split at h
        · obtain ⟨h1, h2, h3⟩ := ih _ _ h
          exact ⟨h1, by omega, h3⟩
        · rename_i hle
          split at h
          · obtain ⟨h1, h2, h3⟩ := ih _ _ h
            exact ⟨by omega, h2, h3⟩
          · rename_i hge
            cases h
            exact ⟨by omega, by omega, le_antisymm (not_lt.mp hle) (not_lt.mp hge)⟩
      · cases h

theorem bisect_complete (f : Nat → α) (x : α) (n : Nat) (hs : Increasing f n) (fuel lo hi i : Nat)
    (hf : hi - lo < fuel) (hn : hi ≤ n) (hlo : lo ≤ i) (hhi : i < hi) (hx : f i = x) :
    bisect f x fuel lo hi = some i := by
  induction fuel generalizing lo hi with
  | zero => omega
  | succ fuel ih =>
      have hlt : lo < hi := by omega
      have hin : i < n := by omega
      have hmid : (lo + hi) / 2 < n := by omega
      rw [bisect, if_pos hlt]
      dsimp only
      by_cases h1 : x < f ((lo + hi) / 2)
      · rw [if_pos h1]
        have hi' : i < (lo + hi) / 2 := hs.lt_of_lt hin (by rw [hx]; exact h1)
        exact ih lo _ (by omega) (by omega) hlo hi'
      · rw [if_neg h1]
        by_cases h2 : f ((lo + hi) / 2) < x
        · rw [if_pos h2]
          have hi' : (lo + hi) / 2 < i := hs.lt_of_lt hmid (by rw [hx]; exact h2)
          exact ih _ hi (by omega) hn hi' hhi
        · rw [if_neg h2]
          have he : f ((lo + hi) / 2) = x := le_antisymm (not_lt.mp h1) (not_lt.mp h2)
          rw [hs.eq_of_eq hmid hin (he.trans hx.symm)]

theorem bisect_isSome_iff (f : Nat → α) (x : α) (n : Nat) (hs : Increasing f n) :
    (bisect f x (n + 1) 0 n).isSome ↔ Holds f n x := by
  constructor
  · intro h
    obtain ⟨i, hi⟩ := Option.isSome_iff_exists.mp h
    obtain ⟨_, hlt, hx⟩ := bisect_sound f x _ _ _ i hi
    exact ⟨i, hlt, hx⟩
  · rintro ⟨i, hlt, hx⟩
    rw [bisect_complete f x n hs (n + 1) 0 n i (by omega) (Nat.le_refl n) (Nat.zero_le i) hlt hx]
    rfl

-- Cells above `x` move one place up; the hole that is left is returned with the array.
def slide (f : Nat → α) (x : α) : Nat → (Nat → α) × Nat
  | 0 => (f, 0)
  | j + 1 => if x < f j then slide (Function.update f (j + 1) (f j)) x j else (f, j + 1)

def insert (f : Nat → α) (n : Nat) (x : α) : Nat → α :=
  Function.update (slide f x n).1 (slide f x n).2 x

def close (f : Nat → α) : Nat → Nat → Nat → α
  | _, 0 => f
  | i, k + 1 => close (Function.update f i (f (i + 1))) (i + 1) k

theorem slide_spec (f : Nat → α) (x : α) (n : Nat) :
    (slide f x n).2 ≤ n ∧ (∀ i, (slide f x n).2 ≤ i → i < n → x < f i) ∧
      (∀ i, i + 1 = (slide f x n).2 → ¬ x < f i) ∧
      ∀ i, (slide f x n).1 i =
        if (slide f x n).2 < i ∧ i ≤ n then f (i - 1) else f i := by
  induction n generalizing f with
  | zero =>
      refine ⟨Nat.le_refl 0, fun i _ hi => by omega, fun i hi => ?_, fun i => ?_⟩
      · exact absurd hi (Nat.succ_ne_zero i)
      · rw [slide, if_neg (by omega)]
  | succ n ih =>
      rw [slide]
      by_cases h : x < f n
      · rw [if_pos h]
        obtain ⟨h1, h2, h3, h4⟩ := ih (Function.update f (n + 1) (f n))
        generalize slide (Function.update f (n + 1) (f n)) x n = s at h1 h2 h3 h4
        have hlow (i : Nat) (hi : i ≤ n) : Function.update f (n + 1) (f n) i = f i :=
          Function.update_of_ne (by omega) _ _
        refine ⟨by omega, fun i hi hn => ?_, fun i hi => ?_, fun i => ?_⟩
        · rcases Nat.lt_or_eq_of_le (Nat.lt_succ_iff.mp hn) with hlt | rfl
          · have hx := h2 i hi hlt
            rwa [hlow i (by omega)] at hx
          · exact h
        · have hx := h3 i hi
          rwa [hlow i (by omega)] at hx
        · rw [h4]
          by_cases hc : s.2 < i ∧ i ≤ n
          · rw [if_pos hc, if_pos (by omega), hlow _ (by omega)]
          · rw [if_neg hc]
            by_cases hn : i = n + 1
            · rw [hn, Function.update_self, if_pos (by omega)]
              rfl
            · rw [Function.update_of_ne hn, if_neg (by omega)]
      · rw [if_neg h]
        refine ⟨Nat.le_refl _, fun i hi hn => by omega, fun i hi => ?_, fun i => ?_⟩
        · have he : i = n := by
            dsimp only at hi
            omega
          rwa [he]
        · rw [if_neg (fun hc : n + 1 < i ∧ i ≤ n + 1 => by omega)]

theorem insert_apply (f : Nat → α) (n : Nat) (x : α) (i : Nat) :
    insert f n x i =
      if i = (slide f x n).2 then x
      else if (slide f x n).2 < i ∧ i ≤ n then f (i - 1) else f i := by
  rw [insert, Function.update_apply, (slide_spec f x n).2.2.2]

theorem insert_holds (f : Nat → α) (n : Nat) (x y : α) :
    Holds (insert f n x) (n + 1) y ↔ y = x ∨ Holds f n y := by
  obtain ⟨hk, _⟩ := slide_spec f x n
  generalize hs : (slide f x n).2 = k at hk
  constructor
  · rintro ⟨i, hi, rfl⟩
    rw [insert_apply, hs]
    by_cases h1 : i = k
    · rw [if_pos h1]
      exact Or.inl rfl
    · rw [if_neg h1]
      by_cases h2 : k < i ∧ i ≤ n
      · rw [if_pos h2]
        exact Or.inr ⟨i - 1, by omega, rfl⟩
      · rw [if_neg h2]
        exact Or.inr ⟨i, by omega, rfl⟩
  · rintro (rfl | ⟨i, hi, rfl⟩)
    · refine ⟨k, by omega, ?_⟩
      rw [insert_apply, hs, if_pos rfl]
    · by_cases h : i < k
      · refine ⟨i, by omega, ?_⟩
        rw [insert_apply, hs, if_neg (by omega), if_neg (by omega)]
      · refine ⟨i + 1, by omega, ?_⟩
        rw [insert_apply, hs, if_neg (by omega), if_pos (by omega)]
        rfl

theorem insert_increasing (f : Nat → α) (n : Nat) (x : α) (hs : Increasing f n)
    (hx : ¬ Holds f n x) : Increasing (insert f n x) (n + 1) := by
  obtain ⟨hk, hbelow, habove, _⟩ := slide_spec f x n
  generalize hsl : (slide f x n).2 = k at hk hbelow habove
  have hlow (i : Nat) (hi : i < k) : f i < x := by
    have hle : f i ≤ f (k - 1) := hs.le (by omega) (by omega)
    have hnot := habove (k - 1) (by omega)
    have hne : f (k - 1) ≠ x := fun he => hx ⟨k - 1, by omega, he⟩
    exact lt_of_le_of_lt hle (lt_of_le_of_ne (not_lt.mp hnot) hne)
  intro i j hij hj
  rw [insert_apply, insert_apply, hsl]
  by_cases hik : i = k
  · rw [if_pos hik, if_neg (by omega), if_pos (by omega)]
    exact hbelow (j - 1) (by omega) (by omega)
  · rw [if_neg hik]
    by_cases hjk : j = k
    · rw [if_pos hjk, if_neg (by omega)]
      exact hlow i (by omega)
    · rw [if_neg hjk]
      by_cases hi : k < i ∧ i ≤ n
      · rw [if_pos hi, if_pos (by omega)]
        exact hs _ _ (by omega) (by omega)
      · rw [if_neg hi]
        by_cases hjn : k < j ∧ j ≤ n
        · rw [if_pos hjn]
          exact lt_of_lt_of_le (hlow i (by omega)) (le_of_lt (hbelow _ (by omega) (by omega)))
        · rw [if_neg hjn]
          exact hs _ _ hij (by omega)

omit [LinearOrder α] in
theorem close_apply (f : Nat → α) (i k m : Nat) :
    close f i k m = if i ≤ m ∧ m < i + k then f (m + 1) else f m := by
  induction k generalizing f i with
  | zero =>
      rw [if_neg (by omega)]
      rfl
  | succ k ih =>
      rw [close, ih]
      by_cases h : i + 1 ≤ m ∧ m < i + 1 + k
      · rw [if_pos h, if_pos (by omega), Function.update_of_ne (by omega)]
      · rw [if_neg h]
        by_cases hm : m = i
        · rw [hm, Function.update_self, if_pos (by omega)]
        · rw [Function.update_of_ne hm, if_neg (by omega)]

theorem close_increasing (f : Nat → α) (n i : Nat) (hs : Increasing f (n + 1)) :
    Increasing (close f i (n - i)) n := by
  intro a b hab hb
  rw [close_apply, close_apply]
  split
  · split <;> exact hs _ _ (by omega) (by omega)
  · split <;> exact hs _ _ (by omega) (by omega)

theorem close_holds (f : Nat → α) (n i : Nat) (hs : Increasing f (n + 1)) (hi : i ≤ n) (y : α) :
    Holds (close f i (n - i)) n y ↔ Holds f (n + 1) y ∧ y ≠ f i := by
  constructor
  · rintro ⟨m, hm, rfl⟩
    rw [close_apply]
    split
    · refine ⟨⟨m + 1, by omega, rfl⟩, ?_⟩
      exact ne_of_gt (hs i (m + 1) (by omega) (by omega))
    · refine ⟨⟨m, by omega, rfl⟩, ?_⟩
      exact ne_of_lt (hs m i (by omega) (by omega))
  · rintro ⟨⟨m, hm, rfl⟩, hne⟩
    have hmi : m ≠ i := fun he => hne (by rw [he])
    by_cases h : m < i
    · refine ⟨m, by omega, ?_⟩
      rw [close_apply, if_neg (by omega)]
    · refine ⟨m - 1, by omega, ?_⟩
      rw [close_apply, if_pos (by omega)]
      congr 1
      omega

end SortedTable
