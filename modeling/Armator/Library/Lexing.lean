import Mathlib.Computability.RegularExpressions
import Mathlib.Data.Nat.Find

namespace Lexing

universe u v

variable {α : Type u} {ρ : Type v}

def oneOf (cs : List α) : RegularExpression α := cs.foldr (fun c r => .char c + r) 0

theorem mem_oneOf (cs s : List α) : s ∈ (oneOf cs).matches' ↔ ∃ c ∈ cs, s = [c] := by
  induction cs with
  | nil =>
      change s ∈ (0 : RegularExpression α).matches' ↔ _
      simp [Language.notMem_zero]
  | cons c cs ih =>
      change s ∈ (.char c + oneOf cs : RegularExpression α).matches' ↔ _
      rw [RegularExpression.matches'_add, Language.mem_add, ih, RegularExpression.matches'_char]
      simp only [List.mem_cons, exists_eq_or_imp]
      exact Iff.rfl

theorem mem_star_oneOf (cs s : List α) :
    s ∈ (oneOf cs).star.matches' ↔ ∀ c ∈ s, c ∈ cs := by
  rw [RegularExpression.matches'_star, Language.mem_kstar]
  constructor
  · rintro ⟨ss, rfl, hss⟩ c hc
    obtain ⟨t, ht, hct⟩ := List.mem_flatten.mp hc
    obtain ⟨d, hd, rfl⟩ := (mem_oneOf cs t).mp (hss t ht)
    rw [List.mem_singleton.mp hct]
    exact hd
  · intro h
    refine ⟨s.map fun c => [c], (List.flatMap_singleton' s).symm, ?_⟩
    intro t ht
    obtain ⟨c, hc, rfl⟩ := List.mem_map.mp ht
    exact (mem_oneOf cs [c]).mpr ⟨c, h c hc, rfl⟩

variable [DecidableEq α]

-- The length of the longest prefix that matches; zero when no prefix but the empty one does.
def longest (r : RegularExpression α) (s : List α) : Nat :=
  Nat.findGreatest (fun n => r.rmatch (s.take n) = true) s.length

def select : List (ρ × RegularExpression α) → List α → Option (ρ × Nat)
  | [], _ => none
  | (a, r) :: rules, s =>
      match select rules s with
      | some (b, n) => if n ≤ longest r s then some (a, longest r s) else some (b, n)
      | none => if longest r s = 0 then none else some (a, longest r s)

def tokens (rules : List (ρ × RegularExpression α)) : List α → List (Option ρ × List α)
  | [] => []
  | c :: s =>
      match select rules (c :: s) with
      | some (a, n + 1) => (some a, c :: s.take n) :: tokens rules (s.drop n)
      | _ => (none, [c]) :: tokens rules s
termination_by s => s.length
decreasing_by
  · rw [List.length_drop, List.length_cons]
    omega
  · exact Nat.lt_succ_self _

section Longest

variable (r : RegularExpression α) (s : List α)

theorem longest_eq_zero (h : ∀ t u, s = t ++ u → t ≠ [] → t ∉ r.matches') : longest r s = 0 := by
  rw [longest, Nat.findGreatest_eq_zero_iff]
  intro n hn hle hm
  rw [RegularExpression.rmatch_iff_matches'] at hm
  refine h (s.take n) (s.drop n) (List.take_append_drop n s).symm ?_ hm
  intro hnil
  have hlen := congrArg List.length hnil
  rw [List.length_take, Nat.min_eq_left hle] at hlen
  exact Nat.ne_of_gt hn hlen

theorem longest_append (t u : List α) (ht : t ∈ r.matches')
    (h : ∀ t' u', t ++ u = t' ++ u' → t' ∈ r.matches' → t'.length ≤ t.length) :
    longest r (t ++ u) = t.length := by
  rw [longest]
  apply le_antisymm
  · by_contra hgt
    have hne : Nat.findGreatest (fun n => r.rmatch ((t ++ u).take n) = true) (t ++ u).length ≠ 0 := by
      omega
    have hm := Nat.findGreatest_of_ne_zero rfl hne
    have hle := Nat.findGreatest_le (P := fun n => r.rmatch ((t ++ u).take n) = true) (t ++ u).length
    rw [RegularExpression.rmatch_iff_matches'] at hm
    have hl := h _ _ (List.take_append_drop _ (t ++ u)).symm hm
    rw [List.length_take, Nat.min_eq_left hle] at hl
    exact hgt hl
  · apply Nat.le_findGreatest (by rw [List.length_append]; exact Nat.le_add_right _ _)
    rw [List.take_left, RegularExpression.rmatch_iff_matches']
    exact ht

end Longest

theorem longest_oneOf (cs : List α) (c : α) (s : List α) :
    longest (oneOf cs) (c :: s) = if c ∈ cs then 1 else 0 := by
  split
  · rename_i hc
    refine longest_append (oneOf cs) [c] s ((mem_oneOf cs [c]).mpr ⟨c, hc, rfl⟩) ?_
    intro t' u' _ ht'
    obtain ⟨d, _, rfl⟩ := (mem_oneOf cs t').mp ht'
    exact Nat.le_refl _
  · rename_i hc
    refine longest_eq_zero (oneOf cs) (c :: s) ?_
    intro t u he _ ht
    obtain ⟨d, hd, rfl⟩ := (mem_oneOf cs t).mp ht
    cases he
    exact hc hd

theorem tokens_nil (rules : List (ρ × RegularExpression α)) : tokens rules [] = [] := by
  rw [tokens]

theorem tokens_rule (rules : List (ρ × RegularExpression α)) (a : ρ) (t u : List α) (ht : t ≠ [])
    (h : select rules (t ++ u) = some (a, t.length)) :
    tokens rules (t ++ u) = (some a, t) :: tokens rules u := by
  cases t with
  | nil => exact absurd rfl ht
  | cons c t =>
      rw [List.cons_append] at h ⊢
      rw [tokens, h, List.length_cons]
      dsimp only
      rw [List.take_left, List.drop_left]

theorem tokens_default (rules : List (ρ × RegularExpression α)) (c : α) (s : List α)
    (h : select rules (c :: s) = none) : tokens rules (c :: s) = (none, [c]) :: tokens rules s := by
  rw [tokens, h]

end Lexing
