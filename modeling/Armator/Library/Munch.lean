import Mathlib.Data.Option.Basic

namespace Munch

universe u v w

structure Automaton (α : Type u) (σ : Type v) (ρ : Type w) where
  start : σ
  step : σ → α → Option σ
  accept : σ → Option ρ

namespace Automaton

variable {α : Type u} {σ : Type v} {ρ : Type w} (M : Automaton α σ ρ)

def mark (s : σ) (n : Nat) (last : Option (ρ × Nat)) : Option (ρ × Nat) :=
  ((M.accept s).map fun a => (a, n)).or last

def scan : σ → Nat → Option (ρ × Nat) → List α → Option (ρ × Nat)
  | s, n, last, [] => M.mark s n last
  | s, n, last, c :: w =>
      match M.step s c with
      | some t => scan t (n + 1) (M.mark s n last) w
      | none => M.mark s n last

def best (w : List α) : Option (ρ × Nat) := M.scan M.start 0 none w

def advance : σ → Nat → Option (ρ × Nat) → List α → Option (σ × Option (ρ × Nat))
  | s, _, last, [] => some (s, last)
  | s, n, last, c :: w => (M.step s c).bind fun t => advance t (n + 1) (M.mark s n last) w

section Scan

variable (s : σ) (n : Nat) (last : Option (ρ × Nat))

theorem mark_mark : M.mark s n (M.mark s n last) = M.mark s n last := by
  rw [mark, mark]
  cases M.accept s <;> rfl

theorem scan_step {c : α} {t : σ} (w : List α) (h : M.step s c = some t) :
    M.scan s n last (c :: w) = M.scan t (n + 1) (M.mark s n last) w := by
  rw [scan, h]

theorem scan_jam {c : α} (w : List α) (h : M.step s c = none) :
    M.scan s n last (c :: w) = M.mark s n last := by
  rw [scan, h]

theorem scan_final (w : List α) (h : ∀ c, M.step s c = none) :
    M.scan s n last w = M.mark s n last := by
  cases w with
  | nil => rfl
  | cons c w => exact M.scan_jam s n last w (h c)

theorem advance_append (u v : List α) :
    M.advance s n last (u ++ v) =
      (M.advance s n last u).bind fun p => M.advance p.1 (n + u.length) p.2 v := by
  induction u generalizing s n last with
  | nil => rfl
  | cons c u ih =>
      rw [List.cons_append, advance, advance]
      cases h : M.step s c with
      | none => rfl
      | some t =>
          rw [Option.bind_some, Option.bind_some, ih, List.length_cons, Nat.add_assoc,
            Nat.add_comm 1]

theorem advance_concat {u : List α} {c : α} {t t' : σ} {last' : Option (ρ × Nat)}
    (hu : M.advance s n last u = some (t, last')) (h : M.step t c = some t') :
    M.advance s n last (u ++ [c]) = some (t', M.mark t (n + u.length) last') := by
  rw [advance_append, hu, Option.bind_some, advance, h]
  rfl

theorem scan_advance {u : List α} {t : σ} {last' : Option (ρ × Nat)} (v : List α)
    (hu : M.advance s n last u = some (t, last')) :
    M.scan s n last (u ++ v) = M.scan t (n + u.length) last' v := by
  induction u generalizing s n last with
  | nil =>
      cases hu
      rfl
  | cons c u ih =>
      rw [advance] at hu
      obtain ⟨q, hq, hu⟩ := Option.bind_eq_some_iff.mp hu
      rw [List.cons_append, M.scan_step s n last _ hq, ih q (n + 1) _ hu, List.length_cons,
        Nat.add_assoc, Nat.add_comm 1]

end Scan

theorem best_advance {u : List α} {t : σ} {last : Option (ρ × Nat)} (v : List α)
    (hu : M.advance M.start 0 none u = some (t, last)) :
    M.best (u ++ v) = M.scan t u.length last v := by
  rw [best, M.scan_advance _ _ _ v hu, Nat.zero_add]

end Automaton

end Munch
