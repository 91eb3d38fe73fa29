import Mathlib.Order.Bounds.Basic
import Mathlib.Data.Nat.Find

namespace DoWhile

variable {ι σ : Type*}

def shift (inputs : Nat → ι) : Nat → ι := fun i => inputs (i + 1)

def iterate (f : ι → σ → σ) (inputs : Nat → ι) (s : σ) : Nat → σ
  | 0 => s
  | n + 1 => f (inputs n) (iterate f inputs s n)

theorem iterate_succ (f : ι → σ → σ) (inputs : Nat → ι) (s : σ) (n : Nat) :
    iterate f inputs s (n + 1) = iterate f (shift inputs) (f (inputs 0) s) n := by
  induction n with
  | zero => rfl
  | succ n ih => rw [iterate, ih, iterate, shift]

theorem iterate_preserves {P : σ → Prop} {f : ι → σ → σ} {inputs : Nat → ι} {s : σ} {n : Nat}
    (h0 : P s) (hstep : ∀ k < n, P (iterate f inputs s k) → P (iterate f inputs s (k + 1))) :
    P (iterate f inputs s n) := by
  induction n with
  | zero => exact h0
  | succ n ih => exact hstep n (Nat.lt_succ_self n) (ih fun k hk => hstep k (Nat.lt_succ_of_lt hk))

-- A run that some state may not have a next of.
def advance {α : Type*} (next : α → Option α) (a : α) : Nat → Option α
  | 0 => some a
  | n + 1 => (advance next a n).bind next

theorem advance_prefix {α : Type*} {next : α → Option α} {a b : α} {n : Nat}
    (hn : advance next a n = some b) {k : Nat} (hk : k ≤ n) : ∃ c, advance next a k = some c := by
  induction n generalizing b with
  | zero =>
      rw [Nat.le_zero.mp hk]
      exact ⟨b, hn⟩
  | succ n ih =>
      obtain ⟨c, hc, hb⟩ := Option.bind_eq_some_iff.mp hn
      rcases Nat.le_succ_iff.mp hk with hle | rfl
      · exact ih hc hle
      · exact ⟨b, hn⟩

theorem iterate_follows {α : Type*} {R : α → σ → Prop} {next : α → Option α} {f : ι → σ → σ}
    {inputs : Nat → ι} {a b : α} {s : σ} {n : Nat} (h0 : R a s)
    (hstep : ∀ k a b s, R a s → next a = some b → R b (f (inputs k) s))
    (hn : advance next a n = some b) : R b (iterate f inputs s n) := by
  induction n generalizing b with
  | zero =>
      obtain rfl := Option.some.inj hn
      exact h0
  | succ n ih =>
      obtain ⟨c, hc, hb⟩ := Option.bind_eq_some_iff.mp hn
      exact hstep n c b _ (ih hc) hb

-- At most `fuel` turns of `do s := f input s while not stop`.
def loop (f : ι → σ → σ) (stop : σ → Prop) [DecidablePred stop] (inputs : Nat → ι) (s : σ) : Nat → Option σ
  | 0 => none
  | fuel + 1 =>
      if stop (f (inputs 0) s) then some (f (inputs 0) s)
      else loop f stop (shift inputs) (f (inputs 0) s) fuel

def stopping (f : ι → σ → σ) (stop : σ → Prop) (inputs : Nat → ι) (s : σ) : Set Nat :=
  {n | 1 ≤ n ∧ stop (iterate f inputs s n)}

variable {f : ι → σ → σ} {stop : σ → Prop} [DecidablePred stop] {inputs : Nat → ι} {s : σ}

theorem loop_eq_some {n fuel : Nat} (h : IsLeast (stopping f stop inputs s) n)
    (hf : n ≤ fuel) : loop f stop inputs s fuel = some (iterate f inputs s n) := by
  induction fuel generalizing inputs s n with
  | zero => exact absurd h.1.1 (Nat.not_le.mpr (Nat.lt_succ_of_le hf))
  | succ fuel ih =>
      obtain ⟨⟨h1, hn⟩, hleast⟩ := h
      rw [loop]
      by_cases hs : stop (f (inputs 0) s)
      · have hle : n ≤ 1 := hleast ⟨Nat.le_refl 1, hs⟩
        have he : n = 1 := Nat.le_antisymm hle h1
        rw [if_pos hs, he]
        rfl
      · rw [if_neg hs]
        obtain ⟨m, rfl⟩ : ∃ m, n = m + 1 := ⟨n - 1, by omega⟩
        rw [iterate_succ] at hn ⊢
        have hm : 1 ≤ m := by
          rcases Nat.eq_zero_or_pos m with rfl | hpos
          · exact absurd hn hs
          · exact hpos
        refine ih ⟨⟨hm, hn⟩, fun k hk => ?_⟩ (Nat.le_of_succ_le_succ hf)
        have hk' : iterate f inputs s (k + 1) = iterate f (shift inputs) (f (inputs 0) s) k :=
          iterate_succ f inputs s k
        have hle := hleast (show k + 1 ∈ stopping f stop inputs s from
          ⟨Nat.le_add_left 1 k, by rw [hk']; exact hk.2⟩)
        exact Nat.le_of_succ_le_succ hle

theorem loop_eq_none {n fuel : Nat} (h : IsLeast (stopping f stop inputs s) n)
    (hf : fuel < n) : loop f stop inputs s fuel = none := by
  have hno (k : Nat) (h1 : 1 ≤ k) (hk : k ≤ fuel) : ¬ stop (iterate f inputs s k) := by
    intro hs
    exact absurd (h.2 ⟨h1, hs⟩) (by omega)
  clear h hf
  induction fuel generalizing inputs s with
  | zero => rfl
  | succ fuel ih =>
      have h1 : ¬ stop (f (inputs 0) s) := hno 1 (Nat.le_refl 1) (by omega)
      rw [loop, if_neg h1]
      refine ih fun k h1 hk => ?_
      rw [← iterate_succ]
      exact hno (k + 1) (by omega) (by omega)

omit [DecidablePred stop] in
theorem exists_isLeast (h : (stopping f stop inputs s).Nonempty) :
    ∃ n, IsLeast (stopping f stop inputs s) n := by
  classical
  exact ⟨Nat.find h, Nat.find_spec h, fun m hm => Nat.find_min' h hm⟩

end DoWhile
