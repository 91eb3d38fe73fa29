namespace Fallible

universe u v w

variable {ε : Type v} {α β σ : Type u}

theorem bind_eq_ok (x : Except ε α) (f : α → Except ε β) (b : β) :
    (x >>= f) = .ok b ↔ ∃ a, x = .ok a ∧ f a = .ok b := by
  cases x with
  | error e =>
      constructor
      · intro h
        cases h
      · rintro ⟨a, h, _⟩
        cases h
  | ok a =>
      constructor
      · intro h
        exact ⟨a, rfl, h⟩
      · rintro ⟨a', h, hf⟩
        cases h
        exact hf

@[simp] theorem ok_bind (a : α) (f : α → Except ε β) : (Except.ok a >>= f) = f a := rfl

-- What `x` returns satisfies `Q`, and it only fails in the ways that `E` allows.
inductive Meets (E : ε → Prop) (Q : α → Prop) : Except ε α → Prop
  | ok {a : α} (h : Q a) : Meets E Q (.ok a)
  | error {e : ε} (h : E e) : Meets E Q (.error e)

section Meets

variable {E E' : ε → Prop} {Q Q' : α → Prop} {R : β → Prop}

theorem Meets.bind {x : Except ε α} {f : α → Except ε β} (hx : Meets E Q x)
    (hf : ∀ a, Q a → Meets E R (f a)) : Meets E R (x >>= f) := by
  cases hx with
  | ok h => exact hf _ h
  | error h => exact .error h

theorem Meets.mono {x : Except ε α} (hx : Meets E Q x) (he : ∀ e, E e → E' e)
    (hq : ∀ a, Q a → Q' a) : Meets E' Q' x := by
  cases hx with
  | ok h => exact .ok (hq _ h)
  | error h => exact .error (he _ h)

theorem Meets.of_ok {a : α} (h : Meets E Q (.ok a)) : Q a := by
  cases h with
  | ok h => exact h

theorem Meets.ne_error {x : Except ε α} (hx : Meets E Q x) {e : ε} (he : ¬ E e) :
    x ≠ .error e := by
  rintro rfl
  cases hx with
  | error h => exact he h

end Meets

def run (step : σ → α → Except ε σ) : σ → List α → Except ε σ
  | s, [] => .ok s
  | s, a :: as => step s a >>= fun s => run step s as

variable {step : σ → α → Except ε σ}

theorem run_cons_eq_ok (s s' : σ) (a : α) (as : List α) :
    run step s (a :: as) = .ok s' ↔ ∃ t, step s a = .ok t ∧ run step t as = .ok s' :=
  bind_eq_ok _ _ _

theorem run_append (s : σ) (as bs : List α) :
    run step s (as ++ bs) = run step s as >>= fun t => run step t bs := by
  induction as generalizing s with
  | nil => rfl
  | cons a as ih =>
      change (step s a >>= fun t => run step t (as ++ bs)) =
        (step s a >>= fun t => run step t as) >>= fun t => run step t bs
      cases step s a with
      | error e => rfl
      | ok t => exact ih t

theorem run_concat (s : σ) (as : List α) (a : α) :
    run step s (as ++ [a]) = run step s as >>= fun t => step t a := by
  have hone (t : σ) : run step t [a] = step t a := by
    change (step t a >>= fun t => Except.ok t) = step t a
    cases step t a <;> rfl
  rw [run_append]
  exact congrArg (run step s as >>= ·) (funext hone)

theorem run_meets {E : ε → Prop} {I : σ → Prop} (hstep : ∀ s a, I s → Meets E I (step s a))
    (s : σ) (as : List α) (hs : I s) : Meets E I (run step s as) := by
  induction as generalizing s with
  | nil => exact .ok hs
  | cons a as ih => exact (hstep s a hs).bind ih

theorem run_total {I : σ → Prop} (hstep : ∀ s a, I s → ∃ s', step s a = .ok s' ∧ I s')
    (s : σ) (as : List α) (hs : I s) : ∃ s', run step s as = .ok s' ∧ I s' := by
  induction as generalizing s with
  | nil => exact ⟨s, rfl, hs⟩
  | cons a as ih =>
      obtain ⟨t, ht, hI⟩ := hstep s a hs
      obtain ⟨s', hrun, hs'⟩ := ih t hI
      exact ⟨s', (run_cons_eq_ok s s' a as).mpr ⟨t, ht, hrun⟩, hs'⟩

-- A relation that every step keeps with an abstract step: the run ends as the abstract one does.
theorem run_simulates {τ : Type w} {R : σ → τ → Prop} {abstract : τ → α → τ}
    (hstep : ∀ s t a, R s t → ∃ s', step s a = .ok s' ∧ R s' (abstract t a))
    (s : σ) (t : τ) (as : List α) (hs : R s t) :
    ∃ s', run step s as = .ok s' ∧ R s' (as.foldl abstract t) := by
  induction as generalizing s t with
  | nil => exact ⟨s, rfl, hs⟩
  | cons a as ih =>
      obtain ⟨u, hu, hR⟩ := hstep s t a hs
      obtain ⟨s', hrun, hs'⟩ := ih u (abstract t a) hR
      exact ⟨s', (run_cons_eq_ok s s' a as).mpr ⟨u, hu, hrun⟩, hs'⟩

end Fallible
