import Armator.Library.Logged

namespace Recorded

universe u

variable {σ β τ α γ : Type u}

abbrev Program (σ β α : Type u) := StateT σ (Writer (List β)) α

def result (x : Program σ β α) (s : σ) : α × σ := Logged.value (x.run s)

def record (x : Program σ β α) (s : σ) : List β := Logged.log (x.run s)

@[simp] theorem result_pure (a : α) (s : σ) : result (pure a : Program σ β α) s = (a, s) := (rfl)

@[simp] theorem result_bind (x : Program σ β α) (f : α → Program σ β γ) (s : σ) :
    result (x >>= f) s = result (f (result x s).1) (result x s).2 := (rfl)

@[simp] theorem record_bind (x : Program σ β α) (f : α → Program σ β γ) (s : σ) :
    record (x >>= f) s = record x s ++ record (f (result x s).1) (result x s).2 := rfl

theorem result_ite (c : Prop) [Decidable c] (x y : Program σ β α) (s : σ) :
    result (if c then x else y) s = if c then result x s else result y s := by
  split <;> rfl

-- What a record does to a state, as far as the record is consistent with it.
def replay (apply : β → τ → Option τ) : List β → τ → Option τ
  | [], t => some t
  | b :: bs, t => (apply b t).bind (replay apply bs)

theorem replay_append (apply : β → τ → Option τ) (bs cs : List β) (t : τ) :
    replay apply (bs ++ cs) t = (replay apply bs t).bind (replay apply cs) := by
  induction bs generalizing t with
  | nil => rfl
  | cons b bs ih =>
      simp only [List.cons_append, replay, Option.bind_assoc]
      exact congrArg (apply b t).bind (funext ih)

-- The record of `x` tells what `x` does to the part of the state that `view` shows.
def Replays (view : σ → τ) (apply : β → τ → Option τ) (x : Program σ β α) : Prop :=
  ∀ s, replay apply (record x s) (view s) = some (view (result x s).2)

section Replays

variable {view : σ → τ} {apply : β → τ → Option τ}

theorem Replays.pure (a : α) : Replays view apply (pure a : Program σ β α) := fun _ => rfl

theorem Replays.bind {x : Program σ β α} {f : α → Program σ β γ} (hx : Replays view apply x)
    (hf : ∀ a, Replays view apply (f a)) : Replays view apply (x >>= f) := by
  intro s
  rw [record_bind, replay_append, hx s]
  exact hf _ _

theorem Replays.single {x : Program σ β α}
    (h : ∀ s, ∃ b, record x s = [b] ∧ apply b (view s) = some (view (result x s).2)) :
    Replays view apply x := by
  intro s
  obtain ⟨b, hb, ha⟩ := h s
  rw [hb, replay, ha]
  rfl

end Replays

def Agrees (P : β → Prop) (x y : Program σ β α) : Prop := ∀ s, Logged.Agrees P (x.run s) (y.run s)

theorem Agrees.refl {P : β → Prop} (x : Program σ β α) : Agrees P x x := fun _ => .refl _

theorem Agrees.bind {P : β → Prop} {x y : Program σ β α} {f g : α → Program σ β γ}
    (hx : Agrees P x y) (hf : ∀ a, Agrees P (f a) (g a)) : Agrees P (x >>= f) (y >>= g) :=
  fun s => (hx s).bind fun p => hf p.1 p.2

def Records (Q : β → Prop) (x : Program σ β α) : Prop := ∀ s, ∀ b ∈ record x s, Q b

-- `x` and `y` are put together alike, from programs that `R` relates.
inductive Built (R : (α : Type u) → Program σ β α → Program σ β α → Prop) :
    {α : Type u} → Program σ β α → Program σ β α → Prop
  | pure {α : Type u} (a : α) : Built R (pure a : Program σ β α) (pure a)
  | prim {α : Type u} {x y : Program σ β α} (h : R α x y) : Built R x y
  | bind {α γ : Type u} {x y : Program σ β α} {f g : α → Program σ β γ} (hx : Built R x y)
      (hf : ∀ a, Built R (f a) (g a)) : Built R (x >>= f) (y >>= g)

section Built

variable {R : (α : Type u) → Program σ β α → Program σ β α → Prop} {x y : Program σ β α}

theorem Built.ite {c : Prop} [Decidable c] {x' y' : Program σ β α} (hx : Built R x y)
    (hx' : Built R x' y') : Built R (if c then x else x') (if c then y else y') := by
  split
  · exact hx
  · exact hx'

theorem Built.replays {view : σ → τ} {apply : β → τ → Option τ} (h : Built R x y)
    (hR : ∀ (α : Type u) (x y : Program σ β α), R α x y → Replays view apply x) :
    Replays view apply x := by
  induction h with
  | pure a => exact .pure a
  | prim h => exact hR _ _ _ h
  | bind _ _ ihx ihf => exact ihx.bind ihf

theorem Built.agrees {P : β → Prop} (h : Built R x y)
    (hR : ∀ (α : Type u) (x y : Program σ β α), R α x y → Agrees P x y) : Agrees P x y := by
  induction h with
  | pure a => exact .refl _
  | prim h => exact hR _ _ _ h
  | bind _ _ ihx ihf => exact ihx.bind ihf

theorem Built.records {Q : β → Prop} (h : Built R x y)
    (hR : ∀ (α : Type u) (x y : Program σ β α), R α x y → Records Q x) : Records Q x := by
  induction h with
  | pure a => exact fun _ _ hb => (List.not_mem_nil hb).elim
  | prim h => exact hR _ _ _ h
  | bind _ _ ihx ihf =>
      intro s
      rw [record_bind]
      exact List.forall_mem_append.mpr ⟨ihx s, ihf _ _⟩

end Built

-- What a record does to another state, where that keeps up with the replay call by call.
theorem replay_simulates {ρ : Type u} {apply : β → τ → Option τ} {effect : β → ρ → ρ}
    {R : τ → ρ → Prop} (h : ∀ b t t' r, apply b t = some t' → R t r → R t' (effect b r))
    {bs : List β} {t t' : τ} {r : ρ} (ht : R t r) (hr : replay apply bs t = some t') :
    R t' (bs.foldl (fun r b => effect b r) r) := by
  induction bs generalizing t r with
  | nil =>
      cases hr
      exact ht
  | cons b bs ih =>
      obtain ⟨u, hu, hr⟩ := Option.bind_eq_some_iff.mp hr
      exact ih (h b t u r hu ht) hr

end Recorded
