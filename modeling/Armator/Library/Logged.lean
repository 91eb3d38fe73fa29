import Mathlib.Control.Monad.Writer

namespace Logged

universe u

variable {α β γ : Type u}

def value (x : Writer (List β) α) : α := (WriterT.run x).run.1

def log (x : Writer (List β) α) : List β := (WriterT.run x).run.2

@[simp] theorem value_bind (x : Writer (List β) α) (f : α → Writer (List β) γ) :
    value (x >>= f) = value (f (value x)) := rfl

@[simp] theorem log_bind (x : Writer (List β) α) (f : α → Writer (List β) γ) :
    log (x >>= f) = log x ++ log (f (value x)) := rfl

-- `y` does what `x` does, as long as `P` holds of all that `x` logs.
def Agrees (P : β → Prop) (x y : Writer (List β) α) : Prop := (∀ b ∈ log x, P b) → y = x

section Agrees

variable {P : β → Prop}

theorem Agrees.refl (x : Writer (List β) α) : Agrees P x x := fun _ => rfl

theorem Agrees.bind {x y : Writer (List β) α} {f g : α → Writer (List β) γ} (hx : Agrees P x y)
    (hf : ∀ a, Agrees P (f a) (g a)) : Agrees P (x >>= f) (y >>= g) := by
  intro hlog
  rw [log_bind, List.forall_mem_append] at hlog
  have hg : g (value x) = f (value x) := hf (value x) hlog.2
  have hvalue : value (x >>= g) = value (x >>= f) := by
    rw [value_bind, value_bind, hg]
  have hlogs : log (x >>= g) = log (x >>= f) := by
    rw [log_bind, log_bind, hg]
  rw [hx hlog.1]
  exact Prod.ext hvalue hlogs

end Agrees

end Logged
