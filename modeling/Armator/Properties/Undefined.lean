import Armator.Architecture.Inert
import Armator.Simulator.Create

namespace Armator

open BitFields

theorem armBranch_code (p : ArmCore) (ins : Word) :
    (armBranch p ins).1 = 0 ∨ armBranch p ins = (-1, p) := by
  unfold armBranch
  dsimp only
  split
  · split <;> exact Or.inl rfl
  · exact Or.inr rfl

end Armator
