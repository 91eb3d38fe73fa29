import Armator.Architecture.Answers
import Armator.Simulator.Create

namespace Armator

structure FetchAborts (h : Host) (p : ArmCore) : Prop where
  code : (armStep h p).1 = PREFETCH_ABORT
  registers : ∀ i : Slot, i ≠ PC → (armStep h p).2.reg.registre i = p.reg.registre i
  memory : (armStep h p).2.mem = p.mem

-- Nothing reads what `arm_fetch` returns.
theorem fetch_never_aborts (h : Host) (p : ArmCore) : ¬ FetchAborts h p :=
  fun ha => armStep_not_prefetch_abort h p ha.code

theorem empty_memory_resets :
    (afterReset []).mem.size ≤ (afterReset []).pc.toNat ∧
      ¬ FetchAborts Host.blank (afterReset []) := by
  refine ⟨by decide, fun ha => ?_⟩
  exact absurd ha.code (by decide)

end Armator
