import Armator.Architecture.ShiftCalls
import Armator.Simulator.Create

namespace Armator

open BitFields

structure ShiftsDefined (h : Host) (p : ArmCore) : Prop where
  amounts : ∀ n ∈ Trace.decalages (Trace.armExecuteInstruction h) p, 0 ≤ n ∧ n < 32
  result : ∀ shlOut shrOut,
    armExecuteInstruction { h with shlOut := shlOut, shrOut := shrOut } p = armExecuteInstruction h p

-- The amounts that the instruction gives: none is zero where ROR, or ASR of a set sign, takes it.
def AmountsGiven (h : Host) (p : ArmCore) : Prop :=
  condNotRespect p.fetched (p.fetchedWord h) = 0 →
    ∀ c ∈ shiftCall p.fetched (p.fetchedWord h), c.Defined

theorem amounts_iff (h : Host) (p : ArmCore) :
    (∀ n ∈ Trace.decalages (Trace.armExecuteInstruction h) p, Trace.InRange n) ↔
      AmountsGiven h p := by
  rw [AmountsGiven, Trace.decalages_armExecuteInstruction]
  by_cases hc : condNotRespect p.fetched (p.fetchedWord h) = 0
  · rw [Trace.decalages_aiguiller h _ _ hc, imp_iff_right hc]
    cases shiftCall p.fetched (p.fetchedWord h) with
    | none => simp
    | some c => simpa using c.amounts_inRange_iff
  · rw [Trace.decalages_aiguiller_refused h _ _ hc]
    exact iff_of_true (List.forall_mem_nil _) (fun hz => absurd hz hc)

theorem shiftsDefined_iff (h : Host) (p : ArmCore) : ShiftsDefined h p ↔ AmountsGiven h p :=
  ⟨fun hs => (amounts_iff h p).mp hs.amounts, fun hs =>
    ⟨(amounts_iff h p).mpr hs, fun _ _ =>
      Trace.armExecuteInstruction_elsewhere p ((amounts_iff h p).mpr hs)⟩⟩

-- MOV R0, #1 rotates its immediate by zero, and shifts it left by 32.
theorem mov_one_shifts_by_thirty_two : ¬ ShiftsDefined Host.blank (afterReset [0xE3A00001]) := by
  intro hs
  have h32 := hs.amounts 32 (by decide)
  exact absurd h32.2 (by decide)

end Armator
