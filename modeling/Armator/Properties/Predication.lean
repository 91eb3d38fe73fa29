import Armator.Architecture.Condition
import Armator.Simulator.Create

namespace Armator

open BitFields

def withCondition (body : BitVec 28) (cond : Nat) : Word := BitVec.ofNat 4 cond ++ body

theorem condField_withCondition (body : BitVec 28) (cond : Nat) (hc : cond < 16) :
    condField (withCondition body cond) = cond := by
  have hb := body.isLt
  have hn : (withCondition body cond).toNat = cond * 2 ^ 28 + body.toNat := by
    rw [withCondition, BitVec.toNat_append, BitVec.toNat_ofNat, Nat.mod_eq_of_lt hc,
      ← Nat.shiftLeft_add_eq_or_of_lt hb, Nat.shiftLeft_eq]
  rw [condField, getBits_toNat, hn]
  omega

-- The two words of the pair 2k, 2k + 1: one executes, the one that the flags select.
structure Complementary (p : ArmCore) (body : BitVec 28) (k : Nat) : Prop where
  exclusive : condNotRespect p (withCondition body (2 * k)) = 0 ↔
    condNotRespect p (withCondition body (2 * k + 1)) ≠ 0
  even : condNotRespect p (withCondition body (2 * k)) = 0 ↔
    conditionPassed (2 * k) (flagsOf p.cpsr) = true
  odd : condNotRespect p (withCondition body (2 * k + 1)) = 0 ↔
    conditionPassed (2 * k + 1) (flagsOf p.cpsr) = true
  always : condNotRespect p (withCondition body 14) = 0

def Selected (k : Nat) (f : Flags) : Prop :=
  k ≠ 2 ∧ (k = 6 → f.z = true ∨ f.n ≠ f.v)

theorem withCondition_accepted (p : ArmCore) (body : BitVec 28) (cond : Nat) (hc : cond < 15) :
    condNotRespect p (withCondition body cond) = 0 ↔
      conditionAccepted cond (flagsOf p.cpsr) = true := by
  rw [condNotRespect_eq, condField_withCondition body cond (Nat.lt_succ_of_lt hc),
    if_neg (Nat.ne_of_lt hc)]
  cases conditionAccepted cond (flagsOf p.cpsr) <;> simp

theorem complementary_predication (p : ArmCore) (body : BitVec 28) (k : Fin 7) :
    Complementary p body k ↔ Selected k (flagsOf p.cpsr) := by
  have hk := k.isLt
  have h0 := withCondition_accepted p body (2 * k) (by omega)
  have h1 := withCondition_accepted p body (2 * k + 1) (by omega)
  have hal := (withCondition_accepted p body 14 (by decide)).mpr rfl
  have hpair : Complementary p body k ↔
      (conditionAccepted (2 * k) (flagsOf p.cpsr) = true ↔
        ¬ conditionAccepted (2 * k + 1) (flagsOf p.cpsr) = true) ∧
      (conditionAccepted (2 * k) (flagsOf p.cpsr) = true ↔
        conditionPassed (2 * k) (flagsOf p.cpsr) = true) ∧
      (conditionAccepted (2 * k + 1) (flagsOf p.cpsr) = true ↔
        conditionPassed (2 * k + 1) (flagsOf p.cpsr) = true) := by
    constructor
    · rintro ⟨hx, he, ho, _⟩
      rw [Ne, h0, h1] at hx
      rw [h0] at he
      rw [h1] at ho
      exact ⟨hx, he, ho⟩
    · rintro ⟨hx, he, ho⟩
      exact ⟨by rw [Ne, h0, h1]; exact hx, by rw [h0]; exact he, by rw [h1]; exact ho, hal⟩
  rw [hpair]
  generalize flagsOf p.cpsr = f
  obtain ⟨n, z, c, v⟩ := f
  fin_cases k <;>
    simp only [conditionAccepted, conditionPassed, Selected] <;>
    cases n <;> cases z <;> cases c <;> cases v <;> decide

-- MI and PL after a reset: N is clear and neither is executed.
theorem pl_and_mi_refused : ¬ Complementary (afterReset []) 0 2 := fun hc =>
  absurd (hc.odd.mpr (by decide)) (by decide)

end Armator
