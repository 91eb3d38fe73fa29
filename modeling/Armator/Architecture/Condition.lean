import Armator.Architecture.CoreFrames
import Mathlib.Tactic.IntervalCases

namespace Armator

open BitFields (bit)

structure Flags where
  n : Bool
  z : Bool
  c : Bool
  v : Bool
deriving DecidableEq, Repr

def flagsOf (cpsr : Word) : Flags :=
  ⟨bit cpsr bitN, bit cpsr bitZ, bit cpsr bitC, bit cpsr bitV⟩

-- The ARM condition table, for the condition fields 0 to 14.
def conditionPassed (cond : Nat) (f : Flags) : Bool :=
  match cond with
  | 0 => f.z
  | 1 => !f.z
  | 2 => f.c
  | 3 => !f.c
  | 4 => f.n
  | 5 => !f.n
  | 6 => f.v
  | 7 => !f.v
  | 8 => f.c && !f.z
  | 9 => !f.c || f.z
  | 10 => f.n == f.v
  | 11 => f.n != f.v
  | 12 => !f.z && f.n == f.v
  | 13 => f.z || f.n != f.v
  | _ => true

def condField (ins : Word) : Nat := (getBits ins 31 28).toNat

theorem condField_lt (ins : Word) : condField ins < 16 := by
  rw [condField, getBits_toNat]
  exact Nat.mod_lt _ (by decide)

-- What the code accepts: PL is tested as MI, and LE is never refused.
def conditionAccepted (cond : Nat) (f : Flags) : Bool :=
  match cond with
  | 5 => f.n
  | 13 => true
  | cond => conditionPassed cond f

theorem getBit_flag (x : Word) (i : Nat) :
    (getBit x i).setWidth 8 = if bit x i then 1#8 else 0#8 := by
  cases hb : bit x i with
  | false => rw [(getBit_eq_zero x i).mpr hb]; rfl
  | true => rw [(getBit_eq_one x i).mpr hb]; rfl

theorem getBit_flag_eq_zero (x : Word) (i : Nat) :
    (getBit x i).setWidth 8 = 0#8 ↔ bit x i = false := by
  rw [getBit_flag]
  cases bit x i <;> simp

theorem getBit_flag_eq_one (x : Word) (i : Nat) :
    (getBit x i).setWidth 8 = 1#8 ↔ bit x i = true := by
  rw [getBit_flag]
  cases bit x i <;> simp

theorem getBit_flag_inj (x : Word) (i j : Nat) :
    (getBit x i).setWidth 8 = (getBit x j).setWidth 8 ↔ bit x i = bit x j := by
  rw [getBit_flag, getBit_flag]
  cases bit x i <;> cases bit x j <;> simp

theorem condNotRespect_eq (p : ArmCore) (ins : Word) :
    condNotRespect p ins =
      if condField ins = 15 then 2
      else if conditionAccepted (condField ins) (flagsOf p.cpsr) then 0 else 1 := by
  have hf : ((getBits ins 31 28).setWidth 8).toNat = condField ins := by
    rw [BitVec.toNat_setWidth]
    exact Nat.mod_eq_of_lt (Nat.lt_trans (condField_lt ins) (by decide))
  have hlt := condField_lt ins
  unfold condNotRespect
  simp only [hf, armReadCpsr_eq]
  generalize condField ins = cond at hlt
  have hnot : cNot 1#32 = 0#32 := by decide
  interval_cases cond <;>
    simp [conditionAccepted, conditionPassed, flagsOf, getBit_flag_eq_zero, getBit_flag_eq_one,
      getBit_flag_inj, hnot] <;>
    cases bit p.cpsr bitN <;> cases bit p.cpsr bitZ <;>
    cases bit p.cpsr bitC <;> cases bit p.cpsr bitV <;> rfl

def Passed (p : ArmCore) (ins : Word) : Prop :=
  condField ins ≠ 15 ∧ conditionPassed (condField ins) (flagsOf p.cpsr) = true

instance (p : ArmCore) (ins : Word) : Decidable (Passed p ins) :=
  inferInstanceAs (Decidable (_ ∧ _))

theorem passed_accepted_iff (p : ArmCore) (ins : Word) (hp : Passed p ins) :
    condNotRespect p ins = 0 ↔ condField ins ≠ 5 := by
  obtain ⟨h15, hp⟩ := hp
  rw [condNotRespect_eq, if_neg h15]
  constructor
  · intro hz h5
    rw [h5] at hz hp
    simp only [conditionPassed, Bool.not_eq_true'] at hp
    simp [conditionAccepted, hp] at hz
  · intro h5
    have ha : conditionAccepted (condField ins) (flagsOf p.cpsr) = true := by
      unfold conditionAccepted
      split
      · exact absurd ‹_› h5
      · rfl
      · exact hp
    rw [ha]
    rfl

end Armator
