import Mathlib.Data.List.Basic
import Mathlib.Data.List.Induction
import Mathlib.Algebra.Group.Nat.Defs

namespace Hex

def digit (n : Nat) : BitVec 8 :=
  if n < 10 then BitVec.ofNat 8 (48 + n) else BitVec.ofNat 8 (87 + n)

def value (c : BitVec 8) : Option Nat :=
  if 48 ≤ c.toNat ∧ c.toNat ≤ 57 then some (c.toNat - 48)
  else if 97 ≤ c.toNat ∧ c.toNat ≤ 102 then some (c.toNat - 87)
  else if 65 ≤ c.toNat ∧ c.toNat ≤ 70 then some (c.toNat - 55)
  else none

def isDigit (c : BitVec 8) : Bool := (value c).isSome

-- The last `k` digits of `n`, the highest first.
def print : Nat → Nat → List (BitVec 8)
  | 0, _ => []
  | k + 1, n => print k (n / 16) ++ [digit (n % 16)]

def eval (s : List (BitVec 8)) : Nat := s.foldl (fun n c => 16 * n + (value c).getD 0) 0

theorem value_lt (c : BitVec 8) : (value c).getD 0 < 16 := by
  unfold value
  split
  · rw [Option.getD_some]
    omega
  · split
    · rw [Option.getD_some]
      omega
    · split
      · rw [Option.getD_some]
        omega
      · decide

theorem eval_concat (s : List (BitVec 8)) (c : BitVec 8) :
    eval (s ++ [c]) = 16 * eval s + (value c).getD 0 := by
  rw [eval, List.foldl_append]
  rfl

theorem eval_lt (s : List (BitVec 8)) : eval s < 16 ^ s.length := by
  induction s using List.reverseRecOn with
  | nil => exact Nat.one_pos
  | append_singleton s c ih =>
      have hc := value_lt c
      rw [eval_concat, List.length_append, List.length_singleton, Nat.pow_succ]
      omega

theorem value_digit (n : Nat) (h : n < 16) : value (digit n) = some n := by
  have hall : ∀ m : Fin 16, value (digit m.val) = some m.val := by decide
  exact hall ⟨n, h⟩

theorem isDigit_digit (n : Nat) (h : n < 16) : isDigit (digit n) = true := by
  rw [isDigit, value_digit n h]
  rfl

theorem isDigit_of_mem_print {k n : Nat} {c : BitVec 8} (h : c ∈ print k n) : isDigit c = true := by
  induction k generalizing n with
  | zero => cases h
  | succ k ih =>
      rw [print, List.mem_append, List.mem_singleton] at h
      rcases h with hm | rfl
      · exact ih hm
      · exact isDigit_digit _ (Nat.mod_lt _ (by decide))

@[simp] theorem length_print (k n : Nat) : (print k n).length = k := by
  induction k generalizing n with
  | zero => rfl
  | succ k ih => rw [print, List.length_append, ih, List.length_singleton]

theorem eval_append_digit (s : List (BitVec 8)) (n : Nat) (h : n < 16) :
    eval (s ++ [digit n]) = 16 * eval s + n := by
  rw [eval_concat, value_digit n h]
  rfl

theorem eval_print (k n : Nat) : eval (print k n) = n % 16 ^ k := by
  induction k generalizing n with
  | zero => rw [Nat.pow_zero, Nat.mod_one]; rfl
  | succ k ih =>
      rw [print, eval_append_digit _ _ (Nat.mod_lt _ (by decide)), ih, Nat.pow_succ, Nat.mul_comm _ 16,
        Nat.mod_mul, Nat.add_comm]

end Hex
