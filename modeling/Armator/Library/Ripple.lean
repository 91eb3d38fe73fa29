import Mathlib.Data.Nat.Digits.Lemmas

namespace Ripple

def add (B : Nat) : Nat → List (Nat × Nat) → List Nat × Nat
  | c, [] => ([], c)
  | c, (a, b) :: rest =>
      let r := add B ((a + b + c) / B) rest
      ((a + b + c) % B :: r.1, r.2)

variable {B : Nat}

theorem add_length (c : Nat) (ls : List (Nat × Nat)) : (add B c ls).1.length = ls.length := by
  induction ls generalizing c with
  | nil => rfl
  | cons l ls ih => simp [add, ih]

theorem add_value (c : Nat) (ls : List (Nat × Nat)) :
    Nat.ofDigits B (add B c ls).1 + B ^ ls.length * (add B c ls).2 =
      Nat.ofDigits B (ls.map Prod.fst) + Nat.ofDigits B (ls.map Prod.snd) + c := by
  induction ls generalizing c with
  | nil => simp [add]
  | cons l ls ih =>
      obtain ⟨a, b⟩ := l
      have hs := ih ((a + b + c) / B)
      have hd := Nat.mod_add_div (a + b + c) B
      simp only [add, List.map_cons, Nat.ofDigits_cons, List.length_cons, Nat.pow_succ]
      calc (a + b + c) % B + B * Nat.ofDigits B (add B ((a + b + c) / B) ls).1 +
            B ^ ls.length * B * (add B ((a + b + c) / B) ls).2
          = (a + b + c) % B + B * (Nat.ofDigits B (add B ((a + b + c) / B) ls).1 +
              B ^ ls.length * (add B ((a + b + c) / B) ls).2) := by ring
        _ = (a + b + c) % B + B * ((a + b + c) / B) + B * (Nat.ofDigits B (ls.map Prod.fst) +
              Nat.ofDigits B (ls.map Prod.snd)) := by rw [hs]; ring
        _ = a + B * Nat.ofDigits B (ls.map Prod.fst) +
              (b + B * Nat.ofDigits B (ls.map Prod.snd)) + c := by rw [hd]; ring

theorem add_lt (hB : 0 < B) (c : Nat) (ls : List (Nat × Nat)) :
    ∀ d ∈ (add B c ls).1, d < B := by
  induction ls generalizing c with
  | nil => simp [add]
  | cons l ls ih =>
      intro d hd
      rcases List.mem_cons.mp hd with rfl | hd
      · exact Nat.mod_lt _ hB
      · exact ih _ d hd

theorem add_carry_le (c : Nat) (hc : c ≤ 1) (ls : List (Nat × Nat))
    (hl : ∀ l ∈ ls, l.1 < B ∧ l.2 < B) : (add B c ls).2 ≤ 1 := by
  induction ls generalizing c with
  | nil => exact hc
  | cons l ls ih =>
      have h := hl l List.mem_cons_self
      apply ih
      · apply Nat.le_of_lt_succ
        apply Nat.div_lt_of_lt_mul
        omega
      · exact fun x hx => hl x (List.mem_cons_of_mem _ hx)

theorem add_ofDigits (hB : 1 < B) (c : Nat) (ls : List (Nat × Nat)) :
    Nat.ofDigits B (add B c ls).1 =
      (Nat.ofDigits B (ls.map Prod.fst) + Nat.ofDigits B (ls.map Prod.snd) + c) %
        B ^ ls.length := by
  have hlt : Nat.ofDigits B (add B c ls).1 < B ^ ls.length := by
    rw [← add_length c ls]
    exact Nat.ofDigits_lt_base_pow_length hB (add_lt (by omega) c ls)
  rw [← add_value, Nat.add_mul_mod_self_left, Nat.mod_eq_of_lt hlt]

theorem add_carry_eq_one_iff (hB : 1 < B) (c : Nat) (hc : c ≤ 1) (ls : List (Nat × Nat))
    (hl : ∀ l ∈ ls, l.1 < B ∧ l.2 < B) :
    (add B c ls).2 = 1 ↔ B ^ ls.length ≤
      Nat.ofDigits B (ls.map Prod.fst) + Nat.ofDigits B (ls.map Prod.snd) + c := by
  have hlt : Nat.ofDigits B (add B c ls).1 < B ^ ls.length := by
    rw [← add_length c ls]
    exact Nat.ofDigits_lt_base_pow_length hB (add_lt (by omega) c ls)
  have hle := add_carry_le c hc ls hl
  rw [← add_value]
  rcases Nat.le_one_iff_eq_zero_or_eq_one.mp hle with h | h
  · rw [h]; omega
  · rw [h]; omega

end Ripple
