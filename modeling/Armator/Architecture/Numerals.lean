import Armator.Simulator.Text

namespace Armator

theorem isDigit_not_special {c : Byte} (h : Hex.isDigit c = true) :
    isspace c = false ∧ c ≠ octet '+' ∧ c ≠ octet '-' ∧ c ≠ octet 'x' ∧ c ≠ octet 'X' := by
  have hall : ∀ c : Byte, Hex.isDigit c = true →
      isspace c = false ∧ c ≠ octet '+' ∧ c ≠ octet '-' ∧ c ≠ octet 'x' ∧ c ≠ octet 'X' := by
    decide
  exact hall c h

theorem signe_of_digit (width : Nat) (c : Byte) (s : Texte) (h : Hex.isDigit c = true) :
    signe width (c :: s) = (false, width, c :: s) := by
  obtain ⟨_, hp, hm, _⟩ := isDigit_not_special h
  rw [signe, if_neg hp, if_neg hm, ite_self]

theorem prefixe_eq_self (width : Nat) (c : Byte) (s : Texte)
    (h : ∀ x ∈ s.head?, x ≠ octet 'x' ∧ x ≠ octet 'X') :
    prefixe width (c :: s) = (width, c :: s) := by
  cases s with
  | nil => rfl
  | cons x s =>
      obtain ⟨h1, h2⟩ := h x rfl
      refine if_neg ?_
      rintro ⟨_, _, hx | hx⟩
      · exact h1 hx
      · exact h2 hx

theorem take_takeWhile_append (width : Nat) (ds s : Texte)
    (hd : ∀ c ∈ ds, Hex.isDigit c = true) (hw : ds.length ≤ width)
    (hs : ds.length = width ∨ ∀ c ∈ s.head?, Hex.isDigit c = false) :
    ((ds ++ s).take width).takeWhile Hex.isDigit = ds := by
  rw [List.take_append, List.take_of_length_le hw, List.takeWhile_append_of_pos hd]
  rcases hs with he | hn
  · rw [he, Nat.sub_self, List.take_zero, List.takeWhile_nil, List.append_nil]
  · cases s with
    | nil => rw [List.take_nil, List.takeWhile_nil, List.append_nil]
    | cons c s =>
        cases width - ds.length with
        | zero => rw [List.take_zero, List.takeWhile_nil, List.append_nil]
        | succ k =>
            rw [List.take_succ_cons, List.takeWhile_cons_of_neg (by rw [hn c rfl]; decide),
              List.append_nil]

theorem scanX_digits (width : Nat) (ds s : Texte) (hne : ds ≠ [])
    (hd : ∀ c ∈ ds, Hex.isDigit c = true) (hw : ds.length ≤ width)
    (hs : ds.length = width ∨ ∀ c ∈ s.head?, Hex.isDigit c = false)
    (hx : 2 ≤ ds.length ∨ ∀ c ∈ s.head?, c ≠ octet 'x' ∧ c ≠ octet 'X') :
    scanX width (ds ++ s) = some (strtoul false (Hex.eval ds), s) := by
  have htake := take_takeWhile_append width ds s hd hw hs
  obtain ⟨c, t, rfl⟩ := List.exists_cons_of_ne_nil hne
  have hc := hd c List.mem_cons_self
  have hsecond : ∀ x ∈ (t ++ s).head?, x ≠ octet 'x' ∧ x ≠ octet 'X' := by
    cases t with
    | nil =>
        rcases hx with h2 | hx
        · exact absurd h2 (by rw [List.length_singleton]; decide)
        · exact hx
    | cons y t =>
        intro x hy
        cases hy
        exact (isDigit_not_special (hd y (List.mem_cons_of_mem c List.mem_cons_self))).2.2.2
  rw [List.cons_append] at htake ⊢
  rw [scanX, List.dropWhile_cons_of_neg (by rw [(isDigit_not_special hc).1]; decide)]
  dsimp only
  rw [signe_of_digit _ _ _ hc]
  dsimp only
  rw [prefixe_eq_self _ _ _ hsecond]
  dsimp only
  rw [htake, if_neg hne, ← List.cons_append, List.drop_left]

-- A number as a client writes it: digits up to a byte that cannot belong to it.
def Numeral (ds : Texte) : Prop := ds ≠ [] ∧ ∀ c ∈ ds, Hex.isDigit c = true

instance (ds : Texte) : Decidable (Numeral ds) :=
  inferInstanceAs (Decidable (ds ≠ [] ∧ ∀ c ∈ ds, Hex.isDigit c = true))

def decimal (ds : Texte) : Nat :=
  (ds.takeWhile isdigit).foldl (fun n c => 10 * n + (c.toNat - 48)) 0

def Ends (s : Texte) : Prop :=
  ∀ c ∈ s.head?, Hex.isDigit c = false ∧ c ≠ octet 'x' ∧ c ≠ octet 'X'

theorem Numeral.print (k n : Nat) : Numeral (Hex.print (k + 1) n) := by
  refine ⟨fun h => ?_, fun _ => Hex.isDigit_of_mem_print⟩
  have hl := Hex.length_print (k + 1) n
  rw [h] at hl
  exact absurd hl (Nat.succ_ne_zero k).symm

theorem numeral_hex8 (x : Word) : Numeral (hex8 x) := Numeral.print 7 x.toNat

theorem ends_cons {c : Byte} (s : Texte)
    (hc : Hex.isDigit c = false ∧ c ≠ octet 'x' ∧ c ≠ octet 'X') : Ends (c :: s) := by
  rintro _ ⟨⟩
  exact hc

section Numeral

variable {ds es : Texte} (hd : Numeral ds) (he : Numeral es) {s : Texte} (hs : Ends s)

include hd hs in
theorem scanX_numeral :
    scanX (ds ++ s).length (ds ++ s) = some (strtoul false (Hex.eval ds), s) := by
  refine scanX_digits _ ds s hd.1 hd.2 ?_ ?_ ?_
  · rw [List.length_append]
    exact Nat.le_add_right _ _
  · exact Or.inr fun c hc => (hs c hc).1
  · exact Or.inr fun c hc => (hs c hc).2

include hd hs in
theorem sscanfX_numeral (x : Word) : sscanfX (ds ++ s) x = strtoul false (Hex.eval ds) := by
  rw [sscanfX, scanX_numeral hd hs]

include hd he hs in
theorem sscanfXX_numerals (x y : Word) :
    sscanfXX (ds ++ octet ',' :: (es ++ s)) x y =
      (strtoul false (Hex.eval ds), strtoul false (Hex.eval es)) := by
  rw [sscanfXX, scanX_numeral hd (ends_cons _ (by decide))]
  dsimp only [virgule]
  rw [if_pos rfl]
  dsimp only
  rw [sscanfX_numeral he hs]

include hd in
theorem sscanfHhxXX_numeral (x : Byte) (y z : Word) :
    sscanfHhxXX (ds ++ octet ',' :: s) x y z =
      ((strtoul false (Hex.eval ds)).setWidth 8, sscanfXX s y z) := by
  rw [sscanfHhxXX, scanX_numeral hd (ends_cons _ (by decide))]
  dsimp only [virgule]
  rw [if_pos rfl]

include hd in
theorem atoi_numeral : atoi (ds ++ 0 :: s) = BitVec.ofNat 32 (min (decimal ds) (2 ^ 63 - 1)) := by
  have htake : (ds ++ 0 :: s).takeWhile isdigit = ds.takeWhile isdigit := by
    rw [List.takeWhile_append]
    split
    · rename_i hall
      rw [List.takeWhile_cons_of_neg (by decide), List.append_nil]
      exact (List.takeWhile_prefix isdigit).eq_of_length hall |>.symm
    · rfl
  obtain ⟨hne, hdigits⟩ := hd
  obtain ⟨c, t, rfl⟩ := List.exists_cons_of_ne_nil hne
  have hc := hdigits c List.mem_cons_self
  rw [List.cons_append] at htake ⊢
  rw [atoi, List.dropWhile_cons_of_neg (by rw [(isDigit_not_special hc).1]; decide),
    signe_of_digit _ _ _ hc]
  dsimp only
  rw [htake]
  rfl

end Numeral

theorem index_append (c : Byte) (s t : Texte) (h : ∀ x ∈ s, x ≠ c ∧ x ≠ 0) :
    index c (s ++ c :: t) = some (c :: t) := by
  induction s with
  | nil => exact if_pos rfl
  | cons x s ih =>
      obtain ⟨h1, h2⟩ := h x List.mem_cons_self
      rw [List.cons_append, index, if_neg h1, if_neg h2]
      exact ih fun y hy => h y (List.mem_cons_of_mem x hy)

theorem index_terminated (c : Byte) (hc : c ≠ 0) (s t : Texte) :
    index c (s ++ 0 :: t) = (index c s).map (· ++ 0 :: t) := by
  induction s with
  | nil => exact (if_neg (Ne.symm hc)).trans (if_pos rfl)
  | cons x s ih =>
      rw [List.cons_append, index, index]
      by_cases h1 : x = c
      · rw [if_pos h1, if_pos h1]
        rfl
      · rw [if_neg h1, if_neg h1]
        by_cases h2 : x = 0
        · rw [if_pos h2, if_pos h2]
          rfl
        · rw [if_neg h2, if_neg h2, ih]

theorem index_head {c : Byte} {s t : Texte} (h : index c s = some t) : ∃ u, t = c :: u := by
  induction s with
  | nil => cases h
  | cons x s ih =>
      rw [index] at h
      split at h
      · rename_i hx
        cases h
        exact ⟨s, by rw [hx]⟩
      · split at h
        · cases h
        · exact ih h

theorem Numeral.ne {ds : Texte} (hd : Numeral ds) {c : Byte} (hc : Hex.isDigit c = false) :
    ∀ x ∈ ds, x ≠ c ∧ x ≠ 0 := by
  intro x hx
  have hdigit := hd.2 x hx
  constructor
  · rintro rfl
    rw [hc] at hdigit
    cases hdigit
  · rintro rfl
    exact absurd hdigit (by decide)

theorem strtoul_of_lt (n : Nat) (h : n < 2 ^ 64) : strtoul false n = BitVec.ofNat 32 n := by
  rw [strtoul, if_neg (Nat.not_le.mpr h)]
  rfl

theorem eval_hex8 (x : Word) : Hex.eval (hex8 x) = x.toNat := by
  rw [hex8, Hex.eval_print]
  exact Nat.mod_eq_of_lt x.isLt

theorem strtoul_hex8 (x : Word) : strtoul false (Hex.eval (hex8 x)) = x := by
  have hlt := x.isLt
  rw [eval_hex8, strtoul_of_lt _ (by omega), BitVec.ofNat_toNat, BitVec.setWidth_eq]

theorem eval_two_lt (h l : Byte) : Hex.eval [h, l] < 256 := Hex.eval_lt [h, l]

theorem sscanfX_two (h l : Byte) (s : Texte) (y : Word) (hh : Hex.isDigit h = true)
    (hl : Hex.isDigit l = true) :
    sscanfX (h :: l :: 0 :: s) y = BitVec.ofNat 32 (Hex.eval [h, l]) := by
  have hd : ∀ c ∈ [h, l], Hex.isDigit c = true := by
    intro c hc
    rcases List.mem_cons.mp hc with rfl | hc
    · exact hh
    · rwa [List.mem_singleton.mp hc]
  have hlt := eval_two_lt h l
  have hscan := scanX_digits (h :: l :: 0 :: s).length [h, l] (0 :: s) (List.cons_ne_nil _ _) hd
    (by simp) (Or.inr (by rintro c ⟨⟩; decide)) (Or.inl (Nat.le_refl 2))
  rw [List.cons_append, List.singleton_append, strtoul_of_lt _ (by omega)] at hscan
  rw [sscanfX, hscan]

end Armator
