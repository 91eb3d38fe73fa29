import Armator.Architecture.Tokens
import Armator.Library.Fallible
import Armator.Library.Munch
import Armator.Simulator.Flex

namespace Armator

namespace Flex

-- The states between two tokens and inside one: neither the jam nor the end of the buffer.
def vivants : List Nat := [1, 4, 5, 6, 7, 8, 9, 10, 11, 12]

def suivant (state c : Nat) : Nat :=
  match transition state c with
  | .ok t => t
  | .error _ => 13

-- The class under which `yy_get_previous_state` and `yy_try_NUL_trans` take a character.
def classe (c : Byte) : Nat := if c = 0 then 1 else yyEc.getD c.toNat 0

def accepte (state : Nat) : Option Nat :=
  if yyAccept.getD state 0 = 0 then none else some (yyAccept.getD state 0)

def automate : Munch.Automaton Byte Nat Nat where
  start := 1
  step s c := if suivant s (classe c) = 13 then none else some (suivant s (classe c))
  accept := accepte

def Final (state : Nat) : Prop := yyBase.getD state 0 = 14

instance (state : Nat) : Decidable (Final state) := inferInstanceAs (Decidable (_ = _))

section Tables

theorem lire_eq (table : List Nat) (i : Nat) (h : i < table.length) :
    lire table i = .ok (table.getD i 0) := by
  rw [lire, List.getD_eq_getElem?_getD, List.getElem?_eq_getElem h]
  rfl

theorem length_yyEc : yyEc.length = 256 := by decide +kernel

theorem lire_yyEc (c : Byte) : lire yyEc c.toNat = .ok (yyEc.getD c.toNat 0) :=
  lire_eq yyEc c.toNat (length_yyEc ▸ c.isLt)

theorem lire_yyAccept (s : Nat) (h : s ≤ 13) : lire yyAccept s = .ok (yyAccept.getD s 0) :=
  lire_eq yyAccept s (Nat.lt_succ_of_le h)

theorem lire_yyBase (s : Nat) (h : s ≤ 13) : lire yyBase s = .ok (yyBase.getD s 0) :=
  lire_eq yyBase s (Nat.lt_succ_of_le (Nat.le_succ_of_le h))

theorem vivant_le {s : Nat} (hs : s ∈ vivants) : s ≤ 13 := by
  revert s
  decide

theorem transition_suivant {s c : Nat} (hs : s ∈ 3 :: vivants) (hc : c ≤ 7) :
    transition s c = .ok (suivant s c) := by
  have h : ∀ s ∈ 3 :: vivants, ∀ c ≤ 7, (transition s c).isOk = true := by decide
  have hok := h s hs c hc
  rw [suivant]
  cases ht : transition s c with
  | ok t => rfl
  | error e =>
      rw [ht] at hok
      cases hok

theorem suivant_vivant {s c : Nat} (hs : s ∈ vivants) (hc : 0 < c) (hc' : c ≤ 7) :
    suivant s c = 13 ∨ suivant s c ∈ vivants := by
  have h : ∀ s ∈ vivants, ∀ c ≤ 7, 0 < c → suivant s c = 13 ∨ suivant s c ∈ vivants := by decide
  exact h s hs c hc' hc

-- The end-of-buffer character leads every state to the state 3, and the next one jams there.
theorem transition_zero {s : Nat} (hs : s ∈ vivants) : transition s 0 = .ok 3 := by
  have h : ∀ s ∈ vivants, suivant s 0 = 3 := by decide
  rw [transition_suivant (List.mem_cons_of_mem 3 hs) (Nat.zero_le 7), h s hs]

theorem transition_three {c : Nat} (hc : c ≤ 7) : transition 3 c = .ok 13 := by
  have h : ∀ c ≤ 7, suivant 3 c = 13 := by decide
  rw [transition_suivant List.mem_cons_self hc, h c hc]

theorem final_jam {s c : Nat} (hs : s ∈ vivants) (hf : Final s) (hc : 0 < c) (hc' : c ≤ 7) :
    suivant s c = 13 := by
  have h : ∀ s ∈ vivants, Final s → ∀ c ≤ 7, 0 < c → suivant s c = 13 := by decide
  exact h s hs hf c hc' hc

theorem final_accepte {s : Nat} (hs : s ∈ vivants) (hf : Final s) :
    yyAccept.getD s 0 ≠ 0 := by
  have h : ∀ s ∈ vivants, Final s → yyAccept.getD s 0 ≠ 0 := by decide
  exact h s hs hf

theorem accepte_le {s a : Nat} (hs : s ∈ vivants) (ha : accepte s = some a) : a ≠ 0 ∧ a ≤ 5 := by
  have h : ∀ s ∈ vivants, yyAccept.getD s 0 ≤ 5 := by decide
  have hle := h s hs
  rw [accepte] at ha
  split at ha
  · cases ha
  · rename_i hne
    cases ha
    exact ⟨hne, hle⟩

end Tables

section Classes

-- The equivalence classes of the characters, as the rules tell them apart.
def genre (c : Byte) : Nat :=
  if c = octet '\n' then 2
  else if c = octet '#' then 3
  else if c = octet '$' then 4
  else if c = octet '+' then 5
  else if c = octet '-' then 6
  else if Hex.isDigit c then 7
  else 1

theorem classe_eq (c : Byte) : classe c = genre c := by
  have h : ∀ n < 256, classe (BitVec.ofNat 8 n) = genre (BitVec.ofNat 8 n) := by decide +kernel
  have hc := h c.toNat c.isLt
  rwa [BitVec.ofNat_toNat, BitVec.setWidth_eq] at hc

theorem yyEc_ne_zero {c : Byte} (hc : c ≠ 0) : yyEc.getD c.toNat 0 = classe c := by
  rw [classe, if_neg hc]

theorem genre_pos (c : Byte) : 0 < genre c ∧ genre c ≤ 7 := by
  rw [genre]
  repeat' split
  all_goals decide

theorem classe_pos (c : Byte) : 0 < classe c := by
  rw [classe_eq]
  exact (genre_pos c).1

theorem classe_le (c : Byte) : classe c ≤ 7 := by
  rw [classe_eq]
  exact (genre_pos c).2

theorem genre_iff (c : Byte) :
    (genre c = 2 ↔ c = octet '\n') ∧ (genre c = 3 ↔ c = octet '#') ∧ (genre c = 4 ↔ c = octet '$') ∧
      (genre c = 5 ↔ c = octet '+') ∧ (genre c = 6 ↔ c = octet '-') ∧
        (genre c = 7 ↔ Hex.isDigit c = true) := by
  have h : ∀ n < 256, let c := BitVec.ofNat 8 n
      (genre c = 2 ↔ c = octet '\n') ∧ (genre c = 3 ↔ c = octet '#') ∧
        (genre c = 4 ↔ c = octet '$') ∧ (genre c = 5 ↔ c = octet '+') ∧
          (genre c = 6 ↔ c = octet '-') ∧ (genre c = 7 ↔ Hex.isDigit c = true) := by
    decide +kernel
  have hc := h c.toNat c.isLt
  rwa [BitVec.ofNat_toNat, BitVec.setWidth_eq] at hc

end Classes

section Steps

variable (c : Byte)

theorem step_row {s : Nat} (f : Nat → Option Nat)
    (h : ∀ k ≤ 7, 0 < k → (if suivant s k = 13 then none else some (suivant s k)) = f k) :
    automate.step s c = f (genre c) := by
  have hstep : automate.step s c =
      if suivant s (classe c) = 13 then none else some (suivant s (classe c)) := rfl
  rw [hstep, classe_eq]
  exact h (genre c) (genre_pos c).2 (genre_pos c).1

theorem step_start :
    automate.step 1 c =
      some (if c = octet '\n' then 5 else if c = octet '$' then 6 else if c = octet '+' then 7
        else if c = octet '-' then 8 else 4) := by
  obtain ⟨h2, _, h4, h5, h6, _⟩ := genre_iff c
  rw [step_row c (fun k => some (if k = 2 then 5 else if k = 4 then 6 else if k = 5 then 7
    else if k = 6 then 8 else 4)) (by decide)]
  simp only [h2, h4, h5, h6]

theorem step_payload {s : Nat} (hs : s = 6 ∨ s = 9) :
    automate.step s c =
      if c = octet '#' then some 10 else if c = octet '$' then none else some 9 := by
  obtain ⟨_, h3, h4, _⟩ := genre_iff c
  have hrow : ∀ k ≤ 7, 0 < k → (if suivant s k = 13 then none else some (suivant s k)) =
      (fun k => if k = 3 then some 10 else if k = 4 then none else some 9) k := by
    rcases hs with rfl | rfl
    · decide
    · decide
  rw [step_row c _ hrow]
  simp only [h3, h4]

theorem step_checksum {s : Nat} (hs : s = 10 ∨ s = 11) :
    automate.step s c = if Hex.isDigit c = true then some (s + 1) else none := by
  obtain ⟨_, _, _, _, _, h7⟩ := genre_iff c
  have hrow : ∀ k ≤ 7, 0 < k → (if suivant s k = 13 then none else some (suivant s k)) =
      (fun k => if k = 7 then some (s + 1) else none) k := by
    rcases hs with rfl | rfl
    · decide
    · decide
  rw [step_row c _ hrow]
  simp only [h7]

theorem step_vivant {s t : Nat} (hs : s ∈ vivants) (h : automate.step s c = some t) :
    t ∈ vivants ∧ suivant s (classe c) = t := by
  have hstep : automate.step s c =
      if suivant s (classe c) = 13 then none else some (suivant s (classe c)) := rfl
  rw [hstep] at h
  split at h
  · cases h
  · rename_i hne
    cases h
    rcases suivant_vivant hs (classe_pos c) (classe_le c) with hj | hv
    · exact absurd hj hne
    · exact ⟨hv, rfl⟩

theorem step_final {s : Nat} (hs : s ∈ vivants) (hf : Final s) : automate.step s c = none :=
  if_pos (final_jam hs hf (classe_pos c) (classe_le c))

end Steps

section Scan

variable (k : Nat) (last : Option (Nat × Nat)) (s : Texte)

def trouve (n : Option Nat) : Option (Nat × Nat) :=
  match n with
  | some n => some (3, k + n)
  | none => last

theorem scan_queue : automate.scan 10 (k + 1) last s = trouve k last (queue s) := by
  cases s with
  | nil => rfl
  | cons h s =>
      have h1 := step_checksum h (Or.inl rfl)
      by_cases hh : Hex.isDigit h = true
      · rw [if_pos hh] at h1
        rw [automate.scan_step _ _ _ _ h1]
        cases s with
        | nil => rfl
        | cons l s =>
            have h2 := step_checksum l (Or.inr rfl)
            by_cases hl : Hex.isDigit l = true
            · rw [if_pos hl] at h2
              rw [automate.scan_step _ _ _ _ h2, queue, if_pos ⟨hh, hl⟩]
              exact automate.scan_final _ _ _ _ fun c => step_final c (by decide) (by decide)
            · have hq : ¬ (Hex.isDigit h = true ∧ Hex.isDigit l = true) := fun hd => hl hd.2
              rw [if_neg hl] at h2
              rw [automate.scan_jam _ _ _ _ h2, queue, if_neg hq]
              rfl
      · rw [if_neg hh] at h1
        rw [automate.scan_jam _ _ _ _ h1]
        cases s with
        | nil => rfl
        | cons l s =>
            have hq : ¬ (Hex.isDigit h = true ∧ Hex.isDigit l = true) := fun hd => hh hd.1
            rw [queue, if_neg hq]
            rfl

theorem scan_corps_cons (c : Byte) (m : Option (Nat × Nat))
    (ih : ∀ k last, automate.scan 9 k last s = trouve k last (corps s)) {t : Nat}
    (ht : t = 6 ∨ t = 9) (hm : automate.mark t k last = m) :
    automate.scan t k last (c :: s) = trouve k m (corps (c :: s)) := by
  have hstep := step_payload c ht
  rw [corps]
  by_cases h2 : c = octet '#'
  · rw [if_pos h2] at hstep
    rw [automate.scan_step _ _ _ _ hstep, hm, scan_queue, if_pos h2]
  · rw [if_neg h2] at hstep ⊢
    by_cases h1 : c = octet '$'
    · rw [if_pos h1] at hstep ⊢
      rw [automate.scan_jam _ _ _ _ hstep, hm]
      rfl
    · rw [if_neg h1] at hstep ⊢
      rw [automate.scan_step _ _ _ _ hstep, hm, ih]
      cases corps s with
      | none => rfl
      | some n =>
          change some (3, k + 1 + n) = some (3, k + (n + 1))
          rw [Nat.add_assoc, Nat.add_comm 1]

theorem scan_corps : automate.scan 9 k last s = trouve k last (corps s) := by
  induction s generalizing k last with
  | nil => rfl
  | cons c s ih => exact scan_corps_cons k last s c last ih (Or.inr rfl) rfl

theorem scan_dollar : automate.scan 6 k last s = trouve k (some (4, k)) (corps s) := by
  cases s with
  | nil => rfl
  | cons c s =>
      exact scan_corps_cons k last s c _ (fun k last => scan_corps k last s) (Or.inl rfl) rfl

end Scan

theorem paquet_split {s : Texte} {n : Nat} (hs : paquet s = some n) :
    ∃ d h l u, s = trame d h l ++ u ∧ n = (trame d h l).length ∧ Undelimited d ∧
      Hex.isDigit h = true ∧ Hex.isDigit l = true := by
  cases s with
  | nil => cases hs
  | cons c s =>
      rw [paquet] at hs
      by_cases hc : c = octet '$'
      · rw [if_pos hc] at hs
        obtain ⟨m, hm, rfl⟩ := Option.map_eq_some_iff.mp hs
        obtain ⟨d, h, l, u, rfl, rfl, hd, hh, hl⟩ := corps_eq_some hm
        exact ⟨d, h, l, u, by rw [trame_append, hc], (length_trame d h l).symm, hd, hh, hl⟩
      · rw [if_neg hc] at hs
        cases hs

section Selection

def choix (c : Byte) : Nat :=
  if c = octet '\n' then 5
  else if c = octet '+' then 1
  else if c = octet '-' then 2
  else 4

theorem best_cons (c : Byte) (s : Texte) :
    automate.best (c :: s) =
      match paquet (c :: s) with
      | some n => some (3, n)
      | none => some (choix c, 1) := by
  have hm : automate.mark 1 0 none = none := rfl
  rw [Munch.Automaton.best, automate.scan_step automate.start _ _ _ (step_start c), paquet]
  change automate.scan _ 1 none s = _
  by_cases h4 : c = octet '$'
  · have hne : octet '$' ≠ octet '\n' := by decide
    rw [h4, if_neg hne, if_pos rfl, if_pos rfl, scan_dollar]
    cases corps s with
    | none => rfl
    | some n => exact congrArg (fun k => some (3, k)) (Nat.add_comm 1 n)
  · rw [if_neg h4, if_neg h4, choix]
    by_cases h2 : c = octet '\n'
    · rw [if_pos h2, if_pos h2]
      exact automate.scan_final _ _ _ _ fun c => step_final c (by decide) (by decide)
    · rw [if_neg h2, if_neg h2]
      by_cases h5 : c = octet '+'
      · rw [if_pos h5, if_pos h5]
        exact automate.scan_final _ _ _ _ fun c => step_final c (by decide) (by decide)
      · rw [if_neg h5, if_neg h5]
        by_cases h6 : c = octet '-'
        · rw [if_pos h6, if_pos h6]
          exact automate.scan_final _ _ _ _ fun c => step_final c (by decide) (by decide)
        · rw [if_neg h6, if_neg h6]
          exact automate.scan_final _ _ _ _ fun c => step_final c (by decide) (by decide)

def regleDe : Nat → Option Regle
  | 1 => some .plus
  | 2 => some .moins
  | 3 => some .trame
  | 4 => some .autre
  | _ => none

theorem regleDe_choix (c : Byte) : regleDe (choix c) = regleSeule c := by
  have hpn : octet '+' ≠ octet '\n' := by decide
  have hmn : octet '-' ≠ octet '\n' := by decide
  rw [choix, regleSeule]
  by_cases h2 : c = octet '\n'
  · rw [if_pos h2, if_neg (h2 ▸ hpn.symm), if_neg (h2 ▸ hmn.symm), if_neg (not_not.mpr h2)]
    rfl
  · rw [if_neg h2, if_pos h2]
    split
    · rfl
    · split <;> rfl

theorem select_best (s : Texte) :
    Lexing.select regles s = (automate.best s).bind fun p => (regleDe p.1).map fun r => (r, p.2) := by
  cases s with
  | nil => rfl
  | cons c s =>
      rw [best_cons]
      cases hp : paquet (c :: s) with
      | none =>
          rw [select_seule c s hp]
          simp only [Option.bind_some, regleDe_choix]
      | some n =>
          obtain ⟨d, h, l, u, hs, hn, hd, hh, hl⟩ := paquet_split hp
          rw [hs, select_trame d u h l hd hh hl, hn]
          rfl

theorem best_ne_none {s : Texte} (h : s ≠ []) : ∃ a k, automate.best s = some (a, k) := by
  cases s with
  | nil => exact absurd rfl h
  | cons c s =>
      rw [best_cons]
      cases paquet (c :: s) with
      | none => exact ⟨_, _, rfl⟩
      | some n => exact ⟨_, _, rfl⟩

theorem best_bounds {s : Texte} {a k : Nat} (h : automate.best s = some (a, k)) :
    0 < k ∧ k ≤ s.length := by
  cases s with
  | nil => cases h
  | cons c s =>
      rw [best_cons] at h
      cases hp : paquet (c :: s) with
      | none =>
          rw [hp] at h
          cases h
          exact ⟨Nat.one_pos, Nat.succ_le_succ (Nat.zero_le _)⟩
      | some n =>
          obtain ⟨d, x, y, u, hs, hn, _⟩ := paquet_split hp
          rw [hp] at h
          cases h
          rw [hs, hn, List.length_append, length_trame]
          exact ⟨Nat.succ_pos _, Nat.le_add_right _ _⟩

theorem yylex_best {s : Texte} {a k : Nat} (h : automate.best s = some (a, k)) :
    Armator.yylex s = (regleDe a, s.take k) :: Armator.yylex (s.drop k) := by
  cases s with
  | nil => cases h
  | cons c s =>
      rw [best_cons] at h
      cases hp : paquet (c :: s) with
      | none =>
          rw [hp] at h
          cases h
          rw [yylex_seule c s hp, regleDe_choix]
          rfl
      | some n =>
          obtain ⟨d, x, y, u, hs, hn, hd, hx, hy⟩ := paquet_split hp
          rw [hp] at h
          cases h
          rw [hs, hn, yylex_trame d u x y hd hx hy, List.take_left, List.drop_left]
          rfl

theorem yylex_mem (s : Texte) : ∀ x ∈ Armator.yylex s,
    x = (some .plus, [octet '+']) ∨ x = (some .moins, [octet '-']) ∨
      (∃ d h l, x = (some .trame, trame d h l) ∧ Undelimited d ∧ Hex.isDigit h = true ∧
        Hex.isDigit l = true) ∨
      (∃ c, x = (some .autre, [c])) ∨ x = (none, [octet '\n']) := by
  induction hn : s.length using Nat.strong_induction_on generalizing s with
  | _ n ih =>
      cases s with
      | nil =>
          intro x hx
          rw [yylex_nil] at hx
          cases hx
      | cons c s =>
          intro x hx
          cases hp : paquet (c :: s) with
          | none =>
              rw [yylex_seule c s hp] at hx
              rcases List.mem_cons.mp hx with rfl | hx
              · rw [regleSeule]
                by_cases hplus : c = octet '+'
                · rw [if_pos hplus, hplus]
                  exact Or.inl rfl
                · rw [if_neg hplus]
                  by_cases hmoins : c = octet '-'
                  · rw [if_pos hmoins, hmoins]
                    exact Or.inr (Or.inl rfl)
                  · rw [if_neg hmoins]
                    by_cases hligne : c = octet '\n'
                    · rw [if_neg (not_not.mpr hligne), hligne]
                      exact Or.inr (Or.inr (Or.inr (Or.inr rfl)))
                    · rw [if_pos hligne]
                      exact Or.inr (Or.inr (Or.inr (Or.inl ⟨c, rfl⟩)))
              · exact ih s.length (by rw [← hn, List.length_cons]; omega) s rfl x hx
          | some k =>
              obtain ⟨d, h, l, u, hs, _, hd, hh, hl⟩ := paquet_split hp
              rw [hs, yylex_trame d u h l hd hh hl] at hx
              rcases List.mem_cons.mp hx with rfl | hx
              · exact Or.inr (Or.inr (Or.inl ⟨d, h, l, rfl, hd, hh, hl⟩))
              · refine ih u.length ?_ u rfl x hx
                rw [← hn, hs, List.length_append, length_trame]
                omega

theorem yylex_flatten (s : Texte) : ((Armator.yylex s).map Prod.snd).flatten = s := by
  induction hn : s.length using Nat.strong_induction_on generalizing s with
  | _ n ih =>
      cases s with
      | nil => rw [yylex_nil]; rfl
      | cons c s =>
          obtain ⟨a, k, hb⟩ := best_ne_none (List.cons_ne_nil c s)
          have hk := best_bounds hb
          rw [yylex_best hb, List.map_cons, List.flatten_cons,
            ih _ (by rw [List.length_drop]; omega) _ rfl, List.take_append_drop]

end Selection

end Flex

end Armator
