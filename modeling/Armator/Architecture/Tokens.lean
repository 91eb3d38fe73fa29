import Armator.Architecture.PacketText
import Armator.Simulator.Lexer

namespace Armator

open RegularExpression (char)

theorem mem_octets (c : Byte) : c ∈ octets :=
  List.mem_map.mpr ⟨c.toNat, List.mem_range.mpr c.isLt, BitVec.ofNat_toNat _ c⟩

theorem mem_octets_filter (f : Byte → Bool) (c : Byte) : c ∈ octets.filter f ↔ f c = true := by
  rw [List.mem_filter, and_iff_right (mem_octets c)]

theorem mem_charge (d : Texte) : d ∈ charge.matches' ↔ Undelimited d := by
  rw [charge, Lexing.mem_star_oneOf]
  refine forall₂_congr fun c _ => ?_
  rw [mem_octets_filter, decide_eq_true_iff]

theorem mem_HEX (s : Texte) : s ∈ HEX.matches' ↔ ∃ h, Hex.isDigit h = true ∧ s = [h] := by
  rw [HEX, Lexing.mem_oneOf]
  simp only [mem_octets_filter]

theorem mem_trame (t : Texte) :
    t ∈ (char (octet '$') * charge * char (octet '#') * HEX * HEX).matches' ↔
      ∃ d h l, t = trame d h l ∧ Undelimited d ∧ Hex.isDigit h = true ∧ Hex.isDigit l = true := by
  simp only [RegularExpression.matches'_mul, RegularExpression.matches'_char, Language.mem_mul,
    mem_HEX, mem_charge]
  constructor
  · rintro ⟨_, ⟨_, ⟨_, ⟨_, rfl, d, hd, rfl⟩, _, rfl, rfl⟩, _, ⟨h, hh, rfl⟩, rfl⟩, _, ⟨l, hl, rfl⟩, rfl⟩
    refine ⟨d, h, l, ?_, hd, hh, hl⟩
    simp [trame]
  · rintro ⟨d, h, l, rfl, hd, hh, hl⟩
    refine ⟨_, ⟨_, ⟨_, ⟨_, rfl, d, hd, rfl⟩, _, rfl, rfl⟩, _, ⟨h, hh, rfl⟩, rfl⟩, _, ⟨l, hl, rfl⟩, ?_⟩
    simp [trame]

theorem trame_start {d d' s s' : Texte} {h l h' l' : Byte} (hd : Undelimited d)
    (hd' : Undelimited d') (hh : Hex.isDigit h = true) (hl : Hex.isDigit l = true)
    (hh' : Hex.isDigit h' = true) (hl' : Hex.isDigit l' = true)
    (he : trame d h l ++ s = trame d' h' l' ++ s') :
    (trame d h l).length = (trame d' h' l').length := by
  have hp := paquet_trame d s h l hd hh hl
  rw [he, paquet_trame d' s' h' l' hd' hh' hl'] at hp
  exact (Option.some.inj hp).symm

section Longest

variable (d s : Texte) (h l : Byte)

theorem longest_trame (hd : Undelimited d) (hh : Hex.isDigit h = true) (hl : Hex.isDigit l = true) :
    Lexing.longest (char (octet '$') * charge * char (octet '#') * HEX * HEX) (trame d h l ++ s) =
      (trame d h l).length := by
  refine Lexing.longest_append _ _ s ((mem_trame _).mpr ⟨d, h, l, rfl, hd, hh, hl⟩) ?_
  intro t u he ht
  obtain ⟨d', h', l', rfl, hd', hh', hl'⟩ := (mem_trame t).mp ht
  exact Nat.le_of_eq (trame_start hd hd' hh hl hh' hl' he).symm

theorem longest_no_trame (hs : paquet s = none) :
    Lexing.longest (char (octet '$') * charge * char (octet '#') * HEX * HEX) s = 0 := by
  refine Lexing.longest_eq_zero _ s ?_
  rintro t u rfl _ ht
  obtain ⟨d, h, l, rfl, hd, hh, hl⟩ := (mem_trame t).mp ht
  rw [paquet_trame d u h l hd hh hl] at hs
  cases hs

end Longest

-- The rule for a character that begins no frame; none for a newline.
def regleSeule (c : Byte) : Option Regle :=
  if c = octet '+' then some .plus
  else if c = octet '-' then some .moins
  else if c ≠ octet '\n' then some .autre
  else none

theorem select_trame (d s : Texte) (h l : Byte) (hd : Undelimited d) (hh : Hex.isDigit h = true)
    (hl : Hex.isDigit l = true) :
    Lexing.select regles (trame d h l ++ s) = some (.trame, (trame d h l).length) := by
  have ht := longest_trame d s h l hd hh hl
  have hlen := length_trame d h l
  have hone (cs : List Byte) : Lexing.longest (Lexing.oneOf cs) (trame d h l ++ s) =
      if octet '$' ∈ cs then 1 else 0 := by
    rw [trame_append]
    exact Lexing.longest_oneOf cs _ _
  have hplus : octet '$' ∉ [octet '+'] := by decide
  have hmoins : octet '$' ∉ [octet '-'] := by decide
  have hautre : octet '$' ∈ octets.filter fun c => c ≠ octet '\n' := by
    rw [mem_octets_filter]
    decide
  simp only [regles, Lexing.select, hone, ht, if_neg hplus, if_neg hmoins, if_pos hautre]
  simp [hlen]

theorem select_seule (c : Byte) (s : Texte) (hp : paquet (c :: s) = none) :
    Lexing.select regles (c :: s) = (regleSeule c).map fun r => (r, 1) := by
  have hf : c ∈ octets.filter (fun c => decide (c ≠ octet '\n')) ↔ c ≠ octet '\n' := by
    rw [mem_octets_filter, decide_eq_true_iff]
  simp only [regles, Lexing.select, Lexing.longest_oneOf, longest_no_trame _ hp, hf,
    List.mem_singleton, regleSeule]
  have hpm : octet '+' ≠ octet '-' := by decide
  have hpn : octet '+' ≠ octet '\n' := by decide
  have hmn : octet '-' ≠ octet '\n' := by decide
  by_cases hplus : c = octet '+'
  · simp [hplus, hpm, hpn]
  · by_cases hmoins : c = octet '-'
    · simp [hmoins, hmn, hpm.symm]
    · by_cases hligne : c = octet '\n'
      · simp [hligne, hpn.symm, hmn.symm]
      · simp [hplus, hmoins, hligne]

theorem yylex_nil : yylex [] = [] := Lexing.tokens_nil regles

theorem yylex_trame (d s : Texte) (h l : Byte) (hd : Undelimited d) (hh : Hex.isDigit h = true)
    (hl : Hex.isDigit l = true) :
    yylex (trame d h l ++ s) = (some .trame, trame d h l) :: yylex s :=
  Lexing.tokens_rule regles .trame _ s (List.cons_ne_nil _ _) (select_trame d s h l hd hh hl)

theorem yylex_seule (c : Byte) (s : Texte) (hp : paquet (c :: s) = none) :
    yylex (c :: s) = (regleSeule c, [c]) :: yylex s := by
  have hs := select_seule c s hp
  cases hr : regleSeule c with
  | none =>
      rw [hr] at hs
      exact Lexing.tokens_default regles c s hs
  | some r =>
      rw [hr] at hs
      exact Lexing.tokens_rule regles r [c] s (List.cons_ne_nil _ _) hs

theorem corps_noise (g s : Texte) (hg : octet '#' ∉ g) (hs : s = [] ∨ s.head? = some (octet '$')) :
    corps (g ++ s) = none := by
  induction g with
  | nil =>
      rcases hs with rfl | hs
      · rfl
      · cases s with
        | nil => rfl
        | cons c s =>
            cases hs
            rw [List.nil_append, corps, if_neg (by decide), if_pos rfl]
  | cons c g ih =>
      have hc : c ≠ octet '#' := fun he => hg (he ▸ List.mem_cons_self)
      rw [List.cons_append, corps, if_neg hc, ih fun hm => hg (List.mem_cons_of_mem c hm)]
      split <;> rfl

theorem yylex_noise (g s : Texte) (hg : octet '#' ∉ g)
    (hs : s = [] ∨ s.head? = some (octet '$')) :
    yylex (g ++ s) = g.map (fun c => (regleSeule c, [c])) ++ yylex s := by
  induction g with
  | nil => rfl
  | cons c g ih =>
      have hg' : octet '#' ∉ g := fun hm => hg (List.mem_cons_of_mem c hm)
      have hp : paquet (c :: (g ++ s)) = none := by
        rw [paquet, corps_noise g s hg' hs]
        split <;> rfl
      rw [List.cons_append, yylex_seule c _ hp, ih hg', List.map_cons, List.cons_append]

end Armator
