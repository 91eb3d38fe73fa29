import Armator.Architecture.FlexTokens
import Armator.Simulator.Session

namespace Armator

namespace Flex

-- The compressed tables choose as the rules do, on every text; the sweep starts in the state 1, the
-- states that it goes through are `3 :: vivants`, and 13 is where it jams.
theorem tables_select (s : Texte) :
    Lexing.select regles s = (automate.best s).bind (fun p => (regleDe p.1).map fun r => (r, p.2)) ∧
      (s ≠ [] → ∃ a k, automate.best s = some (a, k) ∧ 0 < k ∧ k ≤ s.length) ∧
      1 ∈ vivants ∧ ∀ state ∈ 3 :: vivants, ∀ c : Byte,
        ∃ t ∈ 13 :: 3 :: vivants, lire yyEc c.toNat >>= transition state = .ok t := by
  have hclosed : ∀ state ∈ 3 :: vivants, ∀ k ≤ 7, suivant state k ∈ 13 :: 3 :: vivants := by decide
  refine ⟨select_best s, fun hs => ?_, by decide, fun state hstate c => ?_⟩
  · obtain ⟨a, k, h⟩ := best_ne_none hs
    exact ⟨a, k, h, best_bounds h⟩
  · rw [lire_yyEc, Fallible.ok_bind]
    by_cases hc : c = 0
    · rw [hc]
      exact ⟨_, hclosed state hstate _ (by decide), transition_suivant hstate (by decide)⟩
    · rw [yyEc_ne_zero hc]
      exact ⟨_, hclosed state hstate _ (classe_le c), transition_suivant hstate (classe_le c)⟩

section Lexemes

theorem jeton_lexeme {l : Lu} {s : Texte} (call : Call) (h : l.lexeme ∈ Armator.yylex s) :
    (l.jeton call).lexeme = l.lexeme := by
  obtain ⟨act, yytext, suite, lectures⟩ := l
  have hmem := yylex_mem s _ h
  match act with
  | 1 =>
      rcases hmem with he | he | ⟨_, _, _, he, _⟩ | ⟨_, he⟩ | he
      all_goals cases he
      rfl
  | 2 =>
      rcases hmem with he | he | ⟨_, _, _, he, _⟩ | ⟨_, he⟩ | he
      all_goals cases he
      rfl
  | 3 => rfl
  | 4 =>
      rcases hmem with he | he | ⟨_, _, _, he, _⟩ | ⟨_, he⟩ | he
      all_goals cases he
      rfl
  | 0 =>
      rcases hmem with he | he | ⟨_, _, _, he, _⟩ | ⟨_, he⟩ | he
      all_goals cases he
      rfl
  | n + 5 =>
      rcases hmem with he | he | ⟨_, _, _, he, _⟩ | ⟨_, he⟩ | he
      all_goals cases he
      rfl

def jetons (calls : Nat → Call) (i : Nat) : List Lu → List Jeton
  | [] => []
  | l :: lus => l.jeton (calls i) :: jetons calls (i + 1) lus

theorem jetons_lexeme {lus : List Lu} {s : Texte} (calls : Nat → Call) (i : Nat)
    (h : ∀ l ∈ lus, l.lexeme ∈ Armator.yylex s) :
    (jetons calls i lus).map Jeton.lexeme = lus.map Lu.lexeme := by
  induction lus generalizing i with
  | nil => rfl
  | cons l lus ih =>
      rw [jetons, List.map_cons, List.map_cons, jeton_lexeme (calls i) (h l List.mem_cons_self),
        ih _ fun l hl => h l (List.mem_cons_of_mem _ hl)]

theorem jetons_appele (calls : Nat → Call) (lus : List Lu) (i j : Nat) (t : Jeton)
    (h : (jetons calls i lus)[j]? = some t) : Appele (calls (i + j)) t := by
  induction lus generalizing i j with
  | nil => cases h
  | cons l lus ih =>
      cases j with
      | zero =>
          cases h
          rw [Lu.jeton]
          split
          all_goals first | exact trivial | rfl
      | succ j =>
          have hj := ih (i + 1) j h
          rwa [Nat.add_right_comm] at hj

theorem run_parserActions (handler : Byte → Option Gdb.Handler) (calls : Nat → Call)
    (textes : Nat → Nat → Byte) (lus : List Lu) (d : Parser) (i : Nat) :
    (Fallible.run (parserActions handler calls textes).effet (d, i) lus >>=
        (parserActions handler calls textes).eof).map Prod.fst =
      Fallible.run (Parser.action handler) d (jetons calls i lus) >>= Parser.handleError := by
  induction lus generalizing d i with
  | nil =>
      change ((d.handleError >>= fun d => Except.ok (d, i)).map Prod.fst) = d.handleError
      cases d.handleError <;> rfl
  | cons l lus ih =>
      have hone : (parserActions handler calls textes).effet (d, i) l =
          (d.action handler (l.jeton (calls i))).map fun d => (d, i + 1) := by
        change ((d.action handler (l.jeton (calls i)) >>= fun d =>
          Except.ok ((d, i + 1), textes i)).map Prod.fst) = _
        cases d.action handler (l.jeton (calls i)) <;> rfl
      rw [Fallible.run, hone, jetons, Fallible.run]
      cases d.action handler (l.jeton (calls i)) with
      | error e => rfl
      | ok d' => exact ih d' (i + 1)

end Lexemes

theorem scanner_segmentation (handler : Byte → Option Gdb.Handler) (calls : Nat → Call)
    (textes : Nat → Nat → Byte) (memoire : Nat → Byte) (lectures : List Lecture) (d : Parser)
    (hlen : Courtes (flux lectures)) :
    ∃ N ts, ts.map Jeton.lexeme = Armator.yylex (flux lectures) ∧
      (∀ i t, ts[i]? = some t → Appele (calls i) t) ∧ ∀ n,
        (Flex.yylex (parserActions handler calls textes) memoire lectures (N + n)
            (d, 0)).map Prod.fst =
          Fallible.run (Parser.action handler) d ts >>= Parser.handleError := by
  obtain ⟨N, lus, hlus, hrun, _⟩ :=
    yylex_eq (parserActions handler calls textes) memoire lectures hlen (d, 0)
  refine ⟨N, jetons calls 0 lus, ?_, fun i t ht => ?_, fun n => ?_⟩
  · rw [jetons_lexeme calls 0 fun l hl => hlus ▸ List.mem_map_of_mem hl, hlus]
  · have ha := jetons_appele calls lus 0 i t ht
    rwa [Nat.zero_add] at ha
  · rw [hrun n, run_parserActions]

theorem scanner_segmentation_cut :
    ∃ N ts, ts.map Jeton.lexeme = [(some .trame, texte "$?#3f"), (some .plus, texte "+")] ∧ ∀ n,
      (Flex.yylex (parserActions Gdb.handler (fun _ => Call.blank) fun _ _ => 0) (fun _ => 0)
          [.recu (octet '$') (texte "?#"), .recu (octet '3') [], .recu (octet 'f') (texte "+")]
          (N + n)
          (gdbScanner (afterReset []) (fun _ => 0) (fun _ => 0) fun _ => 0, 0)).map Prod.fst =
        Fallible.run (Parser.action Gdb.handler)
          (gdbScanner (afterReset []) (fun _ => 0) (fun _ => 0) fun _ => 0) ts >>=
            Parser.handleError := by
  obtain ⟨N, ts, hts, _, hrun⟩ := scanner_segmentation Gdb.handler (fun _ => Call.blank) (fun _ _ => 0)
    (fun _ => 0)
    [.recu (octet '$') (texte "?#"), .recu (octet '3') [], .recu (octet 'f') (texte "+")]
    (gdbScanner (afterReset []) (fun _ => 0) (fun _ => 0) fun _ => 0)
    (courtes_of_length (by decide))
  refine ⟨N, ts, ?_, hrun⟩
  rw [hts]
  change Armator.yylex (trame (texte "?") (octet '3') (octet 'f') ++ [octet '+']) = _
  rw [yylex_trame _ _ _ _ (by decide) (by decide) (by decide), yylex_seule _ _ rfl, yylex_nil]
  rfl

section Prompt

theorem advance_payload (d : Texte) (hd : Undelimited d) (n : Nat) (last : Option (Nat × Nat))
    {s : Nat} (hs : s = 6 ∨ s = 9) :
    ∃ s' last', (s' = 6 ∨ s' = 9) ∧ automate.advance s n last d = some (s', last') := by
  induction d generalizing s n last with
  | nil => exact ⟨s, last, hs, rfl⟩
  | cons c d ih =>
      obtain ⟨h1, h2⟩ := hd c List.mem_cons_self
      have hstep := step_payload c hs
      rw [if_neg h2, if_neg h1] at hstep
      obtain ⟨s', last', hs', hadv⟩ := ih (fun x hx => hd x (List.mem_cons_of_mem c hx))
        (n + 1) (automate.mark s n last) (Or.inr rfl)
      refine ⟨s', last', hs', ?_⟩
      rw [Munch.Automaton.advance, hstep, Option.bind_some]
      exact hadv

theorem complet_trame (d : Texte) (h l : Byte) (hd : Undelimited d) (hh : Hex.isDigit h = true)
    (hl : Hex.isDigit l = true) : Complet (trame d h l) := by
  have hdollar := step_start (octet '$')
  rw [if_neg (by decide), if_pos rfl] at hdollar
  obtain ⟨s, last, hs, hadv⟩ := advance_payload d hd 1 none (Or.inl rfl)
  have hhash := step_payload (octet '#') hs
  have hhigh := step_checksum h (Or.inl rfl)
  have hlow := step_checksum l (Or.inr rfl)
  rw [if_pos rfl] at hhash
  rw [if_pos hh] at hhigh
  rw [if_pos hl] at hlow
  have hall : ∃ last', automate.advance 1 0 none (trame d h l) = some (12, last') := by
    rw [trame, Munch.Automaton.advance, hdollar, Option.bind_some]
    change ∃ last', automate.advance 6 1 none (d ++ [octet '#', h, l]) = some (12, last')
    rw [automate.advance_append, hadv, Option.bind_some, Munch.Automaton.advance, hhash,
      Option.bind_some, Munch.Automaton.advance, hhigh, Option.bind_some, Munch.Automaton.advance,
      hlow]
    exact ⟨_, rfl⟩
  obtain ⟨last', hall⟩ := hall
  refine ⟨octet '$' :: (d ++ [octet '#', h]), l, 12, last', by simp [trame], ?_, hall, by decide⟩
  rintro rfl
  exact absurd hl (by decide)

def Conforme (x : Option Regle × Texte) : Prop :=
  x.1 = some .plus ∨ x.1 = some .moins ∨ x.1 = some .trame

theorem complet_conforme {s : Texte} {x : Option Regle × Texte} (hx : x ∈ Armator.yylex s)
    (hc : Conforme x) : Complet x.2 := by
  rcases yylex_mem s x hx with rfl | rfl | ⟨d, h, l, rfl, hd, hh, hl⟩ | ⟨c, rfl⟩ | rfl
  · exact ⟨[], octet '+', 7, none, rfl, by decide, rfl, by decide⟩
  · exact ⟨[], octet '-', 8, none, rfl, by decide, rfl, by decide⟩
  · exact complet_trame d h l hd hh hl
  · rcases hc with hc | hc | hc
    all_goals cases hc
  · rcases hc with hc | hc | hc
    all_goals cases hc

theorem Complet.yylex {t : Texte} (ht : Complet t) :
    ∃ r, ∀ u, Armator.yylex (t ++ u) = (r, t) :: Armator.yylex u := by
  obtain ⟨v, c, s, last, hv, _, hadv, hfin⟩ := ht
  have hs := advance_vivant (by decide) hadv
  have hbest : ∀ u, automate.best (t ++ u) = some (yyAccept.getD s 0, t.length) := by
    intro u
    rw [automate.best_advance u hadv, automate.scan_final _ _ _ _ fun c => step_final c hs hfin,
      Guts.mark_eq, accepte, if_neg (final_accepte hs hfin)]
    rfl
  refine ⟨regleDe (yyAccept.getD s 0), fun u => ?_⟩
  rw [yylex_best (hbest u), List.take_left, List.drop_left]

theorem yylex_complets (ts : List Texte) (hts : ∀ t ∈ ts, Complet t) (u : Texte) :
    Armator.yylex (ts.flatten ++ u) = Armator.yylex ts.flatten ++ Armator.yylex u := by
  induction ts with
  | nil =>
      rw [List.flatten_nil, yylex_nil]
      rfl
  | cons t ts ih =>
      obtain ⟨r, hr⟩ := (hts t List.mem_cons_self).yylex
      rw [List.flatten_cons, List.append_assoc, hr, hr, ih fun t ht => hts t (List.mem_cons_of_mem _ ht)]
      rfl

end Prompt

theorem complete_packets_first {δ : Type} (A : Actions δ) (memoire : Nat → Byte)
    (xs ys : List Lecture) (hlen : Courtes (flux (xs ++ ys)))
    (hx : ∀ x ∈ Armator.yylex (flux xs), Conforme x) (d : δ) :
    ∃ N lus, lus.map Lu.lexeme = Armator.yylex (flux xs) ++ Armator.yylex (flux ys) ∧
      (∀ n, Flex.yylex A memoire (xs ++ ys) (N + n) d = Fallible.run A.effet d lus >>= A.eof) ∧
      ∀ l ∈ lus.take (Armator.yylex (flux xs)).length, ∃ zs, l.lectures = zs ++ ys := by
  obtain ⟨N, lus, hlus, hrun, hprompt⟩ := yylex_eq A memoire (xs ++ ys) hlen d
  have hts : ∀ t ∈ (Armator.yylex (flux xs)).map Prod.snd, Complet t := by
    intro t ht
    obtain ⟨x, hx', rfl⟩ := List.mem_map.mp ht
    exact complet_conforme hx' (hx x hx')
  have hflat := yylex_flatten (flux xs)
  refine ⟨N, lus, ?_, hrun, ?_⟩
  · rw [hlus, flux_append]
    have happ := yylex_complets _ hts (flux ys)
    rwa [hflat] at happ
  · have hav := hprompt _ xs ys rfl (by rw [hflat, flux_append]) hts
    rwa [List.length_map] at hav

theorem complete_packets_first_reason :
    ∃ N lus, lus.map Lu.lexeme =
        [(some .plus, texte "+"), (some .trame, texte "$?#3f"), (some .autre, texte "x")] ∧
      (∀ n, Flex.yylex (⟨fun d _ => .ok (d + 1, fun _ => 0), .ok⟩ : Actions Nat) (fun _ => 0)
        [.recu (octet '+') (texte "$?#3"), .recu (octet 'f') [], .recu (octet 'x') []] (N + n) 0 =
          Fallible.run (Actions.effet ⟨fun d _ => .ok (d + 1, fun _ => 0), .ok⟩) 0 lus >>= .ok) ∧
      ∀ l ∈ lus.take 2, ∃ zs, l.lectures = zs ++ [.recu (octet 'x') []] := by
  have hyylex : Armator.yylex (flux [.recu (octet '+') (texte "$?#3"), .recu (octet 'f') []]) =
      [(some .plus, texte "+"), (some .trame, texte "$?#3f")] := by
    change Armator.yylex (octet '+' :: (trame (texte "?") (octet '3') (octet 'f') ++ [])) = _
    rw [yylex_seule _ _ rfl, yylex_trame _ _ _ _ (by decide) (by decide) (by decide), yylex_nil]
    rfl
  have hrest : Armator.yylex (flux [.recu (octet 'x') []]) = [(some .autre, texte "x")] := by
    change Armator.yylex [octet 'x'] = _
    rw [yylex_seule _ _ rfl, yylex_nil]
    rfl
  have h := complete_packets_first (⟨fun d _ => .ok (d + 1, fun _ => 0), .ok⟩ : Actions Nat) (fun _ => 0)
    [.recu (octet '+') (texte "$?#3"), .recu (octet 'f') []] [.recu (octet 'x') []]
    (courtes_of_length (by decide))
    (by
      rw [hyylex]
      intro x hx
      rcases List.mem_cons.mp hx with rfl | hx
      · exact Or.inl rfl
      · rw [List.mem_singleton.mp hx]
        exact Or.inr (Or.inr rfl)) 0
  rwa [hyylex, hrest] at h

end Flex

end Armator
