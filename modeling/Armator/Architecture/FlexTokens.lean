import Armator.Architecture.FlexRun

namespace Armator

namespace Flex

open Placed

namespace Guts

theorem Pret.mene {g : Guts} {R : Texte} (h : g.Pret R) (hlen : Courtes R) :
    ∃ i, Mene g .debut i ∧ g.Cote R i := by
  have hplace := h.forme.place
  have hle : g.yy_c_buf_p ≤ g.yy_n_chars := h.contient.1
  have hetape : g.etape .debut =
      .ok (.aller g.rendu (.yy_match 1 (g.yy_c_buf_p + 0) g.yy_c_buf_p)) := by
    have hlt : g.yy_n_chars < g.yy_buf_size := hplace
    rw [etape, ecrireCar_eq g _ _ (by omega)]
    rfl
  have hen : g.rendu.EnRoute 1 0 g.yy_c_buf_p R := by
    refine ⟨h.forme, h.contient, hle, by decide, ⟨none, rfl, marque_none _ _ _⟩, ?_⟩
    intro hfin
    exact absurd hfin (by decide)
  obtain ⟨i, hmene, hcote⟩ := hen.mene hlen
  have hsame : g.Prompt R g.rendu := g.prompt_same R rfl
  exact ⟨i, .suite hetape hmene, hcote.trans hsame⟩

end Guts

open Guts

def Actions.effet {δ : Type} (A : Actions δ) (d : δ) (l : Lu) : Except Fault δ :=
  (A.regle d l).map Prod.fst

def poursuivre {δ : Type} (A : Actions δ) (n : Nat) (d : δ) : Issue → Except Fault δ
  | .aller g e => executer A n g e d
  | .action act g => A.regle d (g.lu act) >>= fun p => executer A n (g.agir p.2) .debut p.1
  | .retour => A.eof d

theorem executer_succ {δ : Type} (A : Actions δ) (n : Nat) (g : Guts) (e : Etiquette) (d : δ) :
    executer A (n + 1) g e d = g.etape e >>= poursuivre A n d := by
  rw [executer]
  cases g.etape e with
  | error f => rfl
  | ok i => cases i <;> rfl

theorem executer_mene {δ : Type} (A : Actions δ) {g : Guts} {e : Etiquette} {i : Issue}
    (h : Mene g e i) : ∃ N, ∀ n d, executer A (N + n) g e d = poursuivre A n d i := by
  induction h with
  | fin h _ =>
      refine ⟨1, fun n d => ?_⟩
      rw [Nat.add_comm, executer_succ, h, Fallible.ok_bind]
  | suite h _ ih =>
      obtain ⟨N, hN⟩ := ih
      refine ⟨N + 1, fun n d => ?_⟩
      rw [Nat.add_right_comm, executer_succ, h, Fallible.ok_bind]
      exact hN n d

def Lu.lexeme (l : Lu) : Option Regle × Texte := (regleDe l.act, l.yytext)

def Avant (ys : List Lecture) (lus : List Lu) : Prop := ∀ l ∈ lus, ∃ zs, l.lectures = zs ++ ys

def Promptes (ls : List Lecture) (R : Texte) (lus : List Lu) : Prop :=
  ∀ (ts : List Texte) (xs ys : List Lecture), ls = xs ++ ys → R = ts.flatten ++ flux ys →
    (∀ t ∈ ts, Complet t) → Avant ys (lus.take ts.length)

theorem Complet.best {t u : Texte} {a k : Nat} (ht : Complet t)
    (h : automate.best (t ++ u) = some (a, k)) : k = t.length := by
  obtain ⟨v, c, s, last, _, _, hadv, hfin⟩ := ht
  have hs := advance_vivant (by decide) hadv
  rw [automate.best_advance u hadv,
    automate.scan_final _ _ _ _ fun c => step_final c hs hfin, mark_eq, accepte,
    if_neg (final_accepte hs hfin)] at h
  cases h
  rfl

theorem executer_pret {δ : Type} (A : Actions δ) {g : Guts} {R : Texte} (h : g.Pret R)
    (hlen : Courtes R) (d : δ) :
    ∃ N lus, lus.map Lu.lexeme = Armator.yylex R ∧
      (∀ n, executer A (N + n) g .debut d = Fallible.run A.effet d lus >>= A.eof) ∧
      Promptes g.lectures R lus := by
  induction hm : R.length using Nat.strong_induction_on generalizing g R d with
  | _ m ih =>
      obtain ⟨i, hmene, hcote⟩ := h.mene hlen
      obtain ⟨N, hN⟩ := executer_mene A hmene
      cases hcote with
      | retour hnil =>
          subst hnil
          refine ⟨N, [], yylex_nil.symm, fun n => hN n d, fun ts xs ys _ _ _ => ?_⟩
          rw [List.take_nil]
          intro l hl
          cases hl
      | action hemis hp =>
          rename_i g' a k
          have hb := best_bounds hemis.best
          have hdrop : (R.drop k).length < m := by
            rw [List.length_drop]
            omega
          have hsuite (d : δ) (texte : Nat → Byte) :=
            ih _ hdrop (hemis.suivant texte) (hlen.drop k) d rfl
          have hlex : ∀ lus, lus.map Lu.lexeme = Armator.yylex (R.drop k) →
              (g'.lu a :: lus).map Lu.lexeme = Armator.yylex R := by
            intro lus hlus
            rw [yylex_best hemis.best, List.map_cons, hlus, Lu.lexeme, hemis.texte]
            rfl
          have havant : ∀ lus, Promptes g'.lectures (R.drop k) lus →
              Promptes g.lectures R (g'.lu a :: lus) := by
            intro lus hlus ts xs ys hxs hR hts
            cases ts with
            | nil =>
                intro l hl
                cases hl
            | cons t ts =>
                have ht := hts t List.mem_cons_self
                rw [List.flatten_cons, List.append_assoc] at hR
                have hk := ht.best (hR ▸ hemis.best)
                have hR' : R = t ++ ts.flatten ++ flux ys := by rw [hR, List.append_assoc]
                obtain ⟨zs, hzs⟩ := hp xs ys t ts.flatten hxs hR' ht
                rw [List.length_cons, List.take_succ_cons]
                intro l hl
                rcases List.mem_cons.mp hl with rfl | hl
                · exact ⟨zs, hzs⟩
                · refine hlus ts zs ys hzs ?_ (fun t ht => hts t (List.mem_cons_of_mem _ ht)) l hl
                  rw [hR, hk, List.drop_left]
          cases hr : A.regle d (g'.lu a) with
          | error f =>
              obtain ⟨_, lus, hlus, _, hav⟩ := hsuite d fun _ => 0
              refine ⟨N, g'.lu a :: lus, hlex lus hlus, fun n => ?_, havant lus hav⟩
              rw [hN, poursuivre, Fallible.run, Actions.effet, hr]
              rfl
          | ok p =>
              obtain ⟨N', lus, hlus, hrun, hav⟩ := hsuite p.1 p.2
              refine ⟨N + N', g'.lu a :: lus, hlex lus hlus, fun n => ?_, havant lus hav⟩
              rw [Nat.add_assoc, hN, poursuivre, Fallible.run, Actions.effet, hr]
              exact hrun n

theorem yyCreateBuffer_pret (memoire : Nat → Byte) (lectures : List Lecture) :
    ∃ g, (yyCreateBuffer memoire lectures >>= fun g => g.yyLoadBufferState 0) = .ok g ∧
      g.Pret (flux lectures) ∧ g.lectures = lectures := by
  rw [yyCreateBuffer, yyFlushBuffer_eq, Fallible.ok_bind, yyLoadBufferState_eq]
  refine ⟨_, rfl, ⟨⟨?_, ?_, ?_, ?_, ?_⟩, ?_⟩, rfl⟩
  · change 0 < YY_BUF_SIZE
    decide
  · change YY_BUF_SIZE < 2 ^ 31
    decide
  · change Function.update (Function.update (Function.update memoire 0 0) 1 0) 0
      (Function.update (Function.update memoire 0 0) 1 0 0) 0 = 0
    rw [Function.update_self, Function.update_of_ne (by decide), Function.update_self]
  · intro _
    rfl
  · intro h
    cases h
  · exact ⟨Nat.le_refl 0, rfl⟩

theorem yylex_eq {δ : Type} (A : Actions δ) (memoire : Nat → Byte) (lectures : List Lecture)
    (hlen : Courtes (flux lectures)) (d : δ) :
    ∃ N lus, lus.map Lu.lexeme = Armator.yylex (flux lectures) ∧
      (∀ n, Flex.yylex A memoire lectures (N + n) d = Fallible.run A.effet d lus >>= A.eof) ∧
      Promptes lectures (flux lectures) lus := by
  obtain ⟨g, hg, hpret, hl⟩ := yyCreateBuffer_pret memoire lectures
  obtain ⟨N, lus, hlus, hrun, hav⟩ := executer_pret A hpret hlen d
  rw [hl] at hav
  refine ⟨N, lus, hlus, fun n => ?_, hav⟩
  rw [← hrun n, Flex.yylex]
  cases hc : yyCreateBuffer memoire lectures with
  | error e =>
      rw [hc] at hg
      cases hg
  | ok g₀ =>
      rw [hc, Fallible.ok_bind] at hg
      rw [Fallible.ok_bind, hg, Fallible.ok_bind]

end Flex

end Armator
