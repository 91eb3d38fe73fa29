import Armator.Architecture.FlexRefill

namespace Armator

namespace Flex

open Placed

-- A token that no further character prolongs, and that `yy_match` reaches by itself.
def Complet (t : Texte) : Prop :=
  ∃ u c s last, t = u ++ [c] ∧ c ≠ 0 ∧ automate.advance 1 0 none t = some (s, last) ∧ Final s

theorem advance_vivant {s n t : Nat} {last last' : Option (Nat × Nat)} {w : Texte}
    (hs : s ∈ vivants) (h : automate.advance s n last w = some (t, last')) : t ∈ vivants := by
  induction w generalizing s n last with
  | nil =>
      cases h
      exact hs
  | cons c w ih =>
      rw [Munch.Automaton.advance] at h
      obtain ⟨u, hu, h⟩ := Option.bind_eq_some_iff.mp h
      exact ih (step_vivant c hs hu).1 h

theorem Complet.advance {t u : Texte} {s : Nat} {last : Option (Nat × Nat)} (ht : Complet t)
    (h : automate.advance 1 0 none (t ++ u) = some (s, last)) :
    Final s ∧ ∃ v c, t ++ u = v ++ [c] ∧ c ≠ 0 := by
  obtain ⟨v, c, s', last', htv, hc, hadv, hfin⟩ := ht
  rw [automate.advance_append, hadv, Option.bind_some] at h
  cases u with
  | nil =>
      cases h
      exact ⟨hfin, v, c, by rw [List.append_nil, htv], hc⟩
  | cons d u =>
      rw [Munch.Automaton.advance, step_final d (advance_vivant (by decide) hadv) hfin] at h
      cases h

-- No `$` is followed by so many bytes without a delimiter that the buffer cannot grow to hold them.
def Courtes (s : Texte) : Prop :=
  ∀ u d v, s = u ++ octet '$' :: (d ++ v) → Undelimited d → d.length + 5 < 2 ^ 30

theorem courtes_of_length {s : Texte} (h : s.length + 4 < 2 ^ 30) : Courtes s := by
  intro u d v hs _
  have hle := congrArg List.length hs
  rw [List.length_append, List.length_cons, List.length_append] at hle
  omega

theorem Courtes.drop {s : Texte} (h : Courtes s) (k : Nat) : Courtes (s.drop k) := by
  intro u d v hs
  refine h (s.take k ++ u) d v ?_
  rw [List.append_assoc, ← hs, List.take_append_drop]

theorem advance_checksum {s n t : Nat} {last last' : Option (Nat × Nat)} {w : Texte}
    (hs : s = 10 ∨ s = 11 ∨ s = 12) (h : automate.advance s n last w = some (t, last')) :
    w.length + s ≤ 12 := by
  induction w generalizing s n last with
  | nil =>
      rw [List.length_nil]
      omega
  | cons c w ih =>
      rw [Munch.Automaton.advance] at h
      obtain ⟨u, hu, h⟩ := Option.bind_eq_some_iff.mp h
      rcases hs with rfl | rfl | rfl
      · rw [step_checksum c (Or.inl rfl)] at hu
        cases (Option.ite_none_right_eq_some.mp hu).2
        have hw := ih (Or.inr (Or.inl rfl)) h
        rw [List.length_cons]
        omega
      · rw [step_checksum c (Or.inr rfl)] at hu
        cases (Option.ite_none_right_eq_some.mp hu).2
        have hw := ih (Or.inr (Or.inr rfl)) h
        rw [List.length_cons]
        omega
      · rw [step_final c (by decide) (by decide)] at hu
        cases hu

theorem advance_trame {s n t : Nat} {last last' : Option (Nat × Nat)} {w : Texte}
    (hs : s = 6 ∨ s = 9) (h : automate.advance s n last w = some (t, last')) :
    ∃ d e, w = d ++ e ∧ Undelimited d ∧ e.length ≤ 3 := by
  induction w generalizing s n last with
  | nil => exact ⟨[], [], rfl, by decide, by decide⟩
  | cons c w ih =>
      rw [Munch.Automaton.advance, step_payload c hs] at h
      obtain ⟨u, hu, h⟩ := Option.bind_eq_some_iff.mp h
      by_cases hash : c = octet '#'
      · rw [if_pos hash] at hu
        cases hu
        have hw := advance_checksum (Or.inl rfl) h
        exact ⟨[], c :: w, rfl, by decide, by rw [List.length_cons]; omega⟩
      · rw [if_neg hash] at hu
        by_cases hdollar : c = octet '$'
        · rw [if_pos hdollar] at hu
          cases hu
        · rw [if_neg hdollar] at hu
          cases hu
          obtain ⟨d, e, rfl, hd, he⟩ := ih (Or.inr rfl) h
          refine ⟨c :: d, e, rfl, fun x hx => ?_, he⟩
          rcases List.mem_cons.mp hx with rfl | hx
          · exact ⟨hdollar, hash⟩
          · exact hd x hx

-- What the automaton runs through at once is a packet that has been begun, or one character.
theorem Courtes.advance {R w u : Texte} {t : Nat} {last : Option (Nat × Nat)} (hR : Courtes R)
    (hw : R = w ++ u) (h : automate.advance 1 0 none w = some (t, last)) :
    w.length + 1 < 2 ^ 30 := by
  cases w with
  | nil => decide
  | cons c w =>
      rw [Munch.Automaton.advance, step_start] at h
      obtain ⟨s, hs, h⟩ := Option.bind_eq_some_iff.mp h
      cases hs
      by_cases hdollar : c = octet '$'
      · subst hdollar
        obtain ⟨d, e, rfl, hd, he⟩ := advance_trame (Or.inl rfl) h
        have hlen := hR [] d (e ++ u) (by rw [hw, List.cons_append, List.append_assoc]; rfl) hd
        rw [List.length_cons, List.length_append]
        omega
      · rw [if_neg hdollar] at h
        cases w with
        | nil =>
            change 1 + 1 < 2 ^ 30
            decide
        | cons c' w =>
            rw [Munch.Automaton.advance, step_final c' ?_ ?_] at h
            · cases h
            · split_ifs <;> decide
            · split_ifs <;> decide

namespace Guts

def Contient (g : Guts) (bp : Nat) (R : Texte) : Prop :=
  bp ≤ g.yy_n_chars ∧ R = slice g.yy_ch_buf bp (g.yy_n_chars - bp) ++ flux g.lectures

-- The scanner at `yy_match`, `k` characters behind the start of the token.
structure EnRoute (g : Guts) (state k bp : Nat) (R : Texte) : Prop where
  forme : g.Forme
  contient : g.Contient bp R
  place : bp + k ≤ g.yy_n_chars
  vivant : state ∈ vivants
  lu : ∃ last, automate.advance 1 0 none (slice g.yy_ch_buf bp k) = some (state, last) ∧
    g.Marque bp k last
  vif : Final state → ∃ v, slice g.yy_ch_buf bp k = v ++ [0]

-- The scanner at `yy_find_action`, with the choice that the automaton makes on the whole text.
structure Choisi (g : Guts) (state cp bp : Nat) (R : Texte) : Prop where
  forme : g.Forme
  contient : g.Contient bp R
  choix : ∃ a k, automate.best R = some (a, k) ∧ g.Choix state cp bp a k ∧ bp + k ≤ g.yy_n_chars

def Prompt (g : Guts) (R : Texte) (g' : Guts) : Prop :=
  ∀ xs ys t u, g.lectures = xs ++ ys → R = t ++ u ++ flux ys → Complet t →
    ∃ zs, g'.lectures = zs ++ ys

theorem prompt_same (g : Guts) (R : Texte) {g' : Guts} (h : g'.lectures = g.lectures) :
    g.Prompt R g' := by
  intro xs ys t u hxs _ _
  exact ⟨xs, h.trans hxs⟩

theorem Prompt.trans {g g' g'' : Guts} {R : Texte} (h : g.Prompt R g') (h' : g'.Prompt R g'') :
    g.Prompt R g'' := by
  intro xs ys t u hxs hR ht
  obtain ⟨zs, hzs⟩ := h xs ys t u hxs hR ht
  exact h' zs ys t u hzs hR ht

theorem slice_split (f : Nat → Byte) (i m n : Nat) (h : m ≤ n) :
    slice f i n = slice f i m ++ slice f (i + m) (n - m) := by
  rw [← slice_add, Nat.add_sub_cancel' h]

theorem slice_concat (f : Nat → Byte) (i n : Nat) : slice f i (n + 1) = slice f i n ++ [f (i + n)] := by
  rw [slice_add]
  rfl

section Best

variable {g : Guts} {bp k : Nat} {R : Texte}

theorem Contient.split (h : g.Contient bp R) (hk : bp + k ≤ g.yy_n_chars) :
    R = slice g.yy_ch_buf bp k ++
      (slice g.yy_ch_buf (bp + k) (g.yy_n_chars - bp - k) ++ flux g.lectures) := by
  have hle : k ≤ g.yy_n_chars - bp := by omega
  rw [h.2, slice_split g.yy_ch_buf bp k _ hle, List.append_assoc]

theorem Contient.length_le (h : g.Contient bp R) : g.yy_n_chars - bp ≤ R.length := by
  rw [h.2, List.length_append, length_slice]
  exact Nat.le_add_right _ _

theorem Contient.best (h : g.Contient bp R) (hk : bp + k ≤ g.yy_n_chars) {state : Nat}
    {last : Option (Nat × Nat)}
    (ha : automate.advance 1 0 none (slice g.yy_ch_buf bp k) = some (state, last)) :
    automate.best R = automate.scan state k last
      (slice g.yy_ch_buf (bp + k) (g.yy_n_chars - bp - k) ++ flux g.lectures) := by
  have hb := automate.best_advance
    (slice g.yy_ch_buf (bp + k) (g.yy_n_chars - bp - k) ++ flux g.lectures) ha
  rw [length_slice, ← h.split hk] at hb
  exact hb

end Best

inductive Apres (g : Guts) (R : Texte) (m : Nat) : Issue → Prop
  | enRoute {g' : Guts} {state k bp : Nat} (h : g'.EnRoute state k bp R)
      (hm : R.length - k + (flux g'.lectures).length < m) (hp : g.Prompt R g') :
      Apres g R m (.aller g' (.yy_match state (bp + k) bp))
  | choisi {g' : Guts} {state cp bp : Nat} (h : g'.Choisi state cp bp R) (hp : g.Prompt R g') :
      Apres g R m (.aller g' (.yy_find_action state cp bp))
  | retour (h : R = []) : Apres g R m .retour

theorem yyGetPreviousState_eq (g : Guts) {j t : Nat} {last : Option (Nat × Nat)}
    (hc : g.yy_c_buf_p = g.yytext_ptr + j) (hle : g.yytext_ptr + j ≤ g.yy_buf_size + 2)
    (ha : automate.advance 1 0 none (slice g.yy_ch_buf g.yytext_ptr j) = some (t, last)) :
    ∃ x y, g.yyGetPreviousState = .ok (g.marque x y, t) ∧ t ∈ vivants ∧
      (g.marque x y).Marque g.yytext_ptr j last := by
  have hlen : (slice g.yy_ch_buf g.yytext_ptr j).length = j := length_slice _ _ _
  obtain ⟨x, y, hrun, ht, hm⟩ := relire_eq g g.yytext_ptr (slice g.yy_ch_buf g.yytext_ptr j)
    (s := 1) (n := 0) (by decide) (marque_none _ _ _) (by rw [hlen]; rfl) (by rw [hlen]; exact hle) ha
  rw [hlen] at hrun hm
  rw [Nat.zero_add] at hm
  have hsub : g.yy_c_buf_p - g.yytext_ptr = j := by omega
  refine ⟨x, y, ?_, ht, hm⟩
  rw [yyGetPreviousState, hsub]
  exact hrun

theorem yyTryNulTrans_eq (g : Guts) {state bp n : Nat} {last : Option (Nat × Nat)}
    (hs : state ∈ vivants) (hc : g.yy_c_buf_p = bp + n) (hm : g.Marque bp n last) :
    ∃ x y, g.yyTryNulTrans state =
        .ok (g.marque x y, if suivant state 1 = 13 then 0 else suivant state 1) ∧
      (g.marque x y).Marque bp n (automate.mark state n last) := by
  obtain ⟨x, y, hret, hm'⟩ := retenir_marque g hs hm
  refine ⟨x, y, ?_, hm'⟩
  rw [yyTryNulTrans, hc, hret, Fallible.ok_bind,
    transition_suivant (List.mem_cons_of_mem 3 hs) (by decide)]
  rfl

theorem step_nul (s : Nat) :
    automate.step s 0 = if suivant s 1 = 13 then none else some (suivant s 1) := rfl

theorem vraiNul_eq (g : Guts) {j t m : Nat} {last : Option (Nat × Nat)} {R : Texte}
    (hg : g.Forme) (hR : g.Contient g.yytext_ptr R) (hj : g.yytext_ptr + j < g.yy_n_chars)
    (h0 : g.yy_ch_buf (g.yytext_ptr + j) = 0)
    (ha : automate.advance 1 0 none (slice g.yy_ch_buf g.yytext_ptr j) = some (t, last))
    (hm : R.length - j + (flux g.lectures).length ≤ m) :
    ∃ i, g.vraiNul j = .ok i ∧ g.Apres R m i := by
  have hplace := hg.place
  obtain ⟨x, y, hprev, ht, hmq⟩ :=
    yyGetPreviousState_eq { g with yy_c_buf_p := g.yytext_ptr + j } rfl
      (show g.yytext_ptr + j ≤ g.yy_buf_size + 2 by omega) ha
  obtain ⟨x', y', htry, hmq'⟩ := yyTryNulTrans_eq _ ht rfl hmq
  have hstep := step_nul t
  have hrest : slice g.yy_ch_buf (g.yytext_ptr + j) (g.yy_n_chars - g.yytext_ptr - j) =
      0 :: slice g.yy_ch_buf (g.yytext_ptr + j + 1) (g.yy_n_chars - g.yytext_ptr - j - 1) := by
    have hsucc : g.yy_n_chars - g.yytext_ptr - j = g.yy_n_chars - g.yytext_ptr - j - 1 + 1 := by
      omega
    rw [hsucc, slice_succ, h0]
    rfl
  have hbest := hR.best (Nat.le_of_lt hj) ha
  have hlen := hR.length_le
  rw [hrest, List.cons_append] at hbest
  rw [vraiNul]
  dsimp only
  rw [hprev, Fallible.ok_bind]
  dsimp only
  rw [htry, Fallible.ok_bind]
  dsimp only
  by_cases hjam : suivant t 1 = 13
  · rw [if_pos hjam] at hstep ⊢
    rw [automate.scan_jam _ _ _ _ hstep] at hbest
    have hne : R ≠ [] := by
      rintro rfl
      rw [List.length_nil] at hlen
      omega
    obtain ⟨a, k, hak⟩ := best_ne_none hne
    obtain ⟨hch, hk⟩ := hmq'.choix ht ((automate.mark_mark t j last).trans (hbest.symm.trans hak))
    refine ⟨_, rfl, Apres.choisi
      ⟨⟨hg.place, hg.borne, hg.fin, hg.neuf, hg.attente⟩, hR, a, k, hak, hch, ?_⟩ (prompt_same g R rfl)⟩
    change g.yytext_ptr + k ≤ g.yy_n_chars
    omega
  · rw [if_neg hjam] at hstep ⊢
    obtain ⟨hv, _⟩ := step_vivant 0 ht hstep
    have hne : suivant t 1 ≠ 0 := fun h => absurd (h ▸ hv) (by decide)
    rw [if_pos hne]
    have hadv : automate.advance 1 0 none (slice g.yy_ch_buf g.yytext_ptr (j + 1)) =
        some (suivant t 1, automate.mark t j last) := by
      have h := automate.advance_concat 1 0 none ha hstep
      rw [length_slice, Nat.zero_add] at h
      rw [slice_concat, h0]
      exact h
    refine ⟨_, rfl, Apres.enRoute (k := j + 1)
      ⟨⟨hg.place, hg.borne, hg.fin, hg.neuf, hg.attente⟩, hR, hj, hv, ?_, ?_⟩ ?_
      (prompt_same g R rfl)⟩
    · exact ⟨_, hadv, hmq'.mono (Nat.le_succ j)⟩
    · intro _
      exact ⟨slice g.yy_ch_buf g.yytext_ptr j, by rw [← h0]; exact slice_concat _ _ _⟩
    · change R.length - (j + 1) + (flux g.lectures).length < m
      omega

theorem prompt_suivi (g : Guts) {g' : Guts} {w R : Texte} {t : Nat} {last : Option (Nat × Nat)}
    (ha : automate.advance 1 0 none w = some (t, last)) (hvif : Final t → ∃ v, w = v ++ [0])
    (hR : R = w ++ flux g.lectures)
    (h : ∀ xs ys, g.lectures = xs ++ ys → flux xs ≠ [] → ∃ zs, g'.lectures = zs ++ ys) :
    g.Prompt R g' := by
  intro xs ys t' u hxs hR' ht
  refine h xs ys hxs ?_
  intro hnil
  have hw : w = t' ++ u := by
    rw [hR, hxs, flux_append, hnil, List.nil_append] at hR'
    exact List.append_cancel_right hR'
  rw [hw] at ha
  obtain ⟨hfin, v, c, hv, hc⟩ := ht.advance ha
  obtain ⟨v', hv'⟩ := hvif hfin
  rw [hw, hv] at hv'
  exact hc (List.cons.inj (List.append_inj' hv' rfl).2).1

theorem Suivi.deplace {g g' : Guts} {w s : Texte} (h : g.Suivi w s g') :
    slice g'.yy_ch_buf g'.yytext_ptr w.length = w := by
  have ht := h.texte
  rw [slice_add] at ht
  rw [h.debut]
  exact (List.append_inj ht (length_slice _ _ _)).1

theorem Suivi.advance {g g' : Guts} {w s : Texte} {t : Nat} {last : Option (Nat × Nat)}
    (h : g.Suivi w s g') (ha : automate.advance 1 0 none w = some (t, last)) :
    automate.advance 1 0 none (slice g'.yy_ch_buf g'.yytext_ptr w.length) = some (t, last) := by
  rw [h.deplace]
  exact ha

theorem Suivi.contient {g g' : Guts} {w s R : Texte} (h : g.Suivi w s g')
    (hR : R = w ++ flux g.lectures) : g'.Contient g'.yytext_ptr R := by
  rw [h.debut]
  refine ⟨Nat.zero_le _, ?_⟩
  rw [Nat.sub_zero, h.longueur, h.texte, hR, h.reste, List.append_assoc]

theorem finDuTampon_eq (g : Guts) {j t m : Nat} {last : Option (Nat × Nat)} {R : Texte}
    (hg : g.Forme) (hR : g.Contient g.yytext_ptr R) (hc : g.yy_c_buf_p = g.yy_n_chars + 1)
    (hj : g.yytext_ptr + j = g.yy_n_chars)
    (ha : automate.advance 1 0 none (slice g.yy_ch_buf g.yytext_ptr j) = some (t, last))
    (hvif : Final t → ∃ v, slice g.yy_ch_buf g.yytext_ptr j = v ++ [0])
    (hneuf : g.yy_buffer_status ≠ .neuf) (hlen : Courtes R)
    (hm : R.length - j + (flux g.lectures).length ≤ m) :
    ∃ i, g.finDuTampon j = .ok i ∧ g.Apres R m i := by
  have hle := hR.length_le
  have hw : (slice g.yy_ch_buf g.yytext_ptr j).length = j := length_slice _ _ _
  have hRw : R = slice g.yy_ch_buf g.yytext_ptr j ++ flux g.lectures := by
    have hn : g.yy_n_chars - g.yytext_ptr = j := by omega
    have h := hR.2
    rwa [hn] at h
  obtain ⟨r, hnext, hr⟩ := yyGetNextBuffer_eq g (slice g.yy_ch_buf g.yytext_ptr j) hg hc
    (by rw [hw]; exact hj) (by rw [hw]) (hlen.advance hRw ha) hneuf
  generalize slice g.yy_ch_buf g.yytext_ptr j = w at *
  subst hw
  rw [finDuTampon, hnext, Fallible.ok_bind]
  cases hr with
  | endOfFile g' hnil hend => exact ⟨_, rfl, Apres.retour (by rw [hRw, hnil, hend]; rfl)⟩
  | continueScan g' s hs hsuivi =>
      have hf := hsuivi.forme
      have hplace := hf.place
      have hlong := hsuivi.longueur
      have hdebut := hsuivi.debut
      have hbuf := hsuivi.deplace
      have ha' := hsuivi.advance ha
      obtain ⟨x, y, hprev, ht, hmq⟩ :=
        yyGetPreviousState_eq { g' with yy_c_buf_p := g'.yytext_ptr + w.length } rfl
          (show g'.yytext_ptr + w.length ≤ g'.yy_buf_size + 2 by omega) ha'
      dsimp only
      rw [hprev, Fallible.ok_bind]
      refine ⟨_, rfl, Apres.enRoute (k := w.length)
        ⟨⟨hf.place, hf.borne, hf.fin, hf.neuf, hf.attente⟩, hsuivi.contient hRw, ?_, ht,
          ⟨last, ha', hmq⟩, ?_⟩ ?_ (g.prompt_suivi ha hvif hRw hsuivi.prompt)⟩
      · change g'.yytext_ptr + w.length ≤ g'.yy_n_chars
        omega
      · change Final t → ∃ v, slice g'.yy_ch_buf g'.yytext_ptr w.length = v ++ [0]
        rw [hbuf]
        exact hvif
      · have hreste := congrArg List.length hsuivi.reste
        have hpos := List.length_pos_of_ne_nil hs
        rw [List.length_append] at hreste
        change R.length - w.length + (flux g'.lectures).length < m
        omega
  | lastMatch g' hne hend hsuivi =>
      have hf := hsuivi.forme
      have hplace := hf.place
      have hlong := hsuivi.longueur
      have hdebut := hsuivi.debut
      have ha' := hsuivi.advance ha
      rw [List.length_nil] at hlong
      obtain ⟨x, y, hprev, ht, hmq⟩ :=
        yyGetPreviousState_eq { g' with yy_c_buf_p := g'.yy_n_chars }
          (show g'.yy_n_chars = g'.yytext_ptr + w.length by omega)
          (show g'.yytext_ptr + w.length ≤ g'.yy_buf_size + 2 by omega) ha'
      have hbest := automate.best_advance [] ha
      rw [List.append_nil] at hbest
      rw [hend, List.append_nil] at hRw
      rw [← hRw] at hne
      obtain ⟨a, k, hak⟩ := best_ne_none hne
      have hmark : automate.mark t w.length last = some (a, k) := by
        rw [hRw, hbest] at hak
        exact hak
      obtain ⟨hch, hk⟩ := hmq.choix ht hmark
      have hcp : g'.yytext_ptr + w.length = g'.yy_n_chars := by omega
      dsimp only
      rw [hprev, Fallible.ok_bind]
      refine ⟨_, rfl, Apres.choisi
        ⟨⟨hf.place, hf.borne, hf.fin, hf.neuf, hf.attente⟩,
          hsuivi.contient (by rw [hRw, hend, List.append_nil]), a, k, hak, ?_, ?_⟩
        (g.prompt_suivi ha hvif (by rw [hRw, hend, List.append_nil]) hsuivi.prompt)⟩
      · rw [hcp] at hch
        exact hch
      · change g'.yytext_ptr + k ≤ g'.yy_n_chars
        omega

theorem Apres.congr {g g' : Guts} {R : Texte} {m : Nat} {i : Issue} (h : g'.Apres R m i)
    (hl : g.lectures = g'.lectures) : g.Apres R m i := by
  cases h with
  | enRoute h hm hp => exact .enRoute h hm (fun xs ys t u hxs => hp xs ys t u (hl.symm.trans hxs))
  | choisi h hp => exact .choisi h (fun xs ys t u hxs => hp xs ys t u (hl.symm.trans hxs))
  | retour h => exact .retour h

-- The NUL behind the `j` characters of the token is one of the text, or the end of the buffer.
theorem nul_eq (g : Guts) {j t m : Nat} {last : Option (Nat × Nat)} {R : Texte}
    (hg : g.Forme) (hR : g.Contient g.yytext_ptr R) (hc : g.yy_c_buf_p = g.yytext_ptr + j + 1)
    (hj : g.yytext_ptr + j ≤ g.yy_n_chars) (h0 : g.yy_ch_buf (g.yytext_ptr + j) = 0)
    (ha : automate.advance 1 0 none (slice g.yy_ch_buf g.yytext_ptr j) = some (t, last))
    (hvif : Final t → ∃ v, slice g.yy_ch_buf g.yytext_ptr j = v ++ [0])
    (hneuf : g.yy_buffer_status ≠ .neuf) (hlen : Courtes R)
    (hm : R.length - j + (flux g.lectures).length ≤ m) :
    ∃ i, (if g.yy_c_buf_p ≤ g.yy_n_chars then g.vraiNul j else g.finDuTampon j) = .ok i ∧
      g.Apres R m i := by
  by_cases h : g.yy_c_buf_p ≤ g.yy_n_chars
  · rw [if_pos h]
    exact vraiNul_eq g hg hR (by omega) h0 ha hm
  · rw [if_neg h]
    exact finDuTampon_eq g hg hR (by omega) (by omega) ha hvif hneuf hlen hm

def pose (g : Guts) (cp bp : Nat) : Guts :=
  { g with
    yytext_ptr := bp
    yyleng := cp - bp
    yy_hold_char := g.yy_ch_buf cp
    yy_c_buf_p := cp }

theorem yyDoBeforeAction_eq (g : Guts) (cp bp : Nat) (h : cp < g.yy_buf_size + 2) :
    g.yyDoBeforeAction cp bp = .ok { g.pose cp bp with
      yy_ch_buf := Function.update g.yy_ch_buf cp 0 } := by
  have hw := ecrireCar_eq { g with
    yytext_ptr := bp
    yyleng := cp - bp
    yy_hold_char := g.yy_ch_buf cp } cp 0 h
  rw [yyDoBeforeAction, lireCar_eq g cp h, Fallible.ok_bind]
  dsimp only
  rw [hw]
  rfl

theorem connu_eq (g : Guts)
    (hneuf : g.yy_buffer_status = .neuf → g.buffer_n_chars = g.yy_n_chars) :
    g.connu = { g with
      yy_buffer_status :=
        if g.yy_buffer_status = Statut.neuf then .normal else g.yy_buffer_status } := by
  rw [connu]
  by_cases hs : g.yy_buffer_status = .neuf
  · rw [if_pos hs, if_pos hs, hneuf hs]
  · rw [if_neg hs, if_neg hs]

-- The NUL is taken back; a new buffer becomes a normal one.
theorem yyEndOfBuffer_eq (g : Guts) (cp bp : Nat) (h : cp < g.yy_buf_size + 2)
    (hneuf : g.yy_buffer_status = .neuf → g.buffer_n_chars = g.yy_n_chars) :
    yyEndOfBuffer { g.pose cp bp with yy_ch_buf := Function.update g.yy_ch_buf cp 0 } cp =
      let g := { g.pose cp bp with
        yy_buffer_status :=
          if g.yy_buffer_status = Statut.neuf then .normal else g.yy_buffer_status }
      if g.yy_c_buf_p ≤ g.yy_n_chars then g.vraiNul (cp - bp - 1)
      else g.finDuTampon (cp - bp - 1) := by
  have hw := ecrireCar_eq { g.pose cp bp with
    yy_ch_buf := Function.update g.yy_ch_buf cp 0 } cp (g.yy_ch_buf cp) h
  have hconnu := connu_eq (g.pose cp bp) hneuf
  dsimp only at hw
  rw [Function.update_idem, Function.update_eq_self] at hw
  rw [yyEndOfBuffer]
  dsimp only
  change (ecrireCar _ cp (g.yy_ch_buf cp) >>= _) = _
  rw [hw, Fallible.ok_bind]
  change (if (g.pose cp bp).connu.yy_c_buf_p ≤ (g.pose cp bp).connu.yy_n_chars then
    (g.pose cp bp).connu.vraiNul _ else (g.pose cp bp).connu.finDuTampon _) = _
  rw [hconnu]
  rfl

theorem yyFindAction_nul (g : Guts) (cp : Nat) {bp j t m : Nat} {last : Option (Nat × Nat)} {R : Texte}
    (hg : g.Forme) (hR : g.Contient bp R) (hs : g.yy_last_accepting_state = 3)
    (hc : g.yy_last_accepting_cpos = bp + j + 1) (hj : bp + j ≤ g.yy_n_chars)
    (h0 : g.yy_ch_buf (bp + j) = 0)
    (ha : automate.advance 1 0 none (slice g.yy_ch_buf bp j) = some (t, last))
    (hvif : Final t → ∃ v, slice g.yy_ch_buf bp j = v ++ [0]) (hlen : Courtes R)
    (hm : R.length - j + (flux g.lectures).length ≤ m) :
    ∃ i, g.yyFindAction 13 cp bp = .ok i ∧ g.Apres R m i := by
  have hplace := hg.place
  have hsub : bp + j + 1 - bp - 1 = j := by omega
  have hact : lire yyAccept 13 = .ok 0 := rfl
  have hend : lire yyAccept 3 = .ok YY_END_OF_BUFFER := rfl
  have hstatut : (if g.yy_buffer_status = .neuf then .normal else g.yy_buffer_status) ≠
      Statut.neuf := by
    split
    · decide
    · assumption
  rw [yyFindAction, hact, Fallible.ok_bind, if_pos rfl]
  dsimp only
  rw [hs, hc, hend, Fallible.ok_bind, yyDoBeforeAction_eq g _ _ (by omega), Fallible.ok_bind,
    doAction, if_neg (by decide), if_neg (by decide), if_pos rfl,
    yyEndOfBuffer_eq g _ _ (by omega) hg.neuf, hsub]
  dsimp only
  obtain ⟨i, hi, hap⟩ := nul_eq { g.pose (bp + j + 1) bp with
      yy_buffer_status := if g.yy_buffer_status = .neuf then .normal else g.yy_buffer_status }
    ⟨hplace, hg.borne, hg.fin, fun h => absurd h hstatut, fun h => hg.attente (by
      by_cases hn : g.yy_buffer_status = .neuf
      · simp only [hn, if_true] at h
        cases h
      · simp only [hn, if_false] at h
        exact h)⟩
    hR rfl hj h0 ha hvif hstatut hlen hm
  exact ⟨i, hi, hap.congr rfl⟩

def rendu (g : Guts) : Guts :=
  { g with yy_ch_buf := Function.update g.yy_ch_buf g.yy_c_buf_p g.yy_hold_char }

-- The scanner between two tokens, with `R` still to come.
structure Pret (g : Guts) (R : Texte) : Prop where
  forme : g.rendu.Forme
  contient : g.rendu.Contient g.yy_c_buf_p R

structure Emis (g : Guts) (R : Texte) (a k : Nat) : Prop where
  best : automate.best R = some (a, k)
  texte : (g.lu a).yytext = R.take k
  suivant : ∀ texte, (g.agir texte).Pret (R.drop k)

inductive Cote (g : Guts) (R : Texte) : Issue → Prop
  | action {g' : Guts} {a k : Nat} (h : g'.Emis R a k) (hp : g.Prompt R g') :
      Cote g R (.action a g')
  | retour (h : R = []) : Cote g R .retour

theorem rendu_pose (g : Guts) (cp bp : Nat) :
    rendu { g.pose cp bp with yy_ch_buf := Function.update g.yy_ch_buf cp 0 } = g.pose cp bp := by
  rw [rendu]
  change { g.pose cp bp with
    yy_ch_buf := Function.update (Function.update g.yy_ch_buf cp 0) cp (g.yy_ch_buf cp) } = _
  rw [Function.update_idem, Function.update_eq_self]
  rfl

theorem pret_agir (g : Guts) {R : Texte} (texte : Nat → Byte) (h : g.Pret R)
    (hc : g.yy_c_buf_p = g.yytext_ptr + g.yyleng) : (g.agir texte).Pret R := by
  have hbuf : ∀ i, g.yy_c_buf_p ≤ i →
      (g.agir texte).rendu.yy_ch_buf i = g.rendu.yy_ch_buf i := by
    intro i hi
    change Function.update (g.agir texte).yy_ch_buf g.yy_c_buf_p g.yy_hold_char i =
      Function.update g.yy_ch_buf g.yy_c_buf_p g.yy_hold_char i
    by_cases he : i = g.yy_c_buf_p
    · rw [he, Function.update_self, Function.update_self]
    · rw [Function.update_of_ne he, Function.update_of_ne he]
      exact if_neg (fun hin => by omega)
  refine ⟨⟨h.forme.place, h.forme.borne, ?_, h.forme.neuf, h.forme.attente⟩, h.contient.1, ?_⟩
  · have hle : g.yy_c_buf_p ≤ g.yy_n_chars := h.contient.1
    exact (hbuf _ hle).trans h.forme.fin
  · have hR := h.contient.2
    have hs : slice (g.agir texte).rendu.yy_ch_buf g.yy_c_buf_p (g.yy_n_chars - g.yy_c_buf_p) =
        slice g.rendu.yy_ch_buf g.yy_c_buf_p (g.yy_n_chars - g.yy_c_buf_p) :=
      slice_congr fun k hk _ => hbuf k hk
    change R = slice (g.agir texte).rendu.yy_ch_buf g.yy_c_buf_p (g.yy_n_chars - g.yy_c_buf_p) ++ _
    rw [hs]
    exact hR

theorem emis_pose (g : Guts) {R : Texte} {bp a k : Nat} (hg : g.Forme) (hR : g.Contient bp R)
    (hk : bp + k ≤ g.yy_n_chars) (hbest : automate.best R = some (a, k)) :
    Emis { g.pose (bp + k) bp with yy_ch_buf := Function.update g.yy_ch_buf (bp + k) 0 } R a k := by
  have hlen : bp + k - bp = k := by omega
  have hsub : g.yy_n_chars - bp - k = g.yy_n_chars - (bp + k) := by omega
  have hsplit := hR.split hk
  have htake : R.take k = slice g.yy_ch_buf bp k := by
    rw [hsplit, List.take_left' (length_slice _ _ _)]
  have hdrop : R.drop k =
      slice g.yy_ch_buf (bp + k) (g.yy_n_chars - (bp + k)) ++ flux g.lectures := by
    rw [hsplit, List.drop_left' (length_slice _ _ _), hsub]
  refine ⟨hbest, ?_, fun texte => pret_agir _ texte ⟨?_, ?_⟩ ?_⟩
  · change slice (Function.update g.yy_ch_buf (bp + k) 0) bp (bp + k - bp) = _
    rw [hlen, htake]
    exact slice_congr fun i _ hi => Function.update_of_ne (by omega) _ _
  · rw [rendu_pose]
    exact ⟨hg.place, hg.borne, hg.fin, hg.neuf, hg.attente⟩
  · rw [rendu_pose]
    exact ⟨hk, hdrop⟩
  · change bp + k = bp + (bp + k - bp)
    omega

theorem yyFindAction_choisi (g : Guts) {state cp bp : Nat} {R : Texte}
    (h : g.Choisi state cp bp R) :
    ∃ a g' k, g.yyFindAction state cp bp = .ok (.action a g') ∧ g'.Emis R a k ∧
      g'.lectures = g.lectures := by
  have hplace := h.forme.place
  obtain ⟨a, k, hbest, hch, hk⟩ := h.choix
  have haction : ∀ a, a ≠ 0 ∧ a ≤ 5 → ∀ g cp bp, doAction g a cp bp = .ok (.action a g) := by
    intro a ha g cp bp
    rw [doAction, if_neg ha.1, if_pos ha.2]
    rfl
  have hget : ∀ s, s ∈ vivants → accepte s = some a → lire yyAccept s = .ok a := by
    intro s hs ha
    rw [lire_yyAccept s (vivant_le hs)]
    rw [accepte] at ha
    split at ha
    · cases ha
    · cases ha
      rfl
  refine ⟨a, _, k, ?_, emis_pose g h.forme h.contient hk hbest, rfl⟩
  rw [yyFindAction]
  rcases hch with ⟨ha, hs, hcp⟩ | ⟨hn, hs, ha, hl, hcp⟩
  · have hne := accepte_le hs ha
    rw [hget state hs ha, Fallible.ok_bind, if_neg hne.1, hcp,
      yyDoBeforeAction_eq g _ _ (by omega), Fallible.ok_bind, haction a hne]
  · have hne := accepte_le hl ha
    have hz : yyAccept.getD state 0 = 0 := by
      rw [accepte] at hn
      split at hn
      · assumption
      · cases hn
    rw [lire_yyAccept state hs, hz, Fallible.ok_bind, if_pos rfl]
    dsimp only
    rw [hcp, hget _ hl ha, Fallible.ok_bind, yyDoBeforeAction_eq g _ _ (by omega),
      Fallible.ok_bind, haction a hne]

inductive Mene : Guts → Etiquette → Issue → Prop
  | fin {g : Guts} {e : Etiquette} {i : Issue} (h : g.etape e = .ok i)
      (hi : ∀ g' e', i ≠ .aller g' e') : Mene g e i
  | suite {g g' : Guts} {e e' : Etiquette} {i : Issue} (h : g.etape e = .ok (.aller g' e'))
      (hs : Mene g' e' i) : Mene g e i

theorem Choisi.mene {g : Guts} {state cp bp : Nat} {R : Texte} (h : g.Choisi state cp bp R) :
    ∃ i, Mene g (.yy_find_action state cp bp) i ∧ g.Cote R i := by
  obtain ⟨a, g', k, he, hemis, hl⟩ := g.yyFindAction_choisi h
  exact ⟨_, .fin he (fun _ _ => Issue.noConfusion), .action hemis (g.prompt_same R hl)⟩

theorem Cote.trans {g g' : Guts} {R : Texte} {i : Issue} (hp : g.Prompt R g')
    (h : g'.Cote R i) : g.Cote R i := by
  cases h with
  | action h hp' => exact .action h (hp.trans hp')
  | retour h => exact .retour h

theorem EnRoute.mene {g : Guts} {state k bp : Nat} {R : Texte} (h : g.EnRoute state k bp R)
    (hlen : Courtes R) :
    ∃ i, Mene g (.yy_match state (bp + k) bp) i ∧ g.Cote R i := by
  induction hm : R.length - k + (flux g.lectures).length using Nat.strong_induction_on
    generalizing g state k bp with
  | _ m ih =>
      have hplace := h.forme.place
      have hk := h.place
      obtain ⟨last, hadv, hmq⟩ := h.lu
      have hbest := h.contient.best hk hadv
      have hsum : bp + k + (g.yy_n_chars - bp - k) = g.yy_n_chars := by omega
      obtain ⟨x, y, s', cp', hrun, hres⟩ := yyMatch_eq g bp (g.yy_n_chars - bp - k)
        h.vivant hmq
        (show g.yy_n_chars - bp - k + 2 ≤ g.yy_buf_size + 3 - (bp + k) by omega) hsum hplace h.forme.fin
      have hetape : g.etape (.yy_match state (bp + k) bp) =
          .ok (.aller (g.marque x y) (.yy_find_action s' cp' bp)) := by
        rw [etape, hrun]
        rfl
      have hforme : (g.marque x y).Forme :=
        ⟨hplace, h.forme.borne, h.forme.fin, h.forme.neuf, h.forme.attente⟩
      have hsame : g.Prompt R (g.marque x y) := g.prompt_same R rfl
      rcases hres with ⟨hpos, hch⟩ | ⟨hs', j, t, last', hj, h0, hadv', hfin, hx, hy⟩
      · -- The sweep ends inside the buffer.
        have hR := h.contient.length_le
        have hne : R ≠ [] := by
          rintro rfl
          rw [List.length_nil] at hR
          omega
        obtain ⟨a, n, han⟩ := best_ne_none hne
        obtain ⟨hc, hn⟩ := hch _ a n (hbest.symm.trans han)
        have hchoisi : (g.marque x y).Choisi s' cp' bp R :=
          ⟨hforme, h.contient, a, n, han, hc, by change bp + n ≤ g.yy_n_chars; omega⟩
        obtain ⟨i, hmene, hcote⟩ := hchoisi.mene
        exact ⟨i, .suite hetape hmene, hcote.trans hsame⟩
      · -- The sweep stops behind a NUL.
        subst hs' hx hy
        have hbp : bp + k + j = bp + (k + j) := Nat.add_assoc _ _ _
        have hlu : automate.advance 1 0 none (slice g.yy_ch_buf bp (k + j)) = some (t, last') := by
          rw [slice_add, automate.advance_append, hadv, Option.bind_some, length_slice,
            Nat.zero_add]
          exact hadv'
        have hvif : Final t → ∃ v, slice g.yy_ch_buf bp (k + j) = v ++ [0] := by
          intro ht
          by_cases hj0 : j = 0
          · subst hj0
            cases hadv'
            exact h.vif ht
          · exact absurd ht (hfin hj0)
        obtain ⟨i, hi, hap⟩ := yyFindAction_nul (g.marque 3 (bp + k + j + 1)) cp'
          (j := k + j) (m := m) hforme h.contient rfl (by rw [hbp]; rfl)
          (by change bp + (k + j) ≤ g.yy_n_chars; omega) (by rw [← hbp]; exact h0) hlu hvif hlen
          (by change R.length - (k + j) + (flux g.lectures).length ≤ m; omega)
        cases hap with
        | enRoute h' hm' hp =>
            obtain ⟨i, hmene, hcote⟩ := ih _ hm' h' rfl
            exact ⟨i, .suite hetape (.suite hi hmene), hcote.trans (hsame.trans hp)⟩
        | choisi h' hp =>
            obtain ⟨i, hmene, hcote⟩ := h'.mene
            exact ⟨i, .suite hetape (.suite hi hmene), hcote.trans (hsame.trans hp)⟩
        | retour hnil =>
            exact ⟨.retour, .suite hetape (.fin hi fun _ _ => Issue.noConfusion), .retour hnil⟩

end Guts

end Flex

end Armator
