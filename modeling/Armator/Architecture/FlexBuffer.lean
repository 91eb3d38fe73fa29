import Armator.Architecture.FlexTables

namespace Armator

namespace Flex

open Placed

namespace Guts

def marque (g : Guts) (state cpos : Nat) : Guts :=
  { g with yy_last_accepting_state := state, yy_last_accepting_cpos := cpos }

theorem lireCar_eq (g : Guts) (i : Nat) (h : i < g.yy_buf_size + 2) :
    g.lireCar i = .ok (g.yy_ch_buf i) :=
  if_pos h

theorem ecrireCar_eq (g : Guts) (i : Nat) (c : Byte) (h : i < g.yy_buf_size + 2) :
    g.ecrireCar i c = .ok { g with yy_ch_buf := Function.update g.yy_ch_buf i c } :=
  if_pos h

def Marque (g : Guts) (bp n : Nat) (last : Option (Nat × Nat)) : Prop :=
  ∀ a k, last = some (a, k) → accepte g.yy_last_accepting_state = some a ∧
    g.yy_last_accepting_state ∈ vivants ∧ g.yy_last_accepting_cpos = bp + k ∧ k ≤ n

theorem marque_none (g : Guts) (bp n : Nat) : g.Marque bp n none := by
  intro a k h
  cases h

theorem retenir_eq (g : Guts) {state : Nat} (cp : Nat) (hs : state ≤ 13) :
    g.retenir state cp =
      .ok (if yyAccept.getD state 0 = 0 then g else g.marque state cp) := by
  rw [retenir, lire_yyAccept state hs, Fallible.ok_bind]
  by_cases h : yyAccept.getD state 0 = 0
  · rw [if_pos h, if_neg (not_not.mpr h)]
    rfl
  · rw [if_neg h, if_pos h]
    rfl

theorem mark_eq (s n : Nat) (last : Option (Nat × Nat)) :
    automate.mark s n last = ((accepte s).map fun a => (a, n)).or last := rfl

theorem retenir_marque (g : Guts) {state bp n : Nat} {last : Option (Nat × Nat)}
    (hs : state ∈ vivants) (hm : g.Marque bp n last) :
    ∃ x y, g.retenir state (bp + n) = .ok (g.marque x y) ∧
      (g.marque x y).Marque bp n (automate.mark state n last) := by
  rw [retenir_eq g _ (vivant_le hs)]
  by_cases h : yyAccept.getD state 0 = 0
  · refine ⟨g.yy_last_accepting_state, g.yy_last_accepting_cpos, by rw [if_pos h]; rfl, ?_⟩
    have ha : accepte state = none := if_pos h
    rw [mark_eq, ha]
    exact hm
  · refine ⟨state, bp + n, by rw [if_neg h], ?_⟩
    have ha : accepte state = some (yyAccept.getD state 0) := if_neg h
    rw [mark_eq, ha]
    intro a k he
    cases he
    exact ⟨ha, hs, rfl, Nat.le_refl n⟩

theorem Marque.mono {g : Guts} {bp m n : Nat} {last : Option (Nat × Nat)} (hm : g.Marque bp m last)
    (h : m ≤ n) : g.Marque bp n last := by
  intro a k he
  obtain ⟨ha, hv, hc, hk⟩ := hm a k he
  exact ⟨ha, hv, hc, Nat.le_trans hk h⟩

theorem relire_eq (g : Guts) (bp : Nat) (w : Texte) {s t n : Nat} {last last' : Option (Nat × Nat)}
    (hs : s ∈ vivants) (hm : g.Marque bp n last) (hw : slice g.yy_ch_buf (bp + n) w.length = w)
    (hle : bp + n + w.length ≤ g.yy_buf_size + 2)
    (ha : automate.advance s n last w = some (t, last')) :
    ∃ x y, relire w.length g s (bp + n) = .ok (g.marque x y, t) ∧ t ∈ vivants ∧
      (g.marque x y).Marque bp (n + w.length) last' := by
  induction w generalizing g s n last with
  | nil =>
      cases ha
      exact ⟨g.yy_last_accepting_state, g.yy_last_accepting_cpos, rfl, hs, hm⟩
  | cons c w ih =>
      rw [List.length_cons] at hw hle ⊢
      rw [slice_succ] at hw
      obtain ⟨hc, hw⟩ := List.cons.inj hw
      rw [Munch.Automaton.advance] at ha
      obtain ⟨u, hu, ha⟩ := Option.bind_eq_some_iff.mp ha
      obtain ⟨hv, hsuiv⟩ := step_vivant c hs hu
      obtain ⟨x, y, hret, hm'⟩ := retenir_marque g hs hm
      obtain ⟨x', y', hrun, ht, hm''⟩ := ih (g.marque x y) hv
        (hm'.mono (Nat.le_succ n)) hw (by change _ ≤ g.yy_buf_size + 2; omega) ha
      have hclass : (if c ≠ 0 then lire yyEc c.toNat else pure 1) = .ok (classe c) := by
        by_cases h0 : c = 0
        · rw [if_neg (not_not.mpr h0), classe, if_pos h0]
          rfl
        · rw [if_pos h0, lire_yyEc, yyEc_ne_zero h0]
      refine ⟨x', y', ?_, ht, hm''.mono (by omega)⟩
      rw [relire, lireCar_eq g _ (by omega), Fallible.ok_bind, hc, hclass, Fallible.ok_bind, hret,
        Fallible.ok_bind, transition_suivant (List.mem_cons_of_mem 3 hs) (classe_le c), hsuiv,
        Fallible.ok_bind]
      exact hrun

def Choix (g : Guts) (state cp bp a k : Nat) : Prop :=
  (accepte state = some a ∧ state ∈ vivants ∧ cp = bp + k) ∨
    (accepte state = none ∧ state ≤ 13 ∧ accepte g.yy_last_accepting_state = some a ∧
      g.yy_last_accepting_state ∈ vivants ∧ g.yy_last_accepting_cpos = bp + k)

theorem Marque.choix {g : Guts} {state bp n a k : Nat} {last : Option (Nat × Nat)}
    (hm : g.Marque bp n last) (hs : state ∈ vivants) (h : automate.mark state n last = some (a, k)) :
    g.Choix state (bp + n) bp a k ∧ k ≤ n := by
  rw [mark_eq] at h
  cases ha : accepte state with
  | some b =>
      rw [ha] at h
      cases h
      exact ⟨Or.inl ⟨ha, hs, rfl⟩, Nat.le_refl n⟩
  | none =>
      rw [ha] at h
      obtain ⟨h1, h2, h3, h4⟩ := hm a k h
      exact ⟨Or.inr ⟨ha, vivant_le hs, h1, h2, h3⟩, h4⟩

-- The NUL at `cp` leads to the end-of-buffer state, whatever stands behind it.
theorem yyMatch_nul (g : Guts) {s cp : Nat} (fuel : Nat) (hs : s ∈ vivants)
    (hc : g.yy_ch_buf cp = 0) (hcp : cp + 1 < g.yy_buf_size + 2) :
    yyMatch (fuel + 2) g s cp = .ok (g.marque 3 (cp + 1), 13, cp + 2) := by
  obtain ⟨x, y, hret, _⟩ := retenir_marque g hs (marque_none g 0 cp)
  rw [Nat.zero_add] at hret
  have hzero : lire yyEc (0 : Byte).toNat = .ok 0 := rfl
  have hclass : ∀ c : Byte, yyEc.getD c.toNat 0 ≤ 7 := by
    intro c
    by_cases h0 : c = 0
    · rw [h0]
      decide
    · rw [yyEc_ne_zero h0]
      exact classe_le c
  rw [yyMatch, lireCar_eq g cp (Nat.lt_of_succ_lt hcp), Fallible.ok_bind, hc, hzero,
    Fallible.ok_bind, hret, Fallible.ok_bind, transition_zero hs, Fallible.ok_bind,
    lire_yyBase 3 (by decide), Fallible.ok_bind, if_pos (by decide), yyMatch,
    lireCar_eq (g.marque x y) (cp + 1) hcp, Fallible.ok_bind, lire_yyEc, Fallible.ok_bind,
    retenir_eq _ _ (by decide), Fallible.ok_bind, transition_three (hclass _), Fallible.ok_bind,
    lire_yyBase 13 (by decide), Fallible.ok_bind]
  rfl

theorem yyMatch_turn (g : Guts) {s cp x y : Nat} (fuel : Nat) (hs : s ∈ vivants)
    (hc : g.yy_ch_buf cp ≠ 0) (hcp : cp < g.yy_buf_size + 2)
    (hret : g.retenir s cp = .ok (g.marque x y)) :
    yyMatch (fuel + 1) g s cp =
      lire yyBase (suivant s (classe (g.yy_ch_buf cp))) >>= fun base =>
        if base ≠ 14 then
          yyMatch fuel (g.marque x y) (suivant s (classe (g.yy_ch_buf cp))) (cp + 1)
        else .ok (g.marque x y, suivant s (classe (g.yy_ch_buf cp)), cp + 1) := by
  rw [yyMatch, lireCar_eq g _ hcp, Fallible.ok_bind, lire_yyEc, Fallible.ok_bind,
    yyEc_ne_zero hc, hret, Fallible.ok_bind,
    transition_suivant (List.mem_cons_of_mem 3 hs) (classe_le _), Fallible.ok_bind]
  rfl

-- The sweep over the `m` characters left before the end of the buffer: it chooses as the
-- automaton does on any text that begins with them, or it stops behind a NUL.
theorem yyMatch_eq (g : Guts) (bp m : Nat) {s k fuel : Nat} {last : Option (Nat × Nat)}
    (hs : s ∈ vivants) (hm : g.Marque bp k last) (hf : m + 2 ≤ fuel)
    (hn : bp + k + m = g.yy_n_chars) (hsize : g.yy_n_chars < g.yy_buf_size)
    (h0 : g.yy_ch_buf g.yy_n_chars = 0) :
    ∃ x y s' cp', yyMatch fuel g s (bp + k) = .ok (g.marque x y, s', cp') ∧
      ((m ≠ 0 ∧ ∀ v a n,
          automate.scan s k last (slice g.yy_ch_buf (bp + k) m ++ v) = some (a, n) →
            (g.marque x y).Choix s' cp' bp a n ∧ n ≤ k + m) ∨
        s' = 13 ∧ ∃ j t last', j ≤ m ∧ g.yy_ch_buf (bp + k + j) = 0 ∧
          automate.advance s k last (slice g.yy_ch_buf (bp + k) j) = some (t, last') ∧
          (j ≠ 0 → ¬ Final t) ∧ x = 3 ∧ y = bp + k + j + 1) := by
  induction m generalizing s k fuel last g with
  | zero =>
      obtain ⟨f, rfl⟩ : ∃ f, fuel = f + 2 := ⟨fuel - 2, by omega⟩
      rw [Nat.add_zero] at hn
      refine ⟨3, bp + k + 1, 13, bp + k + 2, ?_, Or.inr ⟨rfl, 0, s, last, ?_⟩⟩
      · exact yyMatch_nul g f hs (hn ▸ h0) (by omega)
      · exact ⟨Nat.le_refl 0, hn ▸ h0, rfl, fun h => absurd rfl h, rfl, rfl⟩
  | succ m ih =>
      obtain ⟨f, rfl⟩ : ∃ f, fuel = f + 2 := ⟨fuel - 2, by omega⟩
      by_cases hc : g.yy_ch_buf (bp + k) = 0
      · refine ⟨3, bp + k + 1, 13, bp + k + 2, ?_, Or.inr ⟨rfl, 0, s, last, ?_⟩⟩
        · exact yyMatch_nul g f hs hc (by omega)
        · exact ⟨Nat.zero_le _, hc, rfl, fun h => absurd rfl h, rfl, rfl⟩
      · obtain ⟨x, y, hret, hm'⟩ := retenir_marque g hs hm
        have hstep : automate.step s (g.yy_ch_buf (bp + k)) =
            if suivant s (classe (g.yy_ch_buf (bp + k))) = 13 then none
            else some (suivant s (classe (g.yy_ch_buf (bp + k)))) := rfl
        have hturn := yyMatch_turn g (f + 1) hs hc (by omega) hret
        rw [hturn, slice_succ]
        rcases suivant_vivant hs (classe_pos (g.yy_ch_buf (bp + k))) (classe_le _) with hj | hv
        · -- The automaton jams: the choice is what was marked so far.
          rw [if_pos hj] at hstep
          rw [hj]
          refine ⟨x, y, 13, bp + k + 1, rfl, Or.inl ⟨Nat.succ_ne_zero m, ?_⟩⟩
          intro v a n h
          rw [List.cons_append, automate.scan_jam _ _ _ _ hstep] at h
          obtain ⟨h1, h2, h3, h4⟩ := hm' a n h
          exact ⟨Or.inr ⟨rfl, by decide, h1, h2, h3⟩, by omega⟩
        · rw [if_neg fun hj => absurd (hj ▸ hv) (by decide)] at hstep
          generalize suivant s (classe (g.yy_ch_buf (bp + k))) = t at *
          rw [lire_yyBase t (vivant_le hv), Fallible.ok_bind]
          by_cases hfin : Final t
          · -- Nothing leads on: the state itself is chosen.
            have hbase : yyBase.getD t 0 = 14 := hfin
            rw [if_neg (not_not.mpr hbase)]
            refine ⟨x, y, t, bp + k + 1, rfl, Or.inl ⟨Nat.succ_ne_zero m, ?_⟩⟩
            intro v a n h
            rw [List.cons_append, automate.scan_step _ _ _ _ hstep,
              automate.scan_final _ _ _ _ fun c => step_final c hv hfin] at h
            obtain ⟨hch, hle⟩ := (hm'.mono (Nat.le_succ k)).choix hv h
            exact ⟨hch, by omega⟩
          · have hbase : yyBase.getD t 0 ≠ 14 := hfin
            rw [if_pos hbase]
            obtain ⟨x', y', s', cp', hrun, hres⟩ := ih (g.marque x y) hv (hm'.mono (Nat.le_succ k))
              (show m + 2 ≤ f + 1 by omega) (show bp + (k + 1) + m = g.yy_n_chars by omega) hsize h0
            refine ⟨x', y', s', cp', hrun, ?_⟩
            rcases hres with ⟨_, hch⟩ | ⟨hs', j, u, last', hj, hz, hadv, hjf, hx, hy⟩
            · refine Or.inl ⟨Nat.succ_ne_zero m, ?_⟩
              intro v a n h
              rw [List.cons_append, automate.scan_step _ _ _ _ hstep] at h
              obtain ⟨h1, h2⟩ := hch v a n h
              exact ⟨h1, by omega⟩
            · refine Or.inr ⟨hs', j + 1, u, last', by omega, ?_, ?_, ?_, hx, by omega⟩
              · have he : bp + k + (j + 1) = bp + (k + 1) + j := by omega
                rw [he]
                exact hz
              · rw [slice_succ, Munch.Automaton.advance, hstep, Option.bind_some]
                exact hadv
              · intro _ hu
                by_cases hj0 : j = 0
                · subst hj0
                  cases hadv
                  exact hfin hu
                · exact hjf hj0 hu

end Guts

end Flex

end Armator
