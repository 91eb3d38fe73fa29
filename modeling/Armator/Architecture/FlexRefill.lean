import Armator.Architecture.FlexBuffer

namespace Armator

namespace Flex

open Placed

section Input

theorem flux_append (xs ys : List Lecture) : flux (xs ++ ys) = flux xs ++ flux ys := by
  induction xs with
  | nil => rfl
  | cons l xs ih => rw [List.cons_append, flux, flux, ih, List.append_assoc]

theorem yyInput_flux (max : Nat) (ls : List Lecture) :
    flux ls = (yyInput max ls).1 ++ flux (yyInput max ls).2 := by
  cases ls with
  | nil => rfl
  | cons l ls =>
      obtain ⟨c, s⟩ := l
      rw [flux, yyInput]
      split
      · rfl
      · rename_i d t hd
        change _ = (c :: s).take max ++ (d :: t ++ flux ls)
        rw [← hd, ← List.append_assoc, List.take_append_drop]

theorem yyInput_length (max : Nat) (ls : List Lecture) : (yyInput max ls).1.length ≤ max := by
  cases ls with
  | nil => exact Nat.zero_le _
  | cons l ls =>
      rw [yyInput]
      split
      · rename_i hd
        exact List.drop_eq_nil_iff.mp hd
      · exact List.length_take_le _ _

theorem yyInput_nil {max : Nat} {ls : List Lecture} (hmax : 0 < max)
    (h : (yyInput max ls).1 = []) : flux ls = [] ∧ (yyInput max ls).2 = [] := by
  cases ls with
  | nil => exact ⟨rfl, rfl⟩
  | cons l ls =>
      obtain ⟨m, rfl⟩ : ∃ m, max = m + 1 := ⟨max - 1, by omega⟩
      rw [yyInput] at h
      split at h
      · cases h
      · cases h

theorem yyInput_prompt (max : Nat) (xs ys : List Lecture) (h : flux xs ≠ []) :
    ∃ zs, (yyInput max (xs ++ ys)).2 = zs ++ ys := by
  cases xs with
  | nil => exact absurd rfl h
  | cons l xs =>
      rw [List.cons_append, yyInput]
      split
      · exact ⟨xs, rfl⟩
      · rename_i d t _
        exact ⟨.recu d t :: xs, rfl⟩

end Input

namespace Guts

-- What holds of the buffer whenever the scanner stands at a label.
structure Forme (g : Guts) : Prop where
  place : g.yy_n_chars < g.yy_buf_size
  borne : g.yy_buf_size < 2 ^ 31
  fin : g.yy_ch_buf g.yy_n_chars = 0
  neuf : g.yy_buffer_status = .neuf → g.buffer_n_chars = g.yy_n_chars
  attente : g.yy_buffer_status = .finProche → g.lectures = []

theorem deplacer_eq (g : Guts) (m dest source : Nat) (h : dest ≤ source)
    (hle : source + m ≤ g.yy_buf_size + 2) :
    deplacer m g dest source =
      .ok { g with yy_ch_buf := place g.yy_ch_buf dest (slice g.yy_ch_buf source m) } := by
  induction m generalizing g dest source with
  | zero =>
      rw [deplacer, slice_zero, place_nil]
      rfl
  | succ m ih =>
      have hrec := ih
        { g with yy_ch_buf := Function.update g.yy_ch_buf dest (g.yy_ch_buf source) }
        (dest + 1) (source + 1) (Nat.succ_le_succ h)
        (show source + 1 + m ≤ g.yy_buf_size + 2 by omega)
      rw [deplacer, lireCar_eq g source (by omega), Fallible.ok_bind,
        ecrireCar_eq g dest _ (by omega), Fallible.ok_bind, hrec, slice_succ, place_cons]
      dsimp only
      have hs : slice (Function.update g.yy_ch_buf dest (g.yy_ch_buf source)) (source + 1) m =
          slice g.yy_ch_buf (source + 1) m :=
        slice_congr fun k hk _ => Function.update_of_ne (by omega) _ _
      rw [hs]

theorem numToRead_eq (g : Guts) (m : Nat) (h : m < g.yy_buf_size) (hb : g.yy_buf_size < 2 ^ 31) :
    g.numToRead m = g.yy_buf_size - m - 1 := by
  rw [numToRead, Int.emod_eq_of_lt (by omega) (by omega)]
  omega

theorem agrandir_eq (g : Guts) (m : Nat) (h : m < g.yy_buf_size) (hb : g.yy_buf_size < 2 ^ 31)
    (hm : m + 1 < 2 ^ 30) :
    ∃ size, agrandir m 32 g = .ok ({ g with yy_buf_size := size }, size - m - 1) ∧
      m + 1 < size ∧ size < 2 ^ 31 := by
  rw [agrandir, numToRead_eq g m h hb]
  by_cases h0 : g.yy_buf_size - m - 1 = 0
  · have hn := numToRead_eq { g with yy_buf_size := g.yy_buf_size * 2 } m
      (show m < g.yy_buf_size * 2 by omega) (show g.yy_buf_size * 2 < 2 ^ 31 by omega)
    dsimp only at hn
    rw [if_pos h0, if_neg (by omega), if_neg (by omega), agrandir, hn, if_neg (by omega)]
    exact ⟨g.yy_buf_size * 2, rfl, by omega, by omega⟩
  · rw [if_neg h0]
    exact ⟨g.yy_buf_size, rfl, by omega, hb⟩

-- What stands behind the `m` characters moved to the start, once more has been read.
theorem lireSuite_eq (g : Guts) (m : Nat) (h : m < g.yy_buf_size) (hb : g.yy_buf_size < 2 ^ 31)
    (hm : m + 1 < 2 ^ 30) (hatt : g.yy_buffer_status = .finProche → g.lectures = []) :
    ∃ size s ls,
      g.lireSuite m = .ok { g with
        yy_ch_buf := place g.yy_ch_buf m s
        yy_buf_size := size
        buffer_n_chars := s.length
        yy_n_chars := s.length
        lectures := ls } ∧
      m + s.length < size ∧ size < 2 ^ 31 ∧ flux g.lectures = s ++ flux ls ∧
      (s = [] → flux g.lectures = [] ∧ ls = []) ∧
      ∀ xs ys, g.lectures = xs ++ ys → flux xs ≠ [] → ∃ zs, ls = zs ++ ys := by
  rw [lireSuite]
  by_cases hf : g.yy_buffer_status = .finProche
  · have hl := hatt hf
    refine ⟨g.yy_buf_size, [], g.lectures, ?_, h, hb, rfl, fun _ => ⟨by rw [hl]; rfl, hl⟩, ?_⟩
    · rw [if_pos hf, place_nil]
      rfl
    · intro xs ys hxs hne
      rw [hl] at hxs
      rw [(List.append_eq_nil_iff.mp hxs.symm).1] at hne
      exact absurd rfl hne
  · obtain ⟨size, hag, hlt, hsize⟩ := agrandir_eq g m h hb hm
    have hpos : 0 < min (size - m - 1) YY_READ_BUF_SIZE :=
      lt_min (by omega) (by decide)
    have hlen := yyInput_length (min (size - m - 1) YY_READ_BUF_SIZE) g.lectures
    have hmin := Nat.min_le_left (size - m - 1) YY_READ_BUF_SIZE
    refine ⟨size, (yyInput (min (size - m - 1) YY_READ_BUF_SIZE) g.lectures).1,
      (yyInput (min (size - m - 1) YY_READ_BUF_SIZE) g.lectures).2, ?_, by omega, hsize,
      yyInput_flux _ _, fun hs => yyInput_nil hpos hs, ?_⟩
    · rw [if_neg hf, hag, Fallible.ok_bind]
      dsimp only
      rw [remplir]
      dsimp only
      rw [if_pos (by omega)]
    · intro xs ys hxs hne
      rw [hxs]
      exact yyInput_prompt _ xs ys hne

structure Suivi (g : Guts) (w s : Texte) (g' : Guts) : Prop where
  forme : g'.Forme
  debut : g'.yytext_ptr = 0
  longueur : g'.yy_n_chars = w.length + s.length
  texte : slice g'.yy_ch_buf 0 (w.length + s.length) = w ++ s
  reste : flux g.lectures = s ++ flux g'.lectures
  prompt : ∀ xs ys, g.lectures = xs ++ ys → flux xs ≠ [] → ∃ zs, g'.lectures = zs ++ ys

inductive Recharge (g : Guts) (w : Texte) : Guts × Suivant → Prop
  | endOfFile (g' : Guts) (hw : w = []) (hg : flux g.lectures = []) : Recharge g w (g', .endOfFile)
  | continueScan (g' : Guts) (s : Texte) (hs : s ≠ []) (h : g.Suivi w s g') :
      Recharge g w (g', .continueScan)
  | lastMatch (g' : Guts) (hw : w ≠ []) (hg : flux g.lectures = []) (h : g.Suivi w [] g') :
      Recharge g w (g', .lastMatch)

theorem yyLoadBufferState_eq (g : Guts) :
    g.yyLoadBufferState 0 = .ok { g with
      yy_n_chars := g.buffer_n_chars
      yytext_ptr := 0
      yy_c_buf_p := 0
      yy_hold_char := g.yy_ch_buf 0 } := by
  rw [yyLoadBufferState, lireCar_eq _ _ (Nat.succ_pos _)]
  rfl

theorem yyFlushBuffer_eq (g : Guts) :
    g.yyFlushBuffer false = .ok { g with
      yy_ch_buf := Function.update (Function.update g.yy_ch_buf 0 0) 1 0
      buffer_n_chars := 0
      yy_buffer_status := .neuf } := by
  rw [yyFlushBuffer, ecrireCar_eq _ 0 _ (Nat.succ_pos _), Fallible.ok_bind,
    ecrireCar_eq _ 1 _ (Nat.succ_lt_succ (Nat.succ_pos _))]
  rfl

theorem yyrestart_eq (g : Guts) :
    ∃ g', g.yyrestart = .ok g' ∧ g'.yy_n_chars = 0 ∧ g'.yy_buf_size = g.yy_buf_size := by
  have hflush : g.yyFlushBuffer true =
      g.yyFlushBuffer false >>= fun g => g.yyLoadBufferState 0 := by
    rw [yyFlushBuffer_eq, yyFlushBuffer, ecrireCar_eq _ 0 _ (Nat.succ_pos _), Fallible.ok_bind,
      ecrireCar_eq _ 1 _ (Nat.succ_lt_succ (Nat.succ_pos _))]
    rfl
  rw [yyrestart, hflush, yyFlushBuffer_eq, Fallible.ok_bind, yyLoadBufferState_eq,
    Fallible.ok_bind, yyLoadBufferState_eq]
  exact ⟨_, rfl, rfl, rfl⟩

theorem clore_eq (g : Guts) (m : Nat) (h : g.yy_n_chars + m ≤ g.yy_buf_size) :
    g.clore m = .ok { g with
      yy_ch_buf := place g.yy_ch_buf (g.yy_n_chars + m) [0, 0]
      yy_n_chars := g.yy_n_chars + m
      yytext_ptr := 0 } := by
  rw [clore, if_neg (Nat.not_lt.mpr h)]
  dsimp only
  rw [ecrireCar_eq _ _ _ (by dsimp only; omega), Fallible.ok_bind,
    ecrireCar_eq _ _ _ (by dsimp only; omega), place_cons, place_cons, place_nil]
  rfl

theorem clore_suivi (g g₁ : Guts) (w s : Texte) (hn : g₁.yy_n_chars = s.length)
    (hbuf : slice g₁.yy_ch_buf 0 (w.length + s.length) = w ++ s)
    (hlt : w.length + s.length < g₁.yy_buf_size) (hb : g₁.yy_buf_size < 2 ^ 31)
    (hneuf : g₁.yy_buffer_status ≠ .neuf)
    (hatt : g₁.yy_buffer_status = .finProche → g₁.lectures = [])
    (hreste : flux g.lectures = s ++ flux g₁.lectures)
    (hprompt : ∀ xs ys, g.lectures = xs ++ ys → flux xs ≠ [] → ∃ zs, g₁.lectures = zs ++ ys) :
    ∃ g', g₁.clore w.length = .ok g' ∧ g.Suivi w s g' := by
  have hadd : g₁.yy_n_chars + w.length = w.length + s.length := by omega
  refine ⟨_, clore_eq g₁ w.length (by omega), ?_⟩
  refine ⟨⟨?_, hb, ?_, fun h => absurd h hneuf, hatt⟩, rfl, hadd, ?_, hreste, hprompt⟩
  · change g₁.yy_n_chars + w.length < g₁.yy_buf_size
    omega
  · change place g₁.yy_ch_buf (g₁.yy_n_chars + w.length) [0, 0] (g₁.yy_n_chars + w.length) = 0
    rw [place_cons, place_outside _ _ _ _ (Or.inl (Nat.lt_succ_self _)), Function.update_self]
  · change slice (place g₁.yy_ch_buf (g₁.yy_n_chars + w.length) [0, 0]) 0 _ = _
    rw [hadd, slice_place_outside _ _ _ _ _ (Or.inl (by omega)), hbuf]

theorem yyGetNextBuffer_eq (g : Guts) (w : Texte) (hg : g.Forme)
    (hc : g.yy_c_buf_p = g.yy_n_chars + 1) (hbp : g.yytext_ptr + w.length = g.yy_n_chars)
    (hw : slice g.yy_ch_buf g.yytext_ptr w.length = w) (hlen : w.length + 1 < 2 ^ 30)
    (hneuf : g.yy_buffer_status ≠ .neuf) :
    ∃ r, g.yyGetNextBuffer = .ok r ∧ g.Recharge w r := by
  have hm : g.yy_c_buf_p - g.yytext_ptr - 1 = w.length := by omega
  have hplace := hg.place
  obtain ⟨size, s, ls, hlire, hlt, hsize, hflux, hnil, hprompt⟩ :=
    lireSuite_eq { g with yy_ch_buf := place g.yy_ch_buf 0 w } w.length
      (show w.length < g.yy_buf_size by omega) hg.borne hlen hg.attente
  have hbuf : slice (place (place g.yy_ch_buf 0 w) w.length s) 0 (w.length + s.length) = w ++ s := by
    have h := slice_place g.yy_ch_buf 0 (w ++ s)
    rw [place_append, List.length_append, Nat.zero_add] at h
    exact h
  rw [yyGetNextBuffer, if_neg (by omega), hm]
  dsimp only
  rw [deplacer_eq g _ _ _ (Nat.zero_le _) (by omega), Fallible.ok_bind, hw, hlire, Fallible.ok_bind,
    conclure]
  dsimp only
  by_cases hs : s = []
  · subst hs
    obtain ⟨hend, hls⟩ := hnil rfl
    rw [if_pos List.length_nil]
    by_cases h0 : w = []
    · subst h0
      obtain ⟨g', hrest, hn, hbs⟩ := yyrestart_eq { g with
        yy_ch_buf := place (place g.yy_ch_buf 0 []) 0 []
        yy_buf_size := size
        buffer_n_chars := 0
        yy_n_chars := 0
        lectures := ls }
      have hclore := clore_eq g' 0 (by rw [hn]; exact Nat.zero_le _)
      simp only [List.length_nil, if_true]
      change ∃ r, ((yyrestart _ >>= fun g => Except.ok (g, Suivant.endOfFile)) >>= fun p =>
        p.1.clore 0 >>= fun g => Except.ok (g, p.2)) = Except.ok r ∧ _
      rw [hrest, Fallible.ok_bind, Fallible.ok_bind, hclore]
      exact ⟨_, rfl, Recharge.endOfFile _ rfl hend⟩
    · obtain ⟨g', hclore, hsuivi⟩ := clore_suivi g { g with
        yy_ch_buf := place (place g.yy_ch_buf 0 w) w.length []
        yy_buf_size := size
        buffer_n_chars := 0
        yy_buffer_status := .finProche
        yy_n_chars := 0
        lectures := ls } w [] rfl hbuf hlt hsize
        (show Statut.finProche ≠ Statut.neuf by decide) (fun _ => hls) hflux hprompt
      rw [if_neg fun h => h0 (List.eq_nil_of_length_eq_zero h), Fallible.ok_bind]
      change ∃ r, (clore _ w.length >>= fun g => Except.ok (g, Suivant.lastMatch)) = Except.ok r ∧ _
      rw [List.length_nil, hclore]
      exact ⟨_, rfl, Recharge.lastMatch _ h0 hend hsuivi⟩
  · obtain ⟨g', hclore, hsuivi⟩ := clore_suivi g { g with
      yy_ch_buf := place (place g.yy_ch_buf 0 w) w.length s
      yy_buf_size := size
      buffer_n_chars := s.length
      yy_n_chars := s.length
      lectures := ls } w s rfl hbuf hlt hsize hneuf
      (fun h => by
        have hl := hg.attente h
        have hsn : s = [] ∧ flux ls = [] := by
          refine List.append_eq_nil_iff.mp (hflux.symm.trans ?_)
          exact congrArg flux hl
        exact absurd hsn.1 hs) hflux hprompt
    rw [if_neg fun h => hs (List.eq_nil_of_length_eq_zero h), Fallible.ok_bind]
    change ∃ r, (clore _ w.length >>= fun g => Except.ok (g, Suivant.continueScan)) = Except.ok r ∧ _
    rw [hclore]
    exact ⟨_, rfl, Recharge.continueScan _ s hs hsuivi⟩

end Guts

end Flex

end Armator
