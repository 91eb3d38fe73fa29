import Armator.Properties.DebugSession
import Armator.Simulator.Rio

namespace Armator

namespace Rio

namespace Ecriture

def utile (e : Ecriture) : Bool :=
  match e.place with
  | some n => 0 < n
  | none => false

-- Nothing was taken, and `errno` does not excuse it.
def fatale (e : Ecriture) : Prop := e.utile = false ∧ e.EINTR = false

end Ecriture

section Boucle

theorem write_pos_iff (e : Ecriture) {nleft : Nat} (h : 0 < nleft) :
    0 < write e nleft ↔ e.utile = true := by
  obtain ⟨place, errno⟩ := e
  cases place with
  | none => simp [write, Ecriture.utile]
  | some n =>
      simp [write, Ecriture.utile]
      omega

theorem write_toNat (e : Ecriture) (nleft : Nat) : (write e nleft).toNat ≤ nleft := by
  obtain ⟨place, errno⟩ := e
  cases place with
  | none => simp [write]
  | some n => simp [write]

inductive Ecrit (n : Nat) (es : List Ecriture) (buf : Texte) : Envoi → Prop
  | complet {lus suite : List Ecriture} (hes : es = lus ++ suite)
      (hlus : ∀ e ∈ lus, ¬ e.fatale) (hcount : lus.countP Ecriture.utile ≤ buf.length) :
      Ecrit n es buf ⟨some n, buf, suite⟩
  | attente {s reste : Texte} (hbuf : s ++ reste = buf) (hreste : reste ≠ [])
      (hes : ∀ e ∈ es, ¬ e.fatale) (hcount : es.countP Ecriture.utile ≤ s.length) :
      Ecrit n es buf ⟨none, s, []⟩
  | erreur {s reste : Texte} {suite : List Ecriture} (hbuf : s ++ reste = buf)
      (hreste : reste ≠ []) (hes : ∃ e ∈ es, e.fatale) :
      Ecrit n es buf ⟨some (-1), s, suite⟩

theorem Ecrit.interrompu {n : Nat} {e : Ecriture} {es : List Ecriture} {buf : Texte} {r : Envoi}
    (hu : e.utile = false) (he : e.EINTR = true) (h : Ecrit n es buf r) :
    Ecrit n (e :: es) buf r := by
  have hf : ¬ e.fatale := fun hf => by simp [hf.2] at he
  cases h with
  | complet hes hlus hcount =>
      subst hes
      exact .complet (List.cons_append ..).symm (by simpa [hf] using hlus) (by simpa [hu] using hcount)
  | attente hbuf hreste hes hcount =>
      exact .attente hbuf hreste (by simpa [hf] using hes) (by simpa [hu] using hcount)
  | erreur hbuf hreste hes =>
      obtain ⟨f, hmem, hfatale⟩ := hes
      exact .erreur hbuf hreste ⟨f, List.mem_cons_of_mem _ hmem, hfatale⟩

theorem Ecrit.pris {n k : Nat} {e : Ecriture} {es : List Ecriture} {buf : Texte} {r : Envoi}
    (hu : e.utile = true) (hk : 0 < k) (hle : k ≤ buf.length) (h : Ecrit n es (buf.drop k) r) :
    Ecrit n (e :: es) buf { r with sortie := buf.take k ++ r.sortie } := by
  have hf : ¬ e.fatale := fun hf => by simp [hf.1] at hu
  have hbuf := List.take_append_drop k buf
  have hlen : (buf.take k).length = k := List.length_take_of_le hle
  cases h with
  | complet hes hlus hcount =>
      subst hes
      rw [List.length_drop] at hcount
      dsimp only
      rw [hbuf]
      refine .complet (List.cons_append ..).symm (by simpa [hf] using hlus) ?_
      rw [List.countP_cons_of_pos hu]
      omega
  | attente hs hreste hes hcount =>
      refine .attente (by rw [List.append_assoc, hs, hbuf]) hreste (by simpa [hf] using hes) ?_
      rw [List.countP_cons_of_pos hu, List.length_append, hlen]
      dsimp only
      omega
  | erreur hs hreste hes =>
      obtain ⟨f, hmem, hfatale⟩ := hes
      exact .erreur (by rw [List.append_assoc, hs, hbuf]) hreste
        ⟨f, List.mem_cons_of_mem _ hmem, hfatale⟩

theorem boucle_ecrit (n : Nat) (es : List Ecriture) (buf : Texte) :
    Ecrit n es buf (boucle n es buf) := by
  induction es generalizing buf with
  | nil =>
      cases buf with
      | nil => exact .complet (List.nil_append _).symm (by simp) (by simp)
      | cons c buf => exact .attente rfl (by simp) (by simp) (by simp)
  | cons e es ih =>
      cases buf with
      | nil => exact .complet (List.nil_append _).symm (by simp) (by simp)
      | cons c buf =>
          have hpos := write_pos_iff e (Nat.succ_pos buf.length)
          rw [boucle]
          dsimp only
          split
          · rename_i hle
            have hu : e.utile = false := by
              rw [← Bool.not_eq_true, ← hpos]
              exact Int.not_lt.mpr hle
            split
            · rename_i he
              exact (ih _).interrompu hu he
            · rename_i he
              exact .erreur (List.nil_append _) (by simp) ⟨e, List.mem_cons_self, hu, by simpa using he⟩
          · rename_i hgt
            have hgt := Int.not_le.mp hgt
            exact (ih _).pris (hpos.mp hgt) (Int.lt_toNat.mpr hgt) (write_toNat e _)

end Boucle

inductive Emis (es : List Ecriture) (octets : Texte) : Emission → Prop
  | rendu : Emis es octets ⟨.rendu, octets⟩
  | attente {s reste : Texte} (ho : s ++ reste = octets) (hreste : reste ≠ [])
      (hes : ∀ e ∈ es, ¬ e.fatale) (hcount : es.countP Ecriture.utile ≤ s.length) :
      Emis es octets ⟨.attente, s⟩
  | unixError {s reste : Texte} (ho : s ++ reste = octets) (hreste : reste ≠ [])
      (hes : ∃ e ∈ es, e.fatale) : Emis es octets ⟨.unixError, s⟩

theorem emettre_emis (es : List Ecriture) (ss : List Texte) : Emis es ss.flatten (emettre es ss) := by
  induction ss generalizing es with
  | nil => exact .rendu
  | cons s ss ih =>
      have hr := boucle_ecrit s.length es s
      rw [emettre, rioWriten, List.flatten_cons]
      generalize boucle s.length es s = r at hr
      cases hr with
      | complet hes hlus hcount =>
          rename_i lus suite
          subst hes
          have hm := ih suite
          simp only [ne_eq, not_true_eq_false, if_false]
          generalize emettre suite ss = m at hm
          cases hm with
          | rendu => exact .rendu
          | attente ho hreste hsuite hcount' =>
              refine .attente (by rw [List.append_assoc, ho]) hreste (fun e he => ?_) ?_
              · exact (List.mem_append.mp he).elim (hlus e) (hsuite e)
              · rw [List.countP_append, List.length_append]
                dsimp only
                omega
          | unixError ho hreste hsuite =>
              obtain ⟨e, hmem, hf⟩ := hsuite
              exact .unixError (by rw [List.append_assoc, ho]) hreste
                ⟨e, List.mem_append_right _ hmem, hf⟩
      | attente hbuf hreste hes hcount =>
          refine .attente (by rw [← hbuf, List.append_assoc]) ?_ hes hcount
          simp [hreste]
      | erreur hbuf hreste hes =>
          have hne : (-1 : Int) ≠ s.length := by omega
          simp only [hne, ne_eq, not_false_eq_true, if_true]
          refine .unixError (by rw [← hbuf, List.append_assoc]) ?_ hes
          simp [hreste]

theorem Emis.exact {es : List Ecriture} {octets : Texte} {m : Emission} (h : Emis es octets m) :
    ∃ reste, m.sortie ++ reste = octets ∧ (m.issue = .rendu ↔ reste = []) ∧
      (m.issue = .unixError ↔ reste ≠ [] ∧ ∃ e ∈ es, e.fatale) ∧
      ((∀ e ∈ es, ¬ e.fatale) → octets.length ≤ es.countP Ecriture.utile → reste = []) := by
  cases h with
  | rendu => exact ⟨[], by simp, by simp, by simp, fun _ _ => rfl⟩
  | @attente s reste ho hreste hes hcount =>
      refine ⟨reste, ho, by simp [hreste], ?_, fun _ hn => ?_⟩
      · simpa [hreste] using hes
      · have hlen := congrArg List.length ho
        rw [List.length_append] at hlen
        exact List.length_eq_zero_iff.mp (by omega)
  | @unixError s reste ho hreste hes =>
      refine ⟨reste, ho, by simp [hreste], by simpa [hreste] using hes, fun hn _ => ?_⟩
      obtain ⟨e, hmem, hf⟩ := hes
      exact absurd hf (hn e hmem)

theorem emission_exact (es : List Ecriture) (ss : List Texte) :
    ∃ reste, (emettre es ss).sortie ++ reste = ss.flatten ∧
      ((emettre es ss).issue = .rendu ↔ reste = []) ∧
      ((emettre es ss).issue = .unixError ↔ reste ≠ [] ∧ ∃ e ∈ es, e.fatale) ∧
      ((∀ e ∈ es, ¬ e.fatale) → ss.flatten.length ≤ es.countP Ecriture.utile → reste = []) :=
  (emettre_emis es ss).exact

def courtes : List Ecriture :=
  [⟨some 9, false⟩, ⟨some 1, false⟩, ⟨none, true⟩, ⟨some 0, true⟩, ⟨some 2, false⟩, ⟨some 2, false⟩,
    ⟨some 1, false⟩, ⟨some 1, false⟩, ⟨some 1, false⟩]

theorem emission_exact_short :
    ∃ reste, (emettre courtes [texte "+", texte "$OK#9a"]).sortie ++ reste = texte "+$OK#9a" ∧
      reste = [] := by
  obtain ⟨reste, hs, _, _, hall⟩ := emission_exact courtes [texte "+", texte "$OK#9a"]
  refine ⟨reste, hs, hall (fun e he hf => ?_) (by decide)⟩
  have hbad : ∀ e ∈ courtes, (e.utile || e.EINTR) = true := by decide
  simpa [hf.1, hf.2] using hbad e he

end Rio

open Rio in
theorem delivered_debugging (arm : ArmCore) (packet : Nat → Byte) (breakpoints : Nat → Word)
    (buffer : Nat → Byte) (calls : Nat → Call) (textes : Nat → Nat → Byte) (memoire : Nat → Byte)
    {ms : List Message} {texts : List Texte} (h : List.Forall₂ Sent ms texts)
    {lectures : List Flex.Lecture} (hflux : Flex.flux lectures = texts.flatten)
    (hlen : Flex.Courtes (Flex.flux lectures)) {replies : List Texte} {t : Target}
    (hsession : (Target.initial arm).session (events calls 0 ms) = some (replies, t)) :
    ∃ N, ∀ n, ∃ d,
      (Flex.yylex (Flex.parserActions Gdb.handler calls textes) memoire lectures (N + n)
        (gdbScanner arm packet breakpoints buffer, 0)).map Prod.fst = .ok d ∧ Debugs d.gdb t ∧
      ∀ (es : List Ecriture) (envois : List Texte), envois.flatten = d.gdb.sortie →
        ∃ reste, (emettre es envois).sortie ++ reste = transcript replies ∧
          ((emettre es envois).issue = .rendu ↔ reste = []) ∧
          ((∀ e ∈ es, ¬ e.fatale) → (transcript replies).length ≤ es.countP Ecriture.utile →
            reste = []) := by
  obtain ⟨N, hN⟩ := conducts_stream arm packet breakpoints buffer calls textes memoire h hflux hlen
  refine ⟨N, fun n => ?_⟩
  have hn := hN n
  rw [hsession] at hn
  cases hn with
  | @ended _ _ d hr hd h0 hs =>
      refine ⟨d, hr, hd, fun es envois he => ?_⟩
      have hm := emettre_emis es envois
      rw [he, hs, List.nil_append] at hm
      obtain ⟨reste, ho, hissue, _, hall⟩ := hm.exact
      exact ⟨reste, ho, hissue, hall⟩

open Rio in
theorem delivered_debugging_insert :
    ∃ N, ∀ n, ∃ d,
      (Flex.yylex (Flex.parserActions Gdb.handler (fun _ => Call.blank) fun _ _ => 0) (fun _ => 0)
        [.recu (octet '$') insertText,
          .recu (octet '#') (hex2 insertText.sum ++ texte "+")] (N + n)
        (gdbScanner (afterReset []) (fun _ => 0) (fun _ => 0) fun _ => 0, 0)).map Prod.fst =
          .ok d ∧
      ∃ reste, (emettre courtes [d.gdb.sortie]).sortie ++ reste = texte "+$OK#9a" := by
  have hlen : Flex.Courtes (Flex.flux [.recu (octet '$') insertText,
      .recu (octet '#') (hex2 insertText.sum ++ texte "+")]) :=
    Flex.courtes_of_length (by decide)
  obtain ⟨N, hN⟩ := delivered_debugging (afterReset []) (fun _ => 0) (fun _ => 0) (fun _ => 0)
    (fun _ => Call.blank) (fun _ _ => 0) (fun _ => 0)
    (.cons (.ask spells_insertText (by decide)) (.cons .acknowledge .nil)) (by decide) hlen rfl
  refine ⟨N, fun n => ?_⟩
  obtain ⟨d, hr, _, hall⟩ := hN n
  obtain ⟨reste, hs, _⟩ := hall courtes [d.gdb.sortie] (List.append_nil _)
  exact ⟨d, hr, reste, hs⟩

end Armator
