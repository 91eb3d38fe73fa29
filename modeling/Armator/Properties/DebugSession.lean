import Armator.Architecture.FlexTokens
import Armator.Properties.DebugCommands
import Armator.Properties.Interruption
import Armator.Properties.Segmentation

namespace Armator

inductive Reaches : Event → Tour → Prop
  | ask (c : Call) {command : Command} {d : Texte} (suite : Texte) (hd : Spells d command) :
      Reaches (.message c (.ask command)) (.jeton (.trame (frame d) suite c))
  | acknowledge (c : Call) : Reaches (.message c .acknowledge) (.jeton .plus)
  | interrupt (h : Host) (e : Byte) : Reaches (.interrupt h e) (.irq h e)

-- What a run makes of a session: the transcript behind what was sent before, and the target at the
-- end, or no end.
inductive Conducts (before : Texte) (r : Except Fault Parser) :
    Option (List Texte × Target) → Prop
  | ended {replies : List Texte} {t : Target} {d : Parser} (hr : r = .ok d) (hd : Debugs d.gdb t)
      (h0 : d.len = 0) (hs : d.gdb.sortie = before ++ transcript replies) :
      Conducts before r (some (replies, t))
  | endless (hr : r = .error .sansFin) : Conducts before r none

theorem Parser.handleError_quiet {d : Parser} (h0 : d.len = 0) : d.handleError = .ok d := by
  rw [handleError, if_neg (not_not.mpr h0)]
  rfl

theorem Debugs.interrupt {g : Gdb} {t : Target} (hd : Debugs g t) (h : Host) (e : Byte) :
    Debugs { g with arm := (armException h g.arm e).2 } (t.interrupt h e) := by
  rw [Target.interrupt, ← hd.arm]
  exact hd.withArm _

theorem Parser.action_ask {d : Parser} (h0 : d.len = 0) (text suite : Texte) (c : Call) :
    d.action Gdb.handler (.trame (frame text) suite c) =
      (d.gdb.request c text suite).map fun gdb => { d with gdb := gdb } := by
  rw [action, handleError_quiet h0, Fallible.ok_bind, ← Gdb.request]
  cases d.gdb.request c text suite <;> rfl

theorem conducts_session {d : Parser} {t : Target} {es : List Event} {tours : List Tour}
    (hd : Debugs d.gdb t) (h0 : d.len = 0) (hes : List.Forall₂ Reaches es tours) :
    Conducts d.gdb.sortie (Fallible.run (Tour.pas Gdb.handler) d tours) (t.session es) := by
  induction hes generalizing d t with
  | nil => exact .ended rfl hd h0 (List.append_nil _).symm
  | cons hreach _ ih =>
      cases hreach with
      | @ask c command text suite hspelt =>
          have hserves := serves_spelt hd c suite hspelt
          rw [Fallible.run, Tour.pas, Parser.action_ask h0, Target.session]
          generalize t.answer c command = o at hserves
          cases hserves with
          | endless hr =>
              rw [hr]
              exact .endless rfl
          | @replied s t' g' hr hd' hs =>
              rw [hr]
              have hrest := ih (d := { d with gdb := g' }) hd' h0
              change Conducts d.gdb.sortie (Fallible.run (Tour.pas Gdb.handler) { d with gdb := g' } _)
                ((t'.session _).bind _)
              generalize t'.session _ = o at hrest
              cases hrest with
              | endless hr => exact .endless hr
              | ended hr hd'' h0' hs' =>
                  refine .ended hr hd'' h0' ?_
                  change _ = g'.sortie ++ _ at hs'
                  rw [hs', hs, List.append_assoc]
                  rfl
      | acknowledge c =>
          rw [Fallible.run, Tour.pas, Parser.action, Parser.handleError_quiet h0, Fallible.ok_bind]
          exact ih hd h0
      | interrupt h e =>
          exact ih (d := d.avec (armException h d.gdb.arm e).2) (hd.interrupt h e) h0

def Target.initial (arm : ArmCore) : Target := ⟨0, arm, ∅⟩

theorem gdbScanner_debugs (arm : ArmCore) (packet : Nat → Byte) (breakpoints : Nat → Word)
    (buffer : Nat → Byte) :
    Debugs (gdbScanner arm packet breakpoints buffer).gdb (Target.initial arm) :=
  ⟨rfl, Gdb.represents_empty rfl⟩

theorem debugger_refinement (arm : ArmCore) (packet : Nat → Byte) (breakpoints : Nat → Word)
    (buffer : Nat → Byte) {es : List Event} {tours : List Tour}
    (hes : List.Forall₂ Reaches es tours) :
    Conducts [] (Fallible.run (Tour.pas Gdb.handler) (gdbScanner arm packet breakpoints buffer) tours)
      ((Target.initial arm).session es) :=
  conducts_session (gdbScanner_debugs arm packet breakpoints buffer) rfl hes

def insertText : Texte := octet 'Z' :: pointText (texte "20") (texte "4")

theorem spells_insertText : Spells insertText (.insert 0x20) :=
  .insert (texte "20") (texte "4") 0x20 ⟨⟨by decide, by decide⟩, by decide⟩ ⟨by decide, by decide⟩

theorem debugger_refinement_insert :
    Conducts [] (Fallible.run (Tour.pas Gdb.handler) Threads.afterResetParser
        [.jeton (.trame (frame insertText) [] Call.blank), .irq Host.blank 1, .jeton .plus,
          .jeton (.trame (frame (octet '?' :: [])) [] Call.blank)])
      ((Target.initial (afterReset [])).session
        [.message Call.blank (.ask (.insert 0x20)), .interrupt Host.blank 1,
          .message Call.blank .acknowledge, .message Call.blank (.ask .why)]) ∧
    ∃ t, (Target.initial (afterReset [])).session
        [.message Call.blank (.ask (.insert 0x20)), .interrupt Host.blank 1,
          .message Call.blank .acknowledge, .message Call.blank (.ask .why)] =
      some ([texte "OK", texte "S05"], t) :=
  ⟨debugger_refinement (afterReset []) (fun _ => 0) (fun _ => 0) (fun _ => 0)
    (.cons (.ask _ _ spells_insertText) (.cons (.interrupt _ _) (.cons (.acknowledge _)
      (.cons (.ask _ _ (.why [])) .nil)))), _, rfl⟩

section Interleaved

theorem reaches_merge {tours : List Tour} {ms : List (Call × Message)} {ts : List Jeton}
    (hms : List.Forall₂ (fun m t => Reaches (.message m.1 m.2) (.jeton t)) ms ts)
    (hts : Tour.jetons tours = ts) :
    ∃ es, List.Forall₂ Reaches es tours ∧ Event.messages es = ms ∧
      Event.interrupts es = Tour.irqs tours := by
  induction tours generalizing ms ts with
  | nil =>
      subst hts
      obtain rfl := List.forall₂_nil_right_iff.mp hms
      exact ⟨[], .nil, rfl, rfl⟩
  | cons tour tours ih =>
      subst hts
      cases tour with
      | jeton t =>
          obtain ⟨m, ms', hm, hrest, rfl⟩ := List.forall₂_cons_right_iff.mp hms
          obtain ⟨es, hes, hmes, hirq⟩ := ih hrest rfl
          exact ⟨.message m.1 m.2 :: es, .cons hm hes, congrArg (List.cons m) hmes, hirq⟩
      | irq h e =>
          obtain ⟨es, hes, hmes, hirq⟩ := ih hms rfl
          exact ⟨.interrupt h e :: es, .cons (.interrupt h e) hes, hmes,
            congrArg (List.cons (h, e)) hirq⟩

open Mutex (Block Config Ended Step)
open Relation (ReflTransGen)
open Threads (Decoupe arrete demarrer joint)

theorem interleaved_debugging {arm : ArmCore} {packet : Nat → Byte} {breakpoints : Nat → Word}
    {buffer : Nat → Byte} {ms : List (Call × Message)} {ts : List Jeton} {irqs : List (Host × Byte)}
    {bs : List (Block (Except Fault Parser) ArmCore)} {cs : List (Block Unit ArmCore)}
    {c : Config Fil.Etat ArmCore}
    (hms : List.Forall₂ (fun m t => Reaches (.message m.1 m.2) (.jeton t)) ms ts)
    (hcut : Decoupe Gdb.handler ts irqs bs cs)
    (hrun : ReflTransGen (Step arrete)
      (demarrer (gdbScanner arm packet breakpoints buffer) bs cs).start c) (he : Ended arrete c) :
    ∃ es, Event.messages es = ms ∧ Event.interrupts es = irqs ∧
      Conducts [] (joint (c.mine .gdb, c.shared)) ((Target.initial arm).session es) := by
  obtain ⟨tours, hts, hirqs, hjoint⟩ := Threads.ended_merge hcut hrun he
  obtain ⟨es, hes, hmes, hint⟩ := reaches_merge hms hts
  refine ⟨es, hmes, hint.trans hirqs, ?_⟩
  rw [hjoint]
  exact conducts_session (gdbScanner_debugs arm packet breakpoints buffer) rfl hes

theorem interleaved_debugging_insert :
    ∃ (es : List Event) (c : Config Fil.Etat ArmCore),
      Event.messages es = [(Call.blank, .ask (.insert 0x20))] ∧
      Event.interrupts es = [(Host.blank, 1)] ∧
      Conducts [] (joint (c.mine .gdb, c.shared)) ((Target.initial (afterReset [])).session es) := by
  have hcut : Decoupe Gdb.handler [.trame (frame insertText) [] Call.blank] [(Host.blank, 1)]
      [Threads.jeton Gdb.handler (.trame (frame insertText) [] Call.blank)]
      [Threads.interruption Host.blank 1] :=
    ⟨.cons rfl .nil, .cons rfl .nil, List.forall_mem_singleton.mpr (Threads.jeton_stops _ _)⟩
  have hms : List.Forall₂ (fun m t => Reaches (.message m.1 m.2) (.jeton t))
      [(Call.blank, .ask (.insert 0x20))] [.trame (frame insertText) [] Call.blank] :=
    .cons (.ask _ _ spells_insertText) .nil
  have hjetons : Tour.jetons [.irq Host.blank 1, .jeton (.trame (frame insertText) [] Call.blank)] =
      [.trame (frame insertText) [] Call.blank] := rfl
  obtain ⟨c, hrun, he, _⟩ := Threads.merge_ended
    (d := gdbScanner (afterReset []) (fun _ => 0) (fun _ => 0) fun _ => 0) hcut hjetons rfl
  obtain ⟨es, hmes, hint, hc⟩ := interleaved_debugging hms hcut hrun he
  exact ⟨es, c, hmes, hint, hc⟩

end Interleaved

section Streams

inductive Sent : Message → Texte → Prop
  | ask {command : Command} {d : Texte} (hd : Spells d command) (hu : Undelimited d) :
      Sent (.ask command) (frame d)
  | acknowledge : Sent .acknowledge (texte "+")

def events (calls : Nat → Call) (i : Nat) : List Message → List Event
  | [] => []
  | m :: ms => .message (calls i) m :: events calls (i + 1) ms

theorem yylex_sent {m : Message} {text : Texte} (h : Sent m text) (s : Texte) :
    ∃ r, Armator.yylex (text ++ s) = (r, text) :: Armator.yylex s ∧
      ∀ (c : Call) (t : Jeton), t.lexeme = (r, text) → Flex.Appele c t →
        Reaches (.message c m) (.jeton t) := by
  cases h with
  | @ask command d hd hu =>
      have hdigits := hex2_digits d.sum
      refine ⟨some .trame, ?_, fun c t ht hc => ?_⟩
      · rw [frame_eq_trame, yylex_trame _ _ _ _ hu hdigits.1 hdigits.2]
      · cases t with
        | trame text suite call =>
            cases ht
            cases hc
            exact .ask c suite hd
        | plus => cases ht
        | moins => cases ht
        | autre c => cases ht
        | ligne => cases ht
  | acknowledge =>
      refine ⟨some .plus, yylex_seule _ _ rfl, fun c t ht _ => ?_⟩
      cases t with
      | plus => exact .acknowledge c
      | moins => cases ht
      | trame text suite call => cases ht
      | autre c => cases ht
      | ligne => cases ht

theorem reaches_stream {ms : List Message} {texts : List Texte} (h : List.Forall₂ Sent ms texts)
    (calls : Nat → Call) (i : Nat) {ts : List Jeton}
    (hts : ts.map Jeton.lexeme = Armator.yylex texts.flatten)
    (hcalls : ∀ j t, ts[j]? = some t → Flex.Appele (calls (i + j)) t) :
    List.Forall₂ Reaches (events calls i ms) (ts.map Tour.jeton) := by
  induction h generalizing i ts with
  | nil =>
      rw [List.flatten_nil, yylex_nil] at hts
      obtain rfl := List.map_eq_nil_iff.mp hts
      exact .nil
  | cons hsent _ ih =>
      obtain ⟨r, hlex, hreach⟩ := yylex_sent hsent (List.flatten _)
      rw [List.flatten_cons, hlex] at hts
      obtain ⟨t, ts', rfl, ht, hts'⟩ := List.map_eq_cons_iff.mp hts
      refine .cons (hreach _ t ht (hcalls 0 t rfl)) (ih (i + 1) hts' fun j u hu => ?_)
      have hj := hcalls (j + 1) u hu
      rwa [← Nat.add_assoc, Nat.add_right_comm] at hj

theorem run_jetons (handler : Byte → Option Gdb.Handler) (d : Parser) (ts : List Jeton) :
    Fallible.run (Tour.pas handler) d (ts.map Tour.jeton) =
      Fallible.run (Parser.action handler) d ts := by
  induction ts generalizing d with
  | nil => rfl
  | cons t ts ih =>
      rw [List.map_cons, Fallible.run, Fallible.run, Tour.pas]
      cases d.action handler t with
      | error e => rfl
      | ok d => exact ih d

theorem conducts_stream (arm : ArmCore) (packet : Nat → Byte) (breakpoints : Nat → Word)
    (buffer : Nat → Byte) (calls : Nat → Call) (textes : Nat → Nat → Byte) (memoire : Nat → Byte)
    {ms : List Message} {texts : List Texte} (h : List.Forall₂ Sent ms texts)
    {lectures : List Flex.Lecture} (hflux : Flex.flux lectures = texts.flatten)
    (hlen : Flex.Courtes (Flex.flux lectures)) :
    ∃ N, ∀ n, Conducts []
      ((Flex.yylex (Flex.parserActions Gdb.handler calls textes) memoire lectures (N + n)
        (gdbScanner arm packet breakpoints buffer, 0)).map Prod.fst)
      ((Target.initial arm).session (events calls 0 ms)) := by
  obtain ⟨N, lus, hlus, hrun, _⟩ := Flex.yylex_eq (Flex.parserActions Gdb.handler calls textes)
    memoire lectures hlen (gdbScanner arm packet breakpoints buffer, 0)
  refine ⟨N, fun n => ?_⟩
  have hlex := Flex.jetons_lexeme calls 0 fun l hl => hlus ▸ List.mem_map_of_mem hl
  rw [hlus, hflux] at hlex
  have hreaches := reaches_stream h calls 0 hlex fun j t => Flex.jetons_appele calls lus 0 j t
  have hsession := conducts_session (gdbScanner_debugs arm packet breakpoints buffer) rfl hreaches
  rw [run_jetons] at hsession
  rw [hrun, Flex.run_parserActions]
  generalize (Target.initial arm).session _ = o at hsession ⊢
  cases hsession with
  | endless hr =>
      rw [hr]
      exact .endless rfl
  | ended hr hd h0 hs =>
      rw [hr]
      exact .ended (Parser.handleError_quiet h0) hd h0 hs

theorem stream_debugging (arm : ArmCore) (packet : Nat → Byte) (breakpoints : Nat → Word)
    (buffer : Nat → Byte) (calls : Nat → Call) (textes : Nat → Nat → Byte) (memoire : Nat → Byte)
    {ms : List Message} {texts : List Texte} (h : List.Forall₂ Sent ms texts)
    {lectures : List Flex.Lecture} (hflux : Flex.flux lectures = texts.flatten)
    (hlen : Flex.Courtes (Flex.flux lectures)) :
    ∃ N, ∀ n, Conducts []
      ((Flex.yylex (Flex.parserActions Gdb.handler calls textes) memoire lectures (N + n)
        (gdbScanner arm packet breakpoints buffer, 0)).map Prod.fst)
      ((Target.initial arm).session (events calls 0 ms)) :=
  conducts_stream arm packet breakpoints buffer calls textes memoire h hflux hlen

theorem stream_debugging_insert :
    ∃ N, ∀ n, Conducts []
      ((Flex.yylex (Flex.parserActions Gdb.handler (fun _ => Call.blank) fun _ _ => 0) (fun _ => 0)
        [.recu (octet '$') insertText,
          .recu (octet '#') (hex2 insertText.sum ++ texte "+")] (N + n)
        (gdbScanner (afterReset []) (fun _ => 0) (fun _ => 0) fun _ => 0, 0)).map Prod.fst)
      ((Target.initial (afterReset [])).session
        (events (fun _ => Call.blank) 0 [.ask (.insert 0x20), .acknowledge])) :=
  stream_debugging (afterReset []) (fun _ => 0) (fun _ => 0) (fun _ => 0) (fun _ => Call.blank)
    (fun _ _ => 0) (fun _ => 0) (.cons (.ask spells_insertText (by decide)) (.cons .acknowledge .nil))
    (by decide) (Flex.courtes_of_length (by decide))

end Streams

end Armator
