import Armator.Properties.AssembledPrograms
import Armator.Properties.DebugSession

namespace Armator

open DoWhile

theorem Target.session_append (t : Target) (es es' : List Event) :
    t.session (es ++ es') = (t.session es).bind fun x =>
      (x.2.session es').map fun y => (x.1 ++ y.1, y.2) := by
  induction es generalizing t with
  | nil => simp [Target.session]
  | cons e es ih =>
      cases e with
      | message c m =>
          cases m with
          | ask command =>
              simp only [List.cons_append, Target.session, ih]
              cases t.answer c command with
              | none => rfl
              | some x =>
                  change ((x.2.session es).bind _).bind _ = ((x.2.session es).bind _).bind _
                  cases x.2.session es with
                  | none => rfl
                  | some y =>
                      change ((y.2.session es').map _).bind _ = (y.2.session es').map _
                      cases y.2.session es' <;> rfl
          | acknowledge => exact ih t
      | interrupt h b => exact ih (t.interrupt h b)

section Resume

variable {prog : Programme} {be : Bool} {t : Target} {c : Call} {n : Nat} {e : Etat}

structure Programme.Breaks (prog : Programme) (t : Target) (n : Nat) (e : Etat) : Prop where
  pos : 1 ≤ n
  run : prog.run t.arm.etat n = some e
  point : e.pc ∈ t.breakpoints
  first : ∀ k e', 1 ≤ k → k < n → prog.run t.arm.etat k = some e' → e'.pc ∉ t.breakpoints

theorem resume_program (hh : ∀ k, (c.hosts k).Usual) (hbe : ∀ k, (c.hosts k).ENDIANESS = be)
    (hm : t.arm.mode ∈ armModes) (hl : prog.Loaded be t.arm.mem) (hb : prog.Breaks t n e)
    (hfuel : n ≤ c.fuel) :
    ∃ arm, Shows t.arm e arm ∧
      t.answer c .resume = some (Gdb.stopReason 0, t.withMachine (0, arm)) := by
  have hshows {k : Nat} {e' : Etat} (hk : prog.run t.arm.etat k = some e') :=
    run_shows hh hbe hm hl hk
  have hcode (k : Nat) : iterate machineStep c.hosts t.machine (k + 1) =
      iterate machineStep c.hosts (0, t.arm) (k + 1) := by
    rw [iterate_succ, iterate_succ]
    rfl
  obtain ⟨m, rfl⟩ : ∃ m, n = m + 1 := ⟨n - 1, by have := hb.pos; omega⟩
  have hleast : IsLeast (stopping machineStep (stopped t.breakpoints) c.hosts t.machine) (m + 1) := by
    constructor
    · refine ⟨hb.pos, Or.inl ?_⟩
      rw [hcode, (hshows hb.run).2.pc]
      exact hb.point
    · rintro k ⟨h1, hk⟩
      by_contra hlt
      obtain ⟨j, rfl⟩ : ∃ j, k = j + 1 := ⟨k - 1, by omega⟩
      obtain ⟨e', he'⟩ := advance_prefix hb.run (Nat.le_of_lt (Nat.not_le.mp hlt))
      have hs := hshows he'
      rw [hcode] at hk
      rcases hk with hk | hk
      · rw [hs.2.pc] at hk
        exact hb.first _ e' h1 (Nat.not_le.mp hlt) he' hk
      · exact hk hs.1
  have hrun := hshows hb.run
  rw [Target.answer, loop_eq_some hleast hfuel, Option.map_some, hcode]
  generalize iterate machineStep c.hosts (0, t.arm) (m + 1) = x at hrun
  obtain ⟨code, q⟩ := x
  obtain ⟨rfl, hshow⟩ := hrun
  exact ⟨q, hshow, rfl⟩

end Resume

theorem continued_program (arm : ArmCore) (packet : Nat → Byte) (breakpoints : Nat → Word)
    (buffer : Nat → Byte) {es : List Event} {replies : List Texte} {t : Target}
    (hsession : (Target.initial arm).session es = some (replies, t)) {prog : Programme} {be : Bool}
    (hl : prog.Loaded be t.arm.mem) (hm : t.arm.mode ∈ armModes) {c : Call}
    (hh : ∀ k, (c.hosts k).Usual) (hbe : ∀ k, (c.hosts k).ENDIANESS = be) {n : Nat} {e : Etat}
    (hb : prog.Breaks t n e) (hfuel : n ≤ c.fuel) {tours : List Tour}
    (hes : List.Forall₂ Reaches (es ++ [.message c (.ask .resume)]) tours) :
    ∃ d, Fallible.run (Tour.pas Gdb.handler) (gdbScanner arm packet breakpoints buffer) tours =
        .ok d ∧
      d.gdb.sortie = transcript (replies ++ [texte "S05"]) ∧ d.gdb.target_exception = 0 ∧
      Shows t.arm e d.gdb.arm := by
  obtain ⟨q, hshows, hanswer⟩ := resume_program hh hbe hm hl hb hfuel
  have hend : (Target.initial arm).session (es ++ [.message c (.ask .resume)]) =
      some (replies ++ [texte "S05"], t.withMachine (0, q)) := by
    rw [Target.session_append, hsession]
    change ((t.session [.message c (.ask .resume)]).map _) = _
    rw [Target.session, hanswer]
    rfl
  have hc := conducts_session (gdbScanner_debugs arm packet breakpoints buffer) rfl hes
  rw [hend] at hc
  cases hc with
  | ended hr hd h0 hs =>
      refine ⟨_, hr, hs, hd.code, ?_⟩
      rw [hd.arm]
      exact hshows

theorem escaped_all (d : List Byte) : Escaped (d.flatMap fun b => [0x7d, b ^^^ 0x20]) d := by
  induction d with
  | nil => exact .nil
  | cons b d ih => exact .escape b ih

-- The doubling program, downloaded, and a breakpoint at its jump.
def doublingEvents : List Event :=
  [.message Call.blank (.ask (.download 0 (assembled true doubling.code))),
    .message Call.blank (.ask (.insert 8))]

def doublingDownload : Texte :=
  octet 'X' :: Gdb.downloadText (texte "0") (texte "c")
    ((assembled true doubling.code).flatMap fun b => [0x7d, b ^^^ 0x20])

def jumpText : Texte := octet 'Z' :: pointText (texte "8") (texte "4")

theorem doubling_breaks : doubling.Breaks ⟨0, doublingCore, {8}⟩ 2
    { doublingCore.etat with
      reg := Function.update (Function.update doublingCore.etat.reg 0 1) 0 2, pc := 8
      flags := ⟨false, false, false, false⟩ } where
  pos := by decide
  run := rfl
  point := by decide
  first k e' h1 hk hrun := by
    obtain rfl : k = 1 := by omega
    obtain rfl := Option.some.inj hrun
    decide

def twoSteps : Call := { Call.blank with fuel := 2 }

theorem continued_program_doubling :
    ∃ d, Fallible.run (Tour.pas Gdb.handler)
        (gdbScanner (afterReset [0, 0, 0]) (fun _ => 0) (fun _ => 0) fun _ => 0)
        [.jeton (.trame (frame doublingDownload) [] Call.blank),
          .jeton (.trame (frame jumpText) [] Call.blank),
          .jeton (.trame (frame (texte "c")) [] twoSteps)] = .ok d ∧
      d.gdb.sortie = transcript [texte "OK", texte "OK", texte "S05"] ∧
      armReadRegister d.gdb.arm 0 = 2 := by
  have hdownload : Spells doublingDownload (.download 0 (assembled true doubling.code)) :=
    .download (texte "0") (texte "c") _ 0 _ ⟨⟨by decide, by decide⟩, by decide⟩
      ⟨⟨by decide, by decide⟩, by decide⟩ (by decide) (escaped_all _)
  have hinsert : Spells jumpText (.insert 8) :=
    .insert (texte "8") (texte "4") 8 ⟨⟨by decide, by decide⟩, by decide⟩ ⟨by decide, by decide⟩
  have hsession : (Target.initial (afterReset [0, 0, 0])).session doublingEvents =
      some ([texte "OK", texte "OK"], ⟨0, doublingCore, {8}⟩) := rfl
  have hfuel : 2 ≤ twoSteps.fuel := Nat.le_refl 2
  have hcontinue : Spells (texte "c") .resume := .resume _ [] (Or.inl rfl)
  obtain ⟨d, hr, hs, _, hshows⟩ := continued_program (afterReset [0, 0, 0]) (fun _ => 0) (fun _ => 0)
    (fun _ => 0) hsession (doubling.loaded_storeBytes true _ (by decide) (by decide) (by decide))
    (by decide) (fun _ _ => Or.inr rfl) (fun _ => rfl) doubling_breaks hfuel
    (.cons (.ask _ _ hdownload) (.cons (.ask _ _ hinsert) (.cons (.ask _ _ hcontinue) .nil)))
  exact ⟨d, hr, hs, hshows.reg 0⟩

end Armator
