import Armator.Architecture.Interleaving
import Armator.Architecture.Link
import Armator.Architecture.PacketText

namespace Armator

namespace Threads

open Mutex (Block Config Done Ended Step)
open Relation (ReflTransGen)

section Executions

variable {handler : Byte → Option Gdb.Handler} {d : Parser} {ts : List Jeton}
  {es : List (Host × Byte)} {bs : List (Block (Except Fault Parser) ArmCore)}
  {cs : List (Block Unit ArmCore)}

theorem interleaving_exact (h : Decoupe handler ts es bs cs) (r : Except Fault Parser) :
    (∃ c, ReflTransGen (Step arrete) (demarrer d bs cs).start c ∧ Ended arrete c ∧
      joint (c.mine .gdb, c.shared) = r) ↔
    ∃ evs, Tour.jetons evs = ts ∧ Tour.irqs evs = es ∧
      Fallible.run (Tour.pas handler) d evs = r := by
  constructor
  · rintro ⟨c, hrun, he, rfl⟩
    obtain ⟨evs, hts, hes, hjoint⟩ := ended_merge h hrun he
    exact ⟨evs, hts, hes, hjoint.symm⟩
  · rintro ⟨evs, hts, hes, rfl⟩
    exact merge_ended h hts hes

def afterResetParser : Parser :=
  gdbScanner (afterReset []) (fun _ => 0) (fun _ => 0) fun _ => 0

def question : Jeton := .trame (texte "$?#3f") [] Call.blank

-- A frame to answer, and a reset that `irq_listener` raises in two accesses.
theorem question_reset :
    Decoupe Gdb.handler [question] [(Host.blank, 1)] [jeton Gdb.handler question]
      [⟨[id], some [id, fun p => ((), (armException Host.blank p.2 1).2)]⟩] :=
  ⟨.cons rfl .nil, .cons rfl .nil, List.forall_mem_singleton.mpr (jeton_stops _ _)⟩

theorem interleaving_exact_reset :
    ∃ c, ReflTransGen (Step arrete)
        (demarrer afterResetParser [jeton Gdb.handler question]
          [⟨[id], some [id, fun p => ((), (armException Host.blank p.2 1).2)]⟩]).start c ∧
      Ended arrete c ∧ joint (c.mine .gdb, c.shared) =
        Fallible.run (Tour.pas Gdb.handler) afterResetParser
          [.irq Host.blank 1, .jeton question] :=
  (interleaving_exact question_reset _).mpr
    ⟨[.irq Host.blank 1, .jeton question], rfl, rfl, rfl⟩

end Executions

inductive Served : Link → Parser → List Tour → Link → Parser → Prop
  | done (l : Link) (d : Parser) : Served l d [] l d
  | token {l l₁ l' : Link} {d d₁ d' : Parser} {t : Jeton} {evs : List Tour} {out : Texte}
      (first : Exchange l d t out l₁ d₁) (rest : Served l₁ d₁ evs l' d') :
      Served l d (.jeton t :: evs) l' d'
  | interrupt {l l' : Link} {d d' : Parser} {h : Host} {e : Byte} {evs : List Tour}
      (rest : Served l (d.avec (armException h d.gdb.arm e).2) evs l' d') :
      Served l d (.irq h e :: evs) l' d'

theorem served_of_run {l : Link} {d d' : Parser} {evs : List Tour} (hl : Known l d)
    (hts : ∀ t ∈ Tour.jetons evs, t.complete)
    (h : Fallible.run (Tour.pas Gdb.handler) d evs = .ok d') : ∃ l', Served l d evs l' d' := by
  induction evs generalizing l d with
  | nil =>
      cases h
      exact ⟨l, .done l _⟩
  | cons e evs ih =>
      obtain ⟨d₁, he, hrest⟩ := (Fallible.run_cons_eq_ok _ _ _ _).mp h
      cases e with
      | jeton t =>
          obtain ⟨out, l₁, hx⟩ := Parser.action_exchange t hl (hts t List.mem_cons_self) he
          obtain ⟨l', hr⟩ := ih hx.known (fun u hu => hts u (List.mem_cons_of_mem t hu)) hrest
          exact ⟨l', .token hx hr⟩
      | irq host e =>
          cases he
          have hl' : Known l (d.avec (armException host d.gdb.arm e).2) := ⟨hl.kept, hl.pending⟩
          obtain ⟨l', hr⟩ := ih hl' hts hrest
          exact ⟨l', .interrupt hr⟩

theorem interrupted_acknowledgement {arm : ArmCore} {packet : Nat → Byte}
    {breakpoints : Nat → Word} {buffer : Nat → Byte} {ts : List Jeton} {es : List (Host × Byte)}
    {bs : List (Block (Except Fault Parser) ArmCore)} {cs : List (Block Unit ArmCore)}
    {c : Config Fil.Etat ArmCore} {d' : Parser} (h : Decoupe Gdb.handler ts es bs cs)
    (hts : ∀ t ∈ ts, t.complete)
    (hrun : ReflTransGen (Step arrete)
      (demarrer (gdbScanner arm packet breakpoints buffer) bs cs).start c) (hd : Done c)
    (hok : c.mine .gdb = .ok d') :
    ∃ evs l, Tour.jetons evs = ts ∧ Tour.irqs evs = es ∧
      Served ⟨[], 0⟩ (gdbScanner arm packet breakpoints buffer) evs l (d'.avec c.shared) := by
  obtain ⟨evs, hts', hes, hjoint⟩ := ended_merge h hrun (Or.inl hd)
  rw [hok] at hjoint
  have hl : Known ⟨[], 0⟩ (gdbScanner arm packet breakpoints buffer) := ⟨rfl, rfl⟩
  obtain ⟨l, hs⟩ := served_of_run hl (by rw [hts']; exact hts) hjoint.symm
  exact ⟨evs, l, hts', hes, hs⟩

theorem interrupted_acknowledgement_reset :
    ∃ (d' : Parser) (evs : List Tour) (l : Link) (arm : ArmCore),
      Tour.jetons evs = [question] ∧ Tour.irqs evs = [(Host.blank, 1)] ∧
      Served ⟨[], 0⟩ afterResetParser evs l (d'.avec arm) := by
  have hlive := (question_reset.demarrer afterResetParser)
  obtain ⟨evs, l, h⟩ := interrupted_acknowledgement question_reset (by decide)
    (Mutex.serial_reaches _ hlive.1 hlive.2 [.irq, .gdb] fun i => by
      cases i with
      | gdb => rintro ⟨e, he⟩; cases he
      | irq => exact id)
    (fun i => ⟨rfl, by cases i <;> rfl⟩) rfl
  exact ⟨_, evs, l, _, h⟩

end Threads

end Armator
