import Armator.Architecture.Link

namespace Armator

inductive Disciplined : Link → Parser → List Jeton → Link → Parser → Prop
  | done (l : Link) (d : Parser) : Disciplined l d [] l d
  | next {l l₁ l' : Link} {d d₁ d' : Parser} {t : Jeton} {ts : List Jeton} {out : Texte}
      (first : Exchange l d t out l₁ d₁) (rest : Disciplined l₁ d₁ ts l' d') :
      Disciplined l d (t :: ts) l' d'

theorem disciplined_of_run {l : Link} {d d' : Parser} {ts : List Jeton} (hl : Known l d)
    (hts : ∀ t ∈ ts, t.complete)
    (h : Fallible.run (Parser.action Gdb.handler) d ts = .ok d') :
    ∃ l', Disciplined l d ts l' d' := by
  induction ts generalizing l d with
  | nil =>
      cases h
      exact ⟨l, .done l _⟩
  | cons t ts ih =>
      obtain ⟨d₁, ht, h⟩ := (Fallible.run_cons_eq_ok _ _ _ _).mp h
      obtain ⟨out, l₁, he⟩ := Parser.action_exchange t hl (hts t List.mem_cons_self) ht
      obtain ⟨l', hr⟩ := ih he.known (fun u hu => hts u (List.mem_cons_of_mem t hu)) h
      exact ⟨l', .next he hr⟩

theorem acknowledgement_discipline (arm : ArmCore) (packet : Nat → Byte)
    (breakpoints : Nat → Word) (buffer : Nat → Byte) (ts : List Jeton) (d : Parser)
    (hts : ∀ t ∈ ts, t.complete)
    (h : Fallible.run (Parser.action Gdb.handler) (gdbScanner arm packet breakpoints buffer) ts =
      .ok d) :
    ∃ l, Disciplined ⟨[], 0⟩ (gdbScanner arm packet breakpoints buffer) ts l d :=
  disciplined_of_run ⟨rfl, rfl⟩ hts h

-- A character out of place, then a request for retransmission before any reply.
theorem stray_before_retransmission :
    ∃ d d', Fallible.run (Parser.action Gdb.handler)
        (gdbScanner (afterReset []) (fun _ => 0) (fun _ => 0) fun _ => 0) [.autre (octet 'x')] =
          .ok d ∧
      d.action Gdb.handler .moins = .ok d' ∧
      d'.gdb ≠ { d.gdb with sortie := d.gdb.sortie ++ d.gdb.lastReply } := by
  refine ⟨_, _, rfl, rfl, fun he => ?_⟩
  have hs := congrArg Gdb.sortie he
  exact absurd hs (by decide)

theorem reply_asked_again :
    ∃ d l, Fallible.run (Parser.action Gdb.handler)
        (gdbScanner (afterReset []) (fun _ => 0) (fun _ => 0) fun _ => 0)
        [.autre (octet 'x'), .trame (texte "$?#3f") [] Call.blank, .moins] = .ok d ∧
      Disciplined ⟨[], 0⟩ (gdbScanner (afterReset []) (fun _ => 0) (fun _ => 0) fun _ => 0)
        [.autre (octet 'x'), .trame (texte "$?#3f") [] Call.blank, .moins] l d := by
  obtain ⟨l, hl⟩ := acknowledgement_discipline (afterReset []) (fun _ => 0) (fun _ => 0)
    (fun _ => 0) [.autre (octet 'x'), .trame (texte "$?#3f") [] Call.blank, .moins] _ (by decide) rfl
  exact ⟨_, l, rfl, hl⟩

end Armator
