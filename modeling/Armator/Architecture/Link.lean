import Armator.Architecture.HandlerAnswers
import Armator.Architecture.PacketText

namespace Armator

-- The connection as its client knows it: the last reply, and the number of stray characters for
-- which no retransmission has been required yet.
structure Link where
  last : Texte
  pending : Nat

namespace Link

def complaint (l : Link) : Texte := if l.pending ≠ 0 then texte "-" else []

def settled (l : Link) : Link := { l with pending := 0 }

inductive Sends : Link → Jeton → Texte → Link → Prop
  | ack (l : Link) : Sends l .plus l.complaint l.settled
  | retransmission (l : Link) : Sends l .moins (l.complaint ++ l.last) l.settled
  | refused (l : Link) (d suite : Texte) (h x : Byte) (call : Call)
      (hsum : d.sum.toNat ≠ Hex.eval [h, x]) :
      Sends l (.trame (trame d h x) suite call) (l.complaint ++ texte "-") l.settled
  | killed (l : Link) (d suite : Texte) (h x : Byte) (call : Call)
      (hsum : d.sum.toNat = Hex.eval [h, x]) (hk : d.head? = some (octet 'k')) :
      Sends l (.trame (trame d h x) suite call) (l.complaint ++ texte "+") l.settled
  | replied (l : Link) (d suite : Texte) (h x : Byte) (call : Call) (s : Texte)
      (hsum : d.sum.toNat = Hex.eval [h, x]) (hk : d.head? ≠ some (octet 'k')) (hs : Payload s) :
      Sends l (.trame (trame d h x) suite call) (l.complaint ++ (texte "+" ++ frame s))
        { last := frame s, pending := 0 }
  | stray (l : Link) (c : Byte) (hl : l.pending ≤ MAX_ERROR_SIZE - 2) :
      Sends l (.autre c) [] { l with pending := l.pending + 1 }
  | overflow (l : Link) (c : Byte) (hl : MAX_ERROR_SIZE - 2 < l.pending) :
      Sends l (.autre c) (texte "-") { l with pending := 1 }
  | newline (l : Link) : Sends l .ligne [] l

end Link

def Jeton.complete : Jeton → Prop
  | .trame text _ _ => paquet text = some text.length
  | _ => True

instance : (t : Jeton) → Decidable t.complete
  | .trame text _ _ => inferInstanceAs (Decidable (paquet text = some text.length))
  | .plus | .moins | .autre _ | .ligne => inferInstanceAs (Decidable True)

def Jeton.accepted : Jeton → Prop
  | .trame text _ _ => ∃ d h x, text = Armator.trame d h x ∧ d.sum.toNat = Hex.eval [h, x]
  | _ => False

structure Exchange (l : Link) (d : Parser) (t : Jeton) (out : Texte) (l' : Link) (d' : Parser) :
    Prop where
  sends : l.Sends t out l'
  output : d'.gdb.sortie = d.gdb.sortie ++ out
  kept : d'.gdb.lastReply = l'.last
  pending : d'.len = l'.pending
  quiet : ¬ t.accepted → d'.gdb = { d.gdb with sortie := d.gdb.sortie ++ out }

structure Known (l : Link) (d : Parser) : Prop where
  kept : d.gdb.lastReply = l.last
  pending : d.len = l.pending

theorem Exchange.known {l l' : Link} {d d' : Parser} {t : Jeton} {out : Texte}
    (h : Exchange l d t out l' d') : Known l' d' :=
  ⟨h.kept, h.pending⟩

namespace Parser

theorem handleError_eq {l : Link} {d d' : Parser} (hl : Known l d) (h : d.handleError = .ok d') :
    d'.gdb = { d.gdb with sortie := d.gdb.sortie ++ l.complaint } ∧ d'.len = 0 := by
  rw [handleError] at h
  rw [Link.complaint, ← hl.pending]
  split at h
  · rename_i hne
    obtain ⟨d₁, hw, h⟩ := (Fallible.bind_eq_ok _ _ _).mp h
    rw [ecrireBuffer] at hw
    split at hw
    · cases hw
      cases h
      rw [if_pos hne]
      exact ⟨rfl, rfl⟩
    · cases hw
  · rename_i hz
    cases h
    rw [if_neg hz, List.append_nil]
    exact ⟨rfl, not_not.mp hz⟩

end Parser

theorem dispatch_kill {c : Call} {g g' : Gdb} {body : Texte} (hk : body.headD 0 = octet 'k')
    (h : g.dispatch Gdb.handler c body = .ok g') : g' = { g with ferme := true } := by
  rw [Gdb.dispatch, hk, Gdb.handler_kill] at h
  cases h
  rfl

theorem dispatch_answers {c : Call} {g g' : Gdb} {body : Texte} (hk : body.headD 0 ≠ octet 'k')
    (h : g.dispatch Gdb.handler c body = .ok g') : g.Answers g' := by
  rw [Gdb.dispatch] at h
  cases hf : Gdb.handler (body.headD 0) with
  | none =>
      rw [hf] at h
      exact Gdb.gdbSendData_answers (by decide) rfl h
  | some f =>
      rw [hf] at h
      exact Gdb.handler_answers hf hk h

theorem head_kill_iff (d s : Texte) :
    (d ++ 0 :: s).headD 0 = octet 'k' ↔ d.head? = some (octet 'k') := by
  cases d with
  | nil => exact iff_of_false (show (0 : Byte) ≠ octet 'k' by decide) (by decide)
  | cons c d => exact (Option.some_inj).symm

namespace Parser

variable {l : Link} {d d' : Parser}

theorem plus_exchange (hl : Known l d) (h : d.action Gdb.handler .plus = .ok d') :
    Exchange l d .plus l.complaint l.settled d' := by
  obtain ⟨hg, h0⟩ := handleError_eq hl h
  refine ⟨.ack l, by rw [hg], ?_, h0, fun _ => hg⟩
  rw [hg]
  exact hl.kept

theorem moins_exchange (hl : Known l d) (h : d.action Gdb.handler .moins = .ok d') :
    Exchange l d .moins (l.complaint ++ l.last) l.settled d' := by
  obtain ⟨d₁, he, h⟩ := (Fallible.bind_eq_ok _ _ _).mp h
  obtain ⟨hg, h0⟩ := handleError_eq hl he
  cases h
  have hsent : d₁.gdb.gdbTransmitPacket =
      { d.gdb with sortie := d.gdb.sortie ++ (l.complaint ++ l.last) } := by
    have hlast : (List.range' 0 d₁.gdb.len).map d₁.gdb.packet = l.last := by
      rw [hg]
      exact hl.kept
    rw [Gdb.gdbTransmitPacket, hlast, Gdb.rioWriten, hg, List.append_assoc]
  refine ⟨.retransmission l, by rw [hsent], ?_, h0, fun _ => hsent⟩
  rw [hsent]
  exact hl.kept

theorem ecrireBuffer_eq {i : Nat} {c : Byte} (h : d.ecrireBuffer i c = .ok d') :
    d'.gdb = d.gdb ∧ d'.len = d.len := by
  rw [ecrireBuffer] at h
  split at h
  · cases h
    exact ⟨rfl, rfl⟩
  · cases h

theorem autre_exchange (c : Byte) (hl : Known l d)
    (h : d.action Gdb.handler (.autre c) = .ok d') :
    ∃ out l', Exchange l d (.autre c) out l' d' := by
  rw [action, addCharacterToError] at h
  split at h
  · rename_i hfull
    obtain ⟨d₁, he, h⟩ := (Fallible.bind_eq_ok _ _ _).mp h
    obtain ⟨hg, hlen⟩ := ecrireBuffer_eq h
    obtain ⟨hg₁, h0⟩ := handleError_eq hl he
    dsimp only at hg hlen
    rw [hl.pending] at hfull
    have hc : l.complaint = texte "-" := if_pos (Nat.ne_of_gt (Nat.zero_lt_of_lt hfull))
    rw [hc] at hg₁
    have hgdb := hg.trans hg₁
    refine ⟨_, _, .overflow l c hfull, by rw [hgdb], ?_, by rw [hlen, h0], fun _ => hgdb⟩
    rw [hgdb]
    exact hl.kept
  · rename_i hfree
    obtain ⟨hg, hlen⟩ := ecrireBuffer_eq h
    dsimp only at hg hlen
    rw [hl.pending] at hfree
    refine ⟨_, _, .stray l c (Nat.not_lt.mp hfree), by rw [hg, List.append_nil], ?_,
      by rw [hlen, hl.pending], fun _ => by rw [hg, List.append_nil]⟩
    rw [hg]
    exact hl.kept

theorem trame_exchange (text suite : Texte) (call : Call) (hl : Known l d)
    (ht : paquet text = some text.length)
    (h : d.action Gdb.handler (.trame text suite call) = .ok d') :
    ∃ out l', Exchange l d (.trame text suite call) out l' d' := by
  obtain ⟨p, a, b, rfl, _, ha, hb⟩ := paquet_eq_some ht
  obtain ⟨d₁, he, h⟩ := (Fallible.bind_eq_ok _ _ _).mp h
  obtain ⟨hg, h0⟩ := handleError_eq hl he
  obtain ⟨g, hg', h⟩ := (Fallible.bind_eq_ok _ _ _).mp h
  cases h
  rw [Gdb.gdbPacketAnalysis_trame _ _ _ _ _ _ _ ha hb] at hg'
  by_cases hsum : p.sum.toNat = Hex.eval [a, b]
  · have hacc : (Jeton.trame (trame p a b) suite call).accepted := ⟨p, a, b, rfl, hsum⟩
    have hack : d₁.gdb.gdbSendAck.sortie = d.gdb.sortie ++ (l.complaint ++ texte "+") := by
      rw [Gdb.gdbSendAck, Gdb.rioWriten, hg, List.append_assoc]
    rw [if_pos hsum] at hg'
    by_cases hk : p.head? = some (octet 'k')
    · have hgdb := dispatch_kill ((head_kill_iff p _).mpr hk) hg'
      refine ⟨_, _, .killed l p suite a b call hsum hk, by rw [hgdb]; exact hack, ?_, h0,
        fun hn => absurd hacc hn⟩
      rw [hgdb, Gdb.gdbSendAck, Gdb.rioWriten, hg]
      exact hl.kept
    · obtain ⟨s, hs⟩ := dispatch_answers (fun hc => hk ((head_kill_iff p _).mp hc)) hg'
      refine ⟨_, _, .replied l p suite a b call s hsum hk hs.payload, ?_, hs.kept, h0,
        fun hn => absurd hacc hn⟩
      rw [hs.sent, hack, List.append_assoc, List.append_assoc]
  · rw [if_neg hsum] at hg'
    have hgdb : g = { d.gdb with sortie := d.gdb.sortie ++ (l.complaint ++ texte "-") } := by
      cases hg'
      rw [Gdb.gdbRequireRetransmission, Gdb.rioWriten, hg, List.append_assoc]
    refine ⟨_, _, .refused l p suite a b call hsum, by rw [hgdb], ?_, h0, fun _ => hgdb⟩
    rw [hgdb]
    exact hl.kept

theorem action_exchange (t : Jeton) (hl : Known l d) (ht : t.complete)
    (h : d.action Gdb.handler t = .ok d') : ∃ out l', Exchange l d t out l' d' := by
  cases t with
  | plus => exact ⟨_, _, plus_exchange hl h⟩
  | moins => exact ⟨_, _, moins_exchange hl h⟩
  | trame text suite call => exact trame_exchange text suite call hl ht h
  | autre c => exact autre_exchange c hl h
  | ligne =>
      cases h
      have hout : d.gdb.sortie = d.gdb.sortie ++ [] := (List.append_nil _).symm
      exact ⟨[], l, .newline l, hout, hl.kept, hl.pending, fun _ => by rw [List.append_nil]⟩

end Parser

end Armator
