import Armator.Architecture.PacketText

namespace Armator

open Placed

theorem sum_set_eq_iff {w : Nat} (d : List (BitVec w)) (i : Nat) (b : BitVec w)
    (hi : i < d.length) : (d.set i b).sum = d.sum ↔ b = d.get ⟨i, hi⟩ := by
  induction d generalizing i with
  | nil => exact absurd hi (Nat.not_lt_zero i)
  | cons a d ih =>
      cases i with
      | zero =>
          rw [List.set_cons_zero, List.sum_cons, List.sum_cons]
          exact BitVec.add_left_inj d.sum
      | succ i =>
          rw [List.set_cons_succ, List.sum_cons, List.sum_cons]
          exact (BitVec.add_right_inj a).trans (ih i (Nat.lt_of_succ_lt_succ hi))

theorem eval_hex2 (x : Byte) :
    Hex.eval [Hex.digit (x.toNat / 16 % 16), Hex.digit (x.toNat % 16)] = x.toNat := by
  rw [← hex2_eq, hex2, Hex.eval_print]
  exact Nat.mod_eq_of_lt x.isLt

def corrupted (d : Texte) (i : Nat) (b : Byte) : Texte :=
  octet '$' :: (d.set i b ++ octet '#' :: hex2 d.sum)

namespace Gdb

def Buffered (g : Gdb) (d : Texte) : Prop :=
  slice g.packet 1 d.length = d ∧ g.packet (1 + d.length) = 0

theorem Buffered.withText_eq {g : Gdb} {d : Texte} (h : g.Buffered d) :
    g.withText (d ++ [0]) = g := by
  have hs : slice g.packet 1 (d ++ [0]).length = d ++ [0] := by
    rw [List.length_append, slice_add, h.1]
    exact congrArg (fun c => d ++ [c]) h.2
  rw [withText, place_slice g.packet 1 _ hs]

theorem gdbPacketAnalysis_frame (handler : Byte → Option Handler) (c : Call) (g : Gdb)
    (d suite : Texte) :
    g.gdbPacketAnalysis handler c (frame d ++ 0 :: suite) (frame d).length =
      g.gdbSendAck.dispatch handler c (d ++ 0 :: (hex2 d.sum ++ 0 :: suite)) := by
  obtain ⟨hh, hl⟩ := hex2_digits d.sum
  rw [frame_eq_trame, gdbPacketAnalysis_trame handler c g d suite _ _ hh hl,
    if_pos (eval_hex2 d.sum).symm]
  rfl

theorem gdbPacketAnalysis_corrupted (handler : Byte → Option Handler) (c : Call) (g : Gdb)
    (d suite : Texte) (i : Nat) (b : Byte) (hi : i < d.length) (hb : b ≠ d.get ⟨i, hi⟩) :
    g.gdbPacketAnalysis handler c (corrupted d i b ++ 0 :: suite) (corrupted d i b).length =
      .ok g.gdbRequireRetransmission := by
  obtain ⟨hh, hl⟩ := hex2_digits d.sum
  have hsum : ¬ (d.set i b).sum.toNat =
      Hex.eval [Hex.digit (d.sum.toNat / 16 % 16), Hex.digit (d.sum.toNat % 16)] := by
    rw [eval_hex2]
    exact fun he => hb ((sum_set_eq_iff d i b hi).mp (BitVec.eq_of_toNat_eq he))
  exact (gdbPacketAnalysis_trame handler c g (d.set i b) suite _ _ hh hl).trans (if_neg hsum)

end Gdb

structure FramingRoundTrip (d : Texte) : Prop where
  sent : ∀ g : Gdb, g.Buffered d →
    ∃ g', g.gdbSendBuffer = .ok g' ∧
      g'.lastReply = octet '$' :: (d ++ octet '#' :: hex2 d.sum) ∧
      g'.sortie = g.sortie ++ g'.lastReply
  matched : ∀ rest, paquet (frame d ++ rest) = some (frame d).length
  accepted : ∀ (handler : Byte → Option Gdb.Handler) (c : Call) (g : Gdb) (suite : Texte),
    g.gdbPacketAnalysis handler c (frame d ++ 0 :: suite) (frame d).length =
      match handler (d.headD 0) with
      | some f => f c g.gdbSendAck (d.tail ++ 0 :: (hex2 d.sum ++ 0 :: suite))
      | none => g.gdbSendAck.gdbSendData (texte "")
  refused : ∀ (i : Nat) (hi : i < d.length) (b : Byte), b ≠ d.get ⟨i, hi⟩ → Payload [b] →
    ∀ (handler : Byte → Option Gdb.Handler) (c : Call) (g : Gdb) (suite : Texte),
      g.gdbPacketAnalysis handler c (corrupted d i b ++ 0 :: suite) (corrupted d i b).length =
        .ok { g with sortie := g.sortie ++ texte "-" }

theorem framing_round_trip (d : Texte) (hd : Payload d) (h1 : 1 ≤ d.length)
    (h2 : d.length ≤ 4091) : FramingRoundTrip d := by
  refine ⟨fun g hg => ?_, fun rest => ?_, fun handler c g suite => ?_,
    fun i hi b hb _ handler c g suite => ?_⟩
  · have hmax : MAX_PACKET_SIZE = 4096 := rfl
    have hsend := Gdb.gdbSendBuffer_withText g d hd.ne_zero (by omega)
    rw [hg.withText_eq, if_pos (by omega)] at hsend
    exact ⟨g.answered d, hsend, Gdb.answered_lastReply g d,
      congrArg (g.sortie ++ ·) (Gdb.answered_lastReply g d).symm⟩
  · obtain ⟨hh, hl⟩ := hex2_digits d.sum
    exact paquet_trame d rest _ _ hd.undelimited hh hl
  · obtain ⟨a, r, rfl⟩ := List.exists_cons_of_length_pos h1
    exact Gdb.gdbPacketAnalysis_frame handler c g (a :: r) suite
  · exact Gdb.gdbPacketAnalysis_corrupted handler c g d suite i b hi hb

theorem framed_read_request : FramingRoundTrip (texte "m0,4") :=
  framing_round_trip (texte "m0,4") (by decide) (by decide) (by decide)

end Armator
