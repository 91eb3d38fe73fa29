import Armator.Architecture.HandlerBounds
import Armator.Architecture.PacketText

namespace Armator

structure Received where
  call : Call
  packet : Texte
  length : Nat

namespace Gdb

def receive (g : Gdb) (m : Received) : Except Fault Gdb :=
  g.gdbPacketAnalysis handler m.call m.packet m.length

theorem receive_meets {g : Gdb} (ht : g.Tabled) (m : Received) :
    Fallible.Meets (fun _ => True) Tabled (g.receive m) := by
  have hack : g.gdbSendAck.Tabled := ⟨ht.number_le, ht.increasing⟩
  rw [receive, gdbPacketAnalysis]
  dsimp only
  split
  · split
    · rename_i f hf
      exact handler_meets hack hf m.call _
    · exact (gdbSendData_contained hack (by decide) (by decide)).mono (fun _ _ => trivial) fun _ => id
  · exact .ok ⟨ht.number_le, ht.increasing⟩

theorem received_tabled (arm : ArmCore) (packet : Nat → Byte) (breakpoints : Nat → Word)
    (ms : List Received) {g : Gdb}
    (hrun : Fallible.run receive (gdbInitData arm packet breakpoints) ms = .ok g) : g.Tabled := by
  have hmeets := Fallible.run_meets (fun _ m ht => receive_meets ht m)
    (gdbInitData arm packet breakpoints) ms (gdbInitData_tabled arm packet breakpoints)
  rw [hrun] at hmeets
  exact hmeets.of_ok

section Fits

variable (c : Call) (g : Gdb) (d : Texte) (h l : Byte) (suite : Texte)

def ReplyFits : Prop :=
  g.gdbPacketAnalysis handler c (trame d h l ++ 0 :: suite) (trame d h l).length ≠
    .error .debordement

def dumpFrame (t : Texte) : Nat :=
  2 * accessible g.arm.mem.size (declared c t h l suite).1 (declared c t h l suite).2.toNat + 4

theorem memoryReply_fits_iff (mem : Memory) (address size : Word) :
    (memoryReply mem address size).length + 4 < MAX_PACKET_SIZE ↔
      2 * accessible mem.size address size.toNat + 4 < MAX_PACKET_SIZE := by
  rw [memoryReply, ← reach_eq_accessible]
  split
  · rw [length_memoryText]
  · rename_i hout
    rw [reach_outside mem.size address size.toNat (Nat.not_lt.mp hout)]
    exact iff_of_true (by decide) (by decide)

theorem readMemory_fits_iff (t : Texte) :
    g.readMemory c (givenText t h l suite) ≠ .error .debordement ↔
      g.dumpFrame c h l suite t < MAX_PACKET_SIZE := by
  rw [readMemory_eq, dumpFrame, ← memoryReply_fits_iff]
  dsimp only
  rw [← declared]
  split
  · rename_i hfits
    exact iff_of_true (fun hc => nomatch hc) hfits
  · rename_i hfits
    exact iff_of_false (fun hc => hc rfl) hfits

end Fits

theorem replyFits_iff_of_tabled {g : Gdb} (ht : g.Tabled) (c : Call) (d : Texte) (h l : Byte)
    (suite : Texte) (hh : Hex.isDigit h = true) (hl : Hex.isDigit l = true)
    (hsum : d.sum.toNat = Hex.eval [h, l]) :
    g.ReplyFits c d h l suite ↔
      ∀ t, d = octet 'm' :: t → g.dumpFrame c h l suite t < MAX_PACKET_SIZE := by
  have hack : g.gdbSendAck.Tabled := ⟨ht.number_le, ht.increasing⟩
  rw [ReplyFits, gdbPacketAnalysis_trame _ _ _ _ _ _ _ hh hl, if_pos hsum, dispatch]
  cases hf : handler ((d ++ 0 :: h :: l :: 0 :: suite).headD 0) with
  | none =>
      refine iff_of_true ((gdbSendData_contained hack (by decide) (by decide)).ne_error ?_) ?_
      · exact fun hc => hc rfl
      · rintro t rfl
        cases hf
  | some f =>
      by_cases hm : (d ++ 0 :: h :: l :: 0 :: suite).headD 0 = octet 'm'
      · obtain ⟨t, rfl⟩ : ∃ t, d = octet 'm' :: t := by
          cases d with
          | nil =>
              have h0 : (0 : Byte) ≠ octet 'm' := by decide
              exact absurd hm h0
          | cons b t => exact ⟨t, congrArg (· :: t) hm⟩
        cases hf
        refine (readMemory_fits_iff c g.gdbSendAck h l suite t).trans ⟨fun hfits u hu => ?_, ?_⟩
        · cases hu
          exact hfits
        · exact fun hall => hall t rfl
      · refine iff_of_true ((handler_contained hack hf hm c _).ne_error fun hc => hc rfl) ?_
        rintro t rfl
        exact absurd rfl hm

theorem replyFits_iff (arm : ArmCore) (packet : Nat → Byte) (breakpoints : Nat → Word)
    (ms : List Received) (g : Gdb)
    (hrun : Fallible.run receive (gdbInitData arm packet breakpoints) ms = .ok g) (c : Call)
    (d : Texte) (h l : Byte) (suite : Texte) (hh : Hex.isDigit h = true)
    (hl : Hex.isDigit l = true) (hsum : d.sum.toNat = Hex.eval [h, l]) :
    g.ReplyFits c d h l suite ↔
      ∀ t, d = octet 'm' :: t → g.dumpFrame c h l suite t < MAX_PACKET_SIZE :=
  replyFits_iff_of_tabled (received_tabled arm packet breakpoints ms hrun) c d h l suite hh hl hsum

def memory32k : ArmCore := armCreate Host.blank ⟨fun _ => 0⟩ ⟨0x8000, fun _ => 0⟩

def askReason : Received where
  call := Call.blank
  packet := frame (texte "?") ++ [0]
  length := (frame (texte "?")).length

theorem replyFits_longest : ∃ g,
    Fallible.run receive (gdbInitData memory32k (fun _ => 0) (fun _ => 0)) [askReason] = .ok g ∧
      g.ReplyFits Call.blank (texte "m0,7fd") (octet 'c') (octet 'a') [] := by
  refine ⟨_, rfl, (replyFits_iff memory32k (fun _ => 0) (fun _ => 0) [askReason] _ rfl Call.blank
    (texte "m0,7fd") (octet 'c') (octet 'a') [] rfl rfl (by decide)).mpr ?_⟩
  rintro t he
  cases he
  decide

-- The frame for 2046 bytes fills the packet; the NUL behind its checksum is outside.
theorem replyFits_overflow :
    memory32k.mem.size = 0x8000 ∧
      (texte "m0,7fe").sum.toNat = Hex.eval [octet 'c', octet 'b'] ∧
      ¬ (gdbInitData memory32k (fun _ => 0) (fun _ => 0)).ReplyFits Call.blank
        (texte "m0,7fe") (octet 'c') (octet 'b') [] := by
  have hsum : (texte "m0,7fe").sum.toNat = Hex.eval [octet 'c', octet 'b'] := by decide
  have hiff := replyFits_iff_of_tabled (gdbInitData_tabled memory32k (fun _ => 0) (fun _ => 0))
    Call.blank (texte "m0,7fe") (octet 'c') (octet 'b') [] rfl rfl hsum
  exact ⟨rfl, hsum, fun hfits => absurd (hiff.mp hfits _ rfl) (by decide)⟩

end Gdb

end Armator
