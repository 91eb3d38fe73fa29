import Armator.Library.Fallible
import Armator.Library.Placed
import Armator.Simulator.Handlers

namespace Armator

open Placed

@[simp] theorem length_hex2 (x : Byte) : (hex2 x).length = 2 := Hex.length_print 2 x.toNat

def frame (s : Texte) : Texte := octet '$' :: (s ++ octet '#' :: hex2 s.sum)

theorem length_frame (s : Texte) : (frame s).length = s.length + 4 := by
  rw [frame, List.length_cons, List.length_append, List.length_cons, length_hex2]

theorem frame_inj {s t : Texte} (hlen : s.length = t.length) (h : frame s = frame t) : s = t :=
  (List.append_inj (List.cons.inj h).2 hlen).1

namespace Gdb

def withText (g : Gdb) (s : Texte) : Gdb := { g with packet := place g.packet 1 s }

def answered (g : Gdb) (s : Texte) : Gdb :=
  { g with
    packet := place g.packet 0 (frame s ++ [0])
    len := (frame s).length
    sortie := g.sortie ++ frame s }

def lastReply (g : Gdb) : Texte := slice g.packet 0 g.len

@[simp] theorem answered_lastReply (g : Gdb) (s : Texte) : (g.answered s).lastReply = frame s :=
  slice_place_append g.packet 0 (frame s) [0]

theorem answered_sortie_iff (g : Gdb) (s t : Texte) :
    (g.answered s).sortie = g.sortie ++ frame t ↔ frame s = frame t := by
  rw [answered, List.append_cancel_left_eq]

theorem withText_nil (g : Gdb) : g.withText [] = g := by
  rw [withText, place_nil]

theorem copier_eq (g : Gdb) (i : Nat) (s : Texte) :
    g.copier i s = if i + s.length < MAX_PACKET_SIZE then
      .ok { g with packet := place g.packet i (s ++ [0]) } else .error .debordement := by
  induction s generalizing g i with
  | nil =>
      rw [copier, ecrire, List.nil_append, place_cons, place_nil]
      rfl
  | cons c s ih =>
      rw [copier, ecrire, List.length_cons]
      by_cases h : i < MAX_PACKET_SIZE
      · rw [if_pos h, Fallible.ok_bind, ih, List.cons_append, place_cons]
        have he : i + 1 + s.length = i + (s.length + 1) := by omega
        rw [he]
      · rw [if_neg h, if_neg (by omega)]
        rfl

theorem copier_withText (g : Gdb) (s t u : Texte) (hu : u.length ≤ 1) :
    (g.withText (s ++ u)).copier (1 + s.length) t =
      if 1 + s.length + t.length < MAX_PACKET_SIZE then .ok (g.withText (s ++ (t ++ [0])))
      else .error .debordement := by
  have hle : u.length ≤ (t ++ [0]).length := by
    rw [List.length_append]
    exact Nat.le_add_left_of_le hu
  rw [copier_eq, withText, withText]
  dsimp only
  rw [place_extend _ _ _ _ _ _ rfl hle]

theorem sommer_eq (packet : Nat → Byte) (s : Texte) (check : Byte) (i reste : Nat)
    (hs : ∀ c ∈ s, c ≠ 0) (hi : slice packet i s.length = s) (h0 : packet (i + s.length) = 0)
    (hr : s.length < reste) : sommer packet check i reste = .ok (i + s.length, check + s.sum) := by
  induction s generalizing check i reste with
  | nil =>
      obtain ⟨r, rfl⟩ : ∃ r, reste = r + 1 := ⟨reste - 1, by omega⟩
      rw [sommer, if_neg (fun hn => hn h0), List.sum_nil]
      exact congrArg (fun x => Except.ok (i, x)) (BitVec.add_zero check).symm
  | cons c s ih =>
      obtain ⟨r, rfl⟩ : ∃ r, reste = r + 1 := ⟨reste - 1, by omega⟩
      rw [List.length_cons, slice_succ] at hi
      obtain ⟨hc, hi⟩ := List.cons.inj hi
      have hne : packet i ≠ 0 := by
        rw [hc]
        exact hs c List.mem_cons_self
      have hj : i + (c :: s).length = i + 1 + s.length := by
        rw [List.length_cons]
        omega
      rw [hj] at h0 ⊢
      rw [sommer, if_pos hne, ih _ _ _ (fun x hx => hs x (List.mem_cons_of_mem c hx)) hi h0
        (Nat.lt_of_succ_lt_succ hr), List.sum_cons, hc, BitVec.add_assoc]

theorem gdbSendBuffer_withText (g : Gdb) (s : Texte) (hs : ∀ c ∈ s, c ≠ 0)
    (hlen : 1 + s.length < MAX_PACKET_SIZE) :
    (g.withText (s ++ [0])).gdbSendBuffer =
      if s.length + 4 < MAX_PACKET_SIZE then .ok (g.answered s) else .error .debordement := by
  have h0 : 0 < MAX_PACKET_SIZE := by decide
  have hsum : sommer (place g.packet 0 (octet '$' :: s ++ [0])) 0 1 (MAX_PACKET_SIZE - 1) =
      .ok (1 + s.length, s.sum) := by
    have he := sommer_eq (place g.packet 0 (octet '$' :: s ++ [0])) s 0 1 (MAX_PACKET_SIZE - 1) hs
      (by rw [List.cons_append, place_cons]; exact slice_place_append _ _ _ _)
      (by rw [List.cons_append, place_cons]; exact place_append_cons _ _ _ _ _) (by omega)
    exact he.trans (congrArg (fun x => Except.ok (1 + s.length, x)) (BitVec.zero_add s.sum))
  have hopen : 1 + s.length = 0 + (octet '$' :: s).length := by
    rw [List.length_cons]
    omega
  have hclose : 1 + s.length + 1 = 0 + (octet '$' :: s ++ [octet '#']).length := by
    rw [List.length_append, List.length_cons, List.length_singleton]
    omega
  have hframe : octet '$' :: s ++ [octet '#'] ++ (hex2 s.sum ++ [0]) = frame s ++ [0] := by
    simp [frame]
  rw [gdbSendBuffer, ecrire, if_pos h0, Fallible.ok_bind, withText]
  dsimp only
  rw [update_place_before, ← List.cons_append, hsum, Fallible.ok_bind]
  dsimp only
  rw [ecrire, if_pos hlen, Fallible.ok_bind]
  dsimp only
  rw [update_extend _ _ _ _ [0] _ hopen (Nat.le_refl 1), copier_eq, length_hex2]
  dsimp only
  by_cases hfit : s.length + 4 < MAX_PACKET_SIZE
  · have hend : 1 + s.length + 1 + 2 = (frame s).length := by
      rw [length_frame]
      omega
    rw [if_pos (by omega), if_pos hfit, Fallible.ok_bind, hclose, ← place_append, hframe, ← hclose,
      ecrire, if_pos (by omega), Fallible.ok_bind]
    dsimp only
    rw [update_extend _ _ _ _ [0] _ (by rw [hend, Nat.zero_add]) (Nat.le_refl 1), hend]
    rw [gdbTransmitPacket, rioWriten]
    dsimp only
    exact congrArg (fun t => Except.ok { g.answered s with sortie := g.sortie ++ t })
      (answered_lastReply g s)
  · rw [if_neg (by omega), if_neg hfit]
    rfl

theorem gdbSendBuffer_copied (g : Gdb) (s : Texte) (hs : ∀ c ∈ s, c ≠ 0) :
    ((if 1 + s.length < MAX_PACKET_SIZE then Except.ok (g.withText (s ++ [0]))
      else Except.error Fault.debordement) >>= fun g => g.gdbSendBuffer) =
      if s.length + 4 < MAX_PACKET_SIZE then .ok (g.answered s) else .error .debordement := by
  by_cases hlen : 1 + s.length < MAX_PACKET_SIZE
  · rw [if_pos hlen, Fallible.ok_bind]
    exact gdbSendBuffer_withText g s hs hlen
  · rw [if_neg hlen, if_neg (by omega)]
    rfl

theorem gdbSendData_eq (g : Gdb) (data : Texte) :
    g.gdbSendData data =
      if (chaine data).length + 4 < MAX_PACKET_SIZE then .ok (g.answered (chaine data))
      else .error .debordement := by
  rw [gdbSendData, copier_eq]
  exact gdbSendBuffer_copied g (chaine data) (chaine_ne_zero data)

end Gdb

end Armator
