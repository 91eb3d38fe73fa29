import Armator.Architecture.BreakpointTable
import Armator.Architecture.Replies

namespace Armator

open Placed

def Payload (s : Texte) : Prop := ∀ c ∈ s, c ≠ 0 ∧ c ≠ octet '$' ∧ c ≠ octet '#'

def plain (s : Texte) : Bool := s.all fun c => c.toNat != 0 && c.toNat != 36 && c.toNat != 35

theorem plain_iff (s : Texte) : plain s = true ↔ Payload s := by
  have hne (c d : Byte) : c ≠ d ↔ c.toNat ≠ d.toNat := not_congr BitVec.toNat_inj.symm
  have h0 : (0 : Byte).toNat = 0 := rfl
  have h1 : (octet '$').toNat = 36 := rfl
  have h2 : (octet '#').toNat = 35 := rfl
  rw [plain, List.all_eq_true]
  refine forall₂_congr fun c _ => ?_
  rw [hne c 0, hne c (octet '$'), hne c (octet '#'), h0, h1, h2]
  simp [and_assoc]

instance (s : Texte) : Decidable (Payload s) := decidable_of_iff _ (plain_iff s)

theorem Payload.ne_zero {s : Texte} (h : Payload s) : ∀ c ∈ s, c ≠ 0 := fun c hc => (h c hc).1

theorem Payload.append {s t : Texte} (hs : Payload s) (ht : Payload t) : Payload (s ++ t) := by
  intro c hc
  rcases List.mem_append.mp hc with h | h
  · exact hs c h
  · exact ht c h

theorem payload_of_digits {s : Texte} (h : ∀ c ∈ s, Hex.isDigit c = true) : Payload s := by
  intro c hc
  have hd := h c hc
  refine ⟨?_, ?_, ?_⟩ <;> rintro rfl <;> exact absurd hd (by decide)

theorem payload_hex2 (x : Byte) : Payload (hex2 x) :=
  payload_of_digits fun _ => Hex.isDigit_of_mem_print

theorem payload_hex8 (x : Word) : Payload (hex8 x) :=
  payload_of_digits fun _ => Hex.isDigit_of_mem_print

namespace Gdb

theorem gdbSendData_payload (g : Gdb) (s : Texte) (hs : Payload s)
    (hlen : s.length + 4 < MAX_PACKET_SIZE) : g.gdbSendData s = .ok (g.answered s) := by
  rw [gdbSendData_eq, chaine_eq_self s hs.ne_zero, if_pos hlen]

theorem gdbSendOk_eq (g : Gdb) : g.gdbSendData (texte "OK") = .ok (g.answered (texte "OK")) :=
  gdbSendData_payload g (texte "OK") (by decide) (by decide)

theorem stopReason_mem (e : Int) :
    stopReason e ∈ ["S04", "S0A", "S0B", "X05", "S05"].map texte := by
  unfold stopReason
  repeat' split
  all_goals decide

theorem stopReason_payload (e : Int) : Payload (stopReason e) ∧ (stopReason e).length = 3 := by
  have hall : ∀ s ∈ ["S04", "S0A", "S0B", "X05", "S05"].map texte, Payload s ∧ s.length = 3 := by
    decide
  exact hall _ (stopReason_mem e)

theorem gdbSendStopReason_eq (g : Gdb) :
    g.gdbSendStopReason = .ok (g.answered (stopReason g.target_exception)) := by
  obtain ⟨hp, hl⟩ := stopReason_payload g.target_exception
  refine gdbSendData_payload g _ hp ?_
  rw [hl]
  decide

end Gdb

end Armator
