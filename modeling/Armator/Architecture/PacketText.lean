import Armator.Architecture.HandlerReplies
import Armator.Architecture.Numerals
import Armator.Simulator.Scanner

namespace Armator

def trame (d : Texte) (h l : Byte) : Texte := octet '$' :: (d ++ [octet '#', h, l])

def Undelimited (d : Texte) : Prop := ∀ c ∈ d, c ≠ octet '$' ∧ c ≠ octet '#'

instance (d : Texte) : Decidable (Undelimited d) :=
  inferInstanceAs (Decidable (∀ c ∈ d, c ≠ octet '$' ∧ c ≠ octet '#'))

theorem Payload.undelimited {d : Texte} (hd : Payload d) : Undelimited d := fun c hc => (hd c hc).2

theorem length_trame (d : Texte) (h l : Byte) : (trame d h l).length = d.length + 4 := by
  rw [trame, List.length_cons, List.length_append]
  rfl

theorem trame_append (d s : Texte) (h l : Byte) :
    trame d h l ++ s = octet '$' :: (d ++ octet '#' :: h :: l :: s) := by
  rw [trame, List.cons_append, List.append_assoc]
  rfl

theorem hex2_eq (x : Byte) :
    hex2 x = [Hex.digit (x.toNat / 16 % 16), Hex.digit (x.toNat % 16)] := rfl

theorem frame_eq_trame (d : Texte) :
    frame d = trame d (Hex.digit (d.sum.toNat / 16 % 16)) (Hex.digit (d.sum.toNat % 16)) := rfl

theorem hex2_digits (x : Byte) :
    Hex.isDigit (Hex.digit (x.toNat / 16 % 16)) = true ∧
      Hex.isDigit (Hex.digit (x.toNat % 16)) = true :=
  ⟨Hex.isDigit_digit _ (Nat.mod_lt _ (by decide)), Hex.isDigit_digit _ (Nat.mod_lt _ (by decide))⟩

theorem corps_of_undelimited (d s : Texte) (h l : Byte) (hd : Undelimited d)
    (hh : Hex.isDigit h = true) (hl : Hex.isDigit l = true) :
    corps (d ++ octet '#' :: h :: l :: s) = some (d.length + 3) := by
  induction d with
  | nil =>
      rw [List.nil_append, corps, if_pos rfl]
      exact if_pos ⟨hh, hl⟩
  | cons c d ih =>
      obtain ⟨h1, h2⟩ := hd c List.mem_cons_self
      rw [List.cons_append, corps, if_neg h2, if_neg h1,
        ih (fun x hx => hd x (List.mem_cons_of_mem c hx)), Option.map_some, List.length_cons]

theorem queue_eq_some {s : Texte} {n : Nat} (hs : queue s = some n) :
    ∃ h l r, s = h :: l :: r ∧ n = 3 ∧ Hex.isDigit h = true ∧ Hex.isDigit l = true := by
  unfold queue at hs
  split at hs
  · rename_i h l r
    split at hs
    · rename_i hd
      cases hs
      exact ⟨h, l, r, rfl, rfl, hd.1, hd.2⟩
    · cases hs
  · cases hs

theorem corps_eq_some {s : Texte} {n : Nat} (hs : corps s = some n) :
    ∃ d h l r, s = d ++ octet '#' :: h :: l :: r ∧ n = d.length + 3 ∧ Undelimited d ∧
      Hex.isDigit h = true ∧ Hex.isDigit l = true := by
  induction s generalizing n with
  | nil => cases hs
  | cons c s ih =>
      rw [corps] at hs
      by_cases h2 : c = octet '#'
      · rw [if_pos h2] at hs
        obtain ⟨h, l, r, rfl, rfl, hh, hl⟩ := queue_eq_some hs
        exact ⟨[], h, l, r, by rw [h2]; rfl, rfl, fun x hx => (List.not_mem_nil hx).elim, hh, hl⟩
      · rw [if_neg h2] at hs
        by_cases h1 : c = octet '$'
        · rw [if_pos h1] at hs
          cases hs
        · rw [if_neg h1] at hs
          obtain ⟨m, hm, rfl⟩ := Option.map_eq_some_iff.mp hs
          obtain ⟨d, h, l, r, rfl, rfl, hd, hh, hl⟩ := ih hm
          refine ⟨c :: d, h, l, r, rfl, by rw [List.length_cons], ?_, hh, hl⟩
          intro x hx
          rcases List.mem_cons.mp hx with rfl | hx
          · exact ⟨h1, h2⟩
          · exact hd x hx

theorem paquet_trame (d s : Texte) (h l : Byte) (hd : Undelimited d) (hh : Hex.isDigit h = true)
    (hl : Hex.isDigit l = true) : paquet (trame d h l ++ s) = some (trame d h l).length := by
  have hc := corps_of_undelimited d s h l hd hh hl
  rw [trame_append, paquet, if_pos rfl, hc, length_trame]
  rfl

theorem paquet_eq_some {text : Texte} (ht : paquet text = some text.length) :
    ∃ d h l, text = trame d h l ∧ Undelimited d ∧ Hex.isDigit h = true ∧
      Hex.isDigit l = true := by
  cases text with
  | nil => cases ht
  | cons c s =>
      rw [paquet] at ht
      by_cases h1 : c = octet '$'
      · rw [if_pos h1] at ht
        obtain ⟨n, hn, he⟩ := Option.map_eq_some_iff.mp ht
        obtain ⟨d, h, l, r, rfl, rfl, hd, hh, hl⟩ := corps_eq_some hn
        have hr : r = [] := by
          rw [List.length_cons, List.length_append] at he
          simp only [List.length_cons] at he
          exact List.eq_nil_of_length_eq_zero (by omega)
        exact ⟨d, h, l, by rw [hr, h1, trame], hd, hh, hl⟩
      · rw [if_neg h1] at ht
        cases ht

namespace Gdb

def dispatch (handler : Byte → Option Handler) (c : Call) (g : Gdb) (body : Texte) :
    Except Fault Gdb :=
  match handler (body.headD 0) with
  | some f => f c g (body.drop 1)
  | none => g.gdbSendData (texte "")

section Received

variable (c : Byte) (d s : Texte)

theorem received_payload : ((c :: (d ++ s)).take (d.length + 1)).drop 1 = d := by
  rw [List.take_succ_cons, List.drop_succ_cons, List.drop_zero, List.take_left]

theorem received_checksum (x : Byte) :
    (c :: (d ++ x :: s)).drop (d.length + 1 + 1) = s := by
  rw [List.drop_succ_cons, List.drop_append, List.drop_of_length_le (Nat.le_succ _),
    Nat.add_sub_cancel_left]
  rfl

theorem received_closed (x y : Byte) :
    (c :: (d ++ x :: s)).set (d.length + 1) y = c :: (d ++ y :: s) := by
  rw [List.set_cons_succ, List.set_append_right _ _ (Nat.le_refl _), Nat.sub_self]
  rfl

theorem received_index : (c :: (d ++ s)).getD 1 0 = (d ++ s).headD 0 := by
  cases d ++ s <;> rfl

end Received

theorem gdbPacketAnalysis_trame (handler : Byte → Option Handler) (c : Call) (g : Gdb)
    (d suite : Texte) (h l : Byte) (hh : Hex.isDigit h = true) (hl : Hex.isDigit l = true) :
    g.gdbPacketAnalysis handler c (trame d h l ++ 0 :: suite) (trame d h l).length =
      if d.sum.toNat = Hex.eval [h, l] then
        g.gdbSendAck.dispatch handler c (d ++ 0 :: h :: l :: 0 :: suite)
      else .ok g.gdbRequireRetransmission := by
  have hi : max 1 ((trame d h l).length - 3) = d.length + 1 := by
    rw [length_trame]
    omega
  rw [gdbPacketAnalysis, hi, trame_append]
  dsimp only
  rw [received_payload, received_checksum, sscanfX_two h l suite _ hh hl, received_closed,
    received_index]
  have hiff : d.sum.setWidth 32 = BitVec.ofNat 32 (Hex.eval [h, l]) ↔
      d.sum.toNat = Hex.eval [h, l] := by
    have hlt := eval_two_lt h l
    have hsum := d.sum.isLt
    rw [← BitVec.toNat_inj, BitVec.toNat_setWidth, BitVec.toNat_ofNat, Nat.mod_eq_of_lt (by omega),
      Nat.mod_eq_of_lt (by omega)]
  by_cases hs : d.sum.toNat = Hex.eval [h, l]
  · rw [if_pos hs, if_pos (hiff.mpr hs)]
    rfl
  · rw [if_neg hs, if_neg (fun hc => hs (hiff.mp hc))]
    rfl

-- A well-formed packet with the payload `d`, whatever follows it in the receive buffer.
def request (c : Call) (g : Gdb) (d suite : Texte) : Except Fault Gdb :=
  g.gdbPacketAnalysis handler c (frame d ++ 0 :: suite) (frame d).length

theorem request_handler {b : Byte} {f : Handler} (hf : handler b = some f) (c : Call) (g : Gdb)
    (d suite : Texte) :
    g.request c (b :: d) suite =
      f c g.gdbSendAck (d ++ 0 :: (hex2 (b :: d).sum ++ 0 :: suite)) := by
  have hdigits := hex2_digits (b :: d).sum
  have hsum : (b :: d).sum.toNat = Hex.eval (hex2 (b :: d).sum) := by
    rw [hex2, Hex.eval_print]
    exact (Nat.mod_eq_of_lt (BitVec.isLt _)).symm
  rw [request, frame_eq_trame, gdbPacketAnalysis_trame _ _ _ _ _ _ _ hdigits.1 hdigits.2, ← hex2_eq,
    if_pos hsum, dispatch, List.cons_append, List.headD_cons, hf]
  rfl

section Given

variable (c : Call) (d : Texte) (h l : Byte) (suite : Texte)

-- The text that the handler is given: the payload, the NUL in the place of the `#`, the rest.
def givenText : Texte := d ++ 0 :: h :: l :: 0 :: suite

def declared : Word × Word := sscanfXX (givenText d h l suite) c.address c.size

theorem declared_eq :
    sscanfXX (givenText d h l suite) c.address c.size =
      ((declared c d h l suite).1, (declared c d h l suite).2) := rfl

end Given

def afterResetGdb : Gdb := gdbInitData (afterReset []) (fun _ => 0) (fun _ => 0)

end Gdb

end Armator
