import Armator.Architecture.BinaryWrites
import Armator.Architecture.PacketText

namespace Armator

namespace Gdb

-- The loop of `write_memory_binary` with the bytes that it has stored.
def journalOctets (g : Gdb) (address : Word) (content : Option Texte) (journal : List Byte) :
    Nat → Except Fault (Bool × Gdb × List Byte)
  | 0 => return (true, g, journal)
  | size + 1 =>
      match content with
      | none => .error .pointeur
      | some content =>
          let (value, content) := decoder content
          let (result, mem) := memoryWriteByte g.arm.mem address value
          let g := { g with arm := { g.arm with mem := mem } }
          if result = 0 then g.journalOctets (address + 1) (some content) (journal ++ [value]) size
          else return (false, g, journal)

-- What the request stores. Without a `:` the first turn of the loop fails, before any store.
def binaryJournal (c : Call) (g : Gdb) (data : Texte) : List Byte :=
  let (address, size) := sscanfXX data c.address c.size
  if address.toNat < g.arm.mem.size then
    match g.journalOctets address (binaryContent data) [] size.toNat with
    | .ok (_, _, journal) => journal
    | .error _ => []
  else []

theorem journalOctets_erased (g : Gdb) (address : Word) (content : Option Texte)
    (journal : List Byte) (n : Nat) :
    (g.journalOctets address content journal n).map (fun t => (t.1, t.2.1)) =
      g.ecrireOctets address content n := by
  induction n generalizing g address content journal with
  | zero => rfl
  | succ n ih =>
      cases content with
      | none => rfl
      | some content =>
          rw [journalOctets, ecrireOctets]
          dsimp only
          split
          · exact ih _ _ _ _
          · rfl

theorem journalOctets_eq (g : Gdb) (address : Word) (content : Texte) (journal : List Byte)
    (n : Nat) :
    ∃ write_ok g', g.journalOctets address (some content) journal n =
      .ok (write_ok, g', journal ++ decoded (reach g.arm.mem.size address n) content) := by
  induction n generalizing g address content journal with
  | zero => exact ⟨true, g, by rw [reach, decoded, List.append_nil]; rfl⟩
  | succ n ih =>
      rw [journalOctets, reach]
      dsimp only
      by_cases ho : g.arm.mem.horsPlage address
      · have hle := (g.arm.mem.horsPlage_iff address).mp ho
        rw [memoryWriteByte, if_pos ho, if_pos hle, decoded, List.append_nil]
        exact ⟨false, _, rfl⟩
      · have hlt := mt (g.arm.mem.horsPlage_iff address).mpr ho
        rw [memoryWriteByte, if_neg ho, if_neg hlt]
        dsimp only
        rw [if_pos rfl, decoded]
        obtain ⟨write_ok, g', he⟩ := ih
          { g with arm := { g.arm with mem := g.arm.mem.set address (decoder content).1 } }
          (address + 1) (decoder content).2 (journal ++ [(decoder content).1])
        rw [List.append_assoc] at he
        exact ⟨write_ok, g', he⟩

section Journal

variable (c : Call) (g : Gdb) (data : Texte) {address size : Word}
  (hheader : sscanfXX data c.address c.size = (address, size))

include hheader

theorem binaryJournal_some {content : Texte} (hcontent : binaryContent data = some content) :
    g.binaryJournal c data = decoded (reach g.arm.mem.size address size.toNat) content := by
  rw [binaryJournal, hheader, hcontent]
  dsimp only
  split
  · obtain ⟨write_ok, g', he⟩ := journalOctets_eq g address content [] size.toNat
    rw [he]
    rfl
  · rename_i hout
    rw [reach_outside _ _ _ (Nat.not_lt.mp hout)]
    rfl

theorem binaryJournal_none (hcontent : binaryContent data = none) : g.binaryJournal c data = [] := by
  rw [binaryJournal, hheader, hcontent]
  dsimp only
  split
  · cases size.toNat <;> rfl
  · rfl

end Journal

def ownBytes (d : Texte) : List Byte := payloadBytes ((binaryContent d).getD [])

section Payload

variable (c : Call) (g : Gdb) (d : Texte) (h l : Byte) (suite : Texte)

def binaryRequest : Except Fault Gdb :=
  g.gdbPacketAnalysis handler c (trame (octet 'X' :: d) h l ++ 0 :: suite)
    (trame (octet 'X' :: d) h l).length

structure OwnPayload : Prop where
  stored : g.binaryJournal c (givenText d h l suite) <+: ownBytes d
  refused : (ownBytes d).length < (declared c d h l suite).2.toNat →
    ¬ ∃ g', g.binaryRequest c d h l suite = .ok g' ∧
      g'.sortie = g.sortie ++ texte "+" ++ frame (texte "OK")

theorem binaryContent_given :
    binaryContent (givenText d h l suite) =
      (binaryContent d).map (· ++ 0 :: h :: l :: 0 :: suite) := by
  rw [binaryContent, givenText, index_terminated (octet ':') (by decide), binaryContent]
  cases hi : index (octet ':') d with
  | none => rfl
  | some s =>
      obtain ⟨u, rfl⟩ := index_head hi
      rfl

theorem binaryRequest_eq (hh : Hex.isDigit h = true) (hl : Hex.isDigit l = true)
    (hsum : (octet 'X' :: d).sum.toNat = Hex.eval [h, l]) :
    g.binaryRequest c d h l suite =
      g.gdbSendAck.writeMemoryBinary c (givenText d h l suite) := by
  rw [binaryRequest, gdbPacketAnalysis_trame _ _ _ _ _ _ _ hh hl, if_pos hsum]
  rfl

theorem binaryAnswer_ok_iff (g : Gdb) (write_ok : Bool) :
    (g.answered (binaryAnswer write_ok)).sortie = g.sortie ++ frame (texte "OK") ↔
      write_ok = true := by
  rw [answered_sortie_iff]
  cases write_ok with
  | true => exact iff_of_true rfl rfl
  | false => exact iff_of_false (by decide) (by decide)

theorem not_ok_of_refused (g : Gdb) :
    (g.answered (texte "E02")).sortie ≠ g.sortie ++ frame (texte "OK") :=
  mt (binaryAnswer_ok_iff g false).mp Bool.false_ne_true

end Payload

section Own

variable {c : Call} {g : Gdb} {d : Texte} {h l : Byte} {suite : Texte}
  (hrequest : g.binaryRequest c d h l suite =
    g.gdbSendAck.writeMemoryBinary c (givenText d h l suite))

include hrequest

theorem ownPayload_none (hcontent : binaryContent d = none) : g.OwnPayload c d h l suite := by
  have hgiven := binaryContent_given d h l suite
  rw [hcontent, Option.map_none] at hgiven
  have hheader := declared_eq c d h l suite
  constructor
  · rw [binaryJournal_none c g _ hheader hgiven]
    exact List.nil_prefix
  · rintro hlt ⟨g', he, hreply⟩
    rw [hrequest] at he
    by_cases hin : (declared c d h l suite).1.toNat < g.arm.mem.size
    · rw [writeMemoryBinary_none c g.gdbSendAck _ hheader hin hgiven] at he
      split at he
      · rename_i hzero
        rw [hzero] at hlt
        exact absurd hlt (Nat.not_lt_zero _)
      · cases he
    · rw [writeMemoryBinary_outside c g.gdbSendAck _ hheader hin] at he
      cases he
      exact not_ok_of_refused _ hreply

theorem ownPayload_some {content : Texte} (hcontent : binaryContent d = some content) :
    g.OwnPayload c d h l suite ↔
      reach g.arm.mem.size (declared c d h l suite).1 (declared c d h l suite).2.toNat ≤
        (ownBytes d).length := by
  have hgiven := binaryContent_given d h l suite
  rw [hcontent, Option.map_some] at hgiven
  have hheader := declared_eq c d h l suite
  have hjournal := binaryJournal_some c g _ hheader hgiven
  have hown : ownBytes d = payloadBytes content := by rw [ownBytes, hcontent]; rfl
  rw [hown]
  constructor
  · intro hp
    have hle := hp.stored.length_le
    rw [hjournal, length_decoded, hown] at hle
    exact hle
  · intro hle
    constructor
    · rw [hjournal, hown, decoded_payload _ _ _ hle]
      exact List.take_prefix _ _
    · rintro hlt ⟨g', he, hreply⟩
      rw [hown] at hlt
      rw [hrequest] at he
      by_cases hin : (declared c d h l suite).1.toNat < g.arm.mem.size
      · rw [writeMemoryBinary_inside c g.gdbSendAck _ hheader hin hgiven] at he
        cases he
        have hfull := eq_of_beq ((binaryAnswer_ok_iff _ _).mp hreply)
        have hsize : g.gdbSendAck.arm.mem.size = g.arm.mem.size := rfl
        rw [hsize] at hfull
        omega
      · rw [writeMemoryBinary_outside c g.gdbSendAck _ hheader hin] at he
        cases he
        exact not_ok_of_refused _ hreply

end Own

theorem ownPayload_iff (c : Call) (g : Gdb) (d : Texte) (h l : Byte) (suite : Texte)
    (hh : Hex.isDigit h = true) (hl : Hex.isDigit l = true)
    (hsum : (octet 'X' :: d).sum.toNat = Hex.eval [h, l]) :
    g.OwnPayload c d h l suite ↔
      binaryContent d = none ∨
        accessible g.arm.mem.size (declared c d h l suite).1 (declared c d h l suite).2.toNat ≤
          (ownBytes d).length := by
  have hrequest := binaryRequest_eq c g d h l suite hh hl hsum
  cases hcontent : binaryContent d with
  | none => exact iff_of_true (ownPayload_none hrequest hcontent) (Or.inl rfl)
  | some content =>
      rw [ownPayload_some hrequest hcontent, reach_eq_accessible]
      exact ⟨Or.inr, fun ho => ho.resolve_left (Option.some_ne_none _)⟩

theorem ownPayload_one :
    (gdbInitData (afterReset [0]) (fun _ => 0) (fun _ => 0)).OwnPayload Call.blank (texte "0,1:a")
      (octet '8') (octet '0') [] := by
  refine (ownPayload_iff Call.blank _ (texte "0,1:a") (octet '8') (octet '0') [] rfl rfl
    (by decide)).mpr (Or.inr ?_)
  decide

-- `X0,4:a` declares four bytes and carries one: the NUL and the checksum's digits are stored.
theorem ownPayload_short :
    (octet 'X' :: texte "0,4:a").sum.toNat = Hex.eval [octet '8', octet '3'] ∧
      ¬ (gdbInitData (afterReset [0]) (fun _ => 0) (fun _ => 0)).OwnPayload Call.blank
        (texte "0,4:a") (octet '8') (octet '3') [] := by
  have hsum : (octet 'X' :: texte "0,4:a").sum.toNat = Hex.eval [octet '8', octet '3'] := by
    decide
  refine ⟨hsum, fun hp => ?_⟩
  have hrequest := binaryRequest_eq Call.blank
    (gdbInitData (afterReset [0]) (fun _ => 0) (fun _ => 0)) (texte "0,4:a") _ _ [] rfl rfl hsum
  have hle := (ownPayload_some hrequest rfl).mp hp
  exact absurd hle (by decide)

end Gdb

end Armator
