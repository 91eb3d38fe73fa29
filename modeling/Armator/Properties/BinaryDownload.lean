import Armator.Architecture.BinaryWrites
import Armator.Architecture.PacketText

namespace Armator

-- The texts that stand for given bytes: the bytes with a meaning of their own must be escaped,
-- any other may be.
inductive Escaped : Texte → List Byte → Prop
  | nil : Escaped [] []
  | plain {s : Texte} {d : List Byte} (b : Byte)
      (hb : b ≠ 0x7d ∧ b ≠ octet '#' ∧ b ≠ octet '$') (h : Escaped s d) : Escaped (b :: s) (b :: d)
  | escape {s : Texte} {d : List Byte} (b : Byte) (h : Escaped s d) :
      Escaped (0x7d :: (b ^^^ 0x20) :: s) (b :: d)

theorem Escaped.decoded {s : Texte} {d : List Byte} (hs : Escaped s d) (t : Texte) :
    decoded d.length (s ++ t) = d := by
  induction hs with
  | nil => rfl
  | plain b hb h ih =>
      have hdecoder (s : Texte) : Gdb.decoder (b :: s) = (b, s) := if_neg hb.1
      rw [List.length_cons, List.cons_append, Armator.decoded, hdecoder, ih]
  | escape b h ih =>
      have hdecoder (s : Texte) : Gdb.decoder (0x7d :: (b ^^^ 0x20) :: s) = (b, s) := by
        have hback : b ^^^ 0x20 ^^^ 0x20 = b := by
          rw [BitVec.xor_assoc, BitVec.xor_self]
          exact BitVec.xor_zero
        exact congrArg (fun b => (b, s)) hback
      rw [List.length_cons, List.cons_append, List.cons_append, Armator.decoded, hdecoder, ih]

theorem Escaped.length_le {s : Texte} {d : List Byte} (hs : Escaped s d) :
    d.length ≤ s.length := by
  induction hs with
  | nil => exact Nat.le_refl 0
  | plain b hb h ih => exact Nat.succ_le_succ ih
  | escape b h ih => exact Nat.le_succ_of_le (Nat.succ_le_succ ih)

structure Writes (ds : Texte) (n : Nat) : Prop where
  numeral : Numeral ds
  value : Hex.eval ds = n

theorem Writes.strtoul {ds : Texte} {n : Nat} (hd : Writes ds n) (hn : n < 2 ^ 32) :
    strtoul false (Hex.eval ds) = BitVec.ofNat 32 n := by
  rw [hd.value, strtoul_of_lt _ (Nat.lt_trans hn (by decide))]

theorem memoryText_of_data (mem : Memory) (a : Word) (d : List Byte)
    (hd : a.toNat + d.length ≤ mem.size)
    (hdata : ∀ i : Fin d.length, mem.data (a + BitVec.ofNat 32 i) = d.get i) :
    memoryText mem a d.length = d.flatMap hex2 := by
  induction d generalizing a with
  | nil => rfl
  | cons b d ih =>
      rw [List.length_cons] at hd
      have hin : ¬ mem.horsPlage a := by
        rw [Memory.horsPlage_iff]
        omega
      have hhead : mem.data a = b := by
        have h0 := hdata ⟨0, Nat.zero_lt_succ _⟩
        exact (congrArg mem.data (BitVec.add_zero a)).symm.trans h0
      rw [List.length_cons, memoryText, if_neg hin, hhead, List.flatMap_cons]
      have hnext := toNat_succ_le a
      rw [ih (a + 1) (by omega) fun i => by
        rw [add_ofNat_succ]
        exact hdata i.succ]

namespace Gdb

def downloadText (da dn s : Texte) : Texte := da ++ octet ',' :: (dn ++ octet ':' :: s)

section Requests

variable (c : Call) (g : Gdb) {a : Word} {n : Nat} {da dn : Texte} (hda : Writes da a.toNat)
  (hdn : Writes dn n) (hn : n < 2 ^ 32)

include hda hdn hn in
theorem header_read {s : Texte} (hs : Ends s) (x y : Word) :
    sscanfXX (da ++ octet ',' :: (dn ++ s)) x y = (a, BitVec.ofNat 32 n) := by
  rw [sscanfXX_numerals hda.numeral hdn.numeral hs, hda.strtoul a.isLt, hdn.strtoul hn,
    BitVec.ofNat_toNat, BitVec.setWidth_eq]

include hda hdn in
theorem content_read (s : Texte) : binaryContent (downloadText da dn s) = some s := by
  have hcomma : octet ',' ≠ octet ':' ∧ octet ',' ≠ 0 := by decide
  have hdigits (ds : Texte) (hd : Numeral ds) := hd.ne (c := octet ':') (by decide)
  have hall : ∀ x ∈ da ++ octet ',' :: dn, x ≠ octet ':' ∧ x ≠ 0 := by
    intro x hx
    rcases List.mem_append.mp hx with hx | hx
    · exact hdigits da hda.numeral x hx
    · rcases List.mem_cons.mp hx with rfl | hx
      · exact hcomma
      · exact hdigits dn hdn.numeral x hx
  have hindex := index_append (octet ':') (da ++ octet ',' :: dn) s hall
  rw [List.append_assoc] at hindex
  rw [binaryContent, downloadText]
  exact congrArg (Option.map (List.drop 1)) hindex

end Requests

theorem request_download (c : Call) (g : Gdb) (a : Word) (d : List Byte)
    (hin : a.toNat < g.arm.mem.size) (hd : a.toNat + d.length ≤ g.arm.mem.size)
    (hlen : d.length < 2 ^ 32) {da dn s : Texte} (hda : Writes da a.toNat)
    (hdn : Writes dn d.length) (hs : Escaped s d) (suite : Texte) :
    g.request c (octet 'X' :: downloadText da dn s) suite =
      .ok ((g.gdbSendAck.withMemory (g.arm.mem.storeBytes a d)).answered (texte "OK")) := by
  have hn : (BitVec.ofNat 32 d.length).toNat = d.length := by
    rw [BitVec.toNat_ofNat]
    exact Nat.mod_eq_of_lt hlen
  have happend (t : Texte) : downloadText da dn s ++ t = downloadText da dn (s ++ t) := by
    simp [downloadText]
  have hheader (t : Texte) : sscanfXX (downloadText da dn (s ++ t)) c.address c.size =
      (a, BitVec.ofNat 32 d.length) :=
    header_read hda hdn hlen (ends_cons _ (by decide)) _ _
  have hreach : reach g.gdbSendAck.arm.mem.size a d.length = d.length :=
    reach_of_fits _ a _ hd
  rw [request_handler (f := writeMemoryBinary) rfl, happend]
  rw [writeMemoryBinary_inside c g.gdbSendAck _ (hheader _) hin (content_read hda hdn _), hn,
    hreach, hs.decoded]
  simp only [beq_self_eq_true]
  rfl

theorem request_upload (c : Call) (g : Gdb) (a : Word) (n : Nat) (hin : a.toNat < g.arm.mem.size)
    (hn : n < 2 ^ 32) {da dn : Texte} (hda : Writes da a.toNat) (hdn : Writes dn n)
    (suite : Texte) :
    g.request c (octet 'm' :: (da ++ octet ',' :: dn)) suite =
      if (memoryText g.arm.mem a n).length + 4 < MAX_PACKET_SIZE then
        .ok (g.gdbSendAck.answered (memoryText g.arm.mem a n))
      else .error .debordement := by
  have hheader (t : Texte) := header_read hda hdn hn (ends_cons (c := 0) t (by decide)) c.address
    c.size
  have hnat : (BitVec.ofNat 32 n).toNat = n := by
    rw [BitVec.toNat_ofNat]
    exact Nat.mod_eq_of_lt hn
  have hreply : memoryReply g.gdbSendAck.arm.mem a (BitVec.ofNat 32 n) =
      memoryText g.arm.mem a n := by
    rw [memoryReply, hnat]
    exact if_pos hin
  rw [request_handler (f := readMemory) rfl, List.append_assoc, List.cons_append, readMemory_eq,
    hheader]
  dsimp only
  rw [hreply]

theorem binary_download (g : Gdb) (a : Word) (d : List Byte)
    (hin : a.toNat < g.arm.mem.size) (hd : a.toNat + d.length ≤ g.arm.mem.size)
    (da dn s : Texte) (hda : Writes da a.toNat) (hdn : Writes dn d.length) (hs : Escaped s d)
    -- `gdb_packet_analysis` takes the length of the packet as an `int`.
    (hint : (frame (octet 'X' :: downloadText da dn s)).length < 2 ^ 31)
    (c c' : Call) (suite suite' : Texte) :
    ∃ g₁, g.request c (octet 'X' :: downloadText da dn s) suite = .ok g₁ ∧
      g₁.sortie = g.sortie ++ texte "+" ++ frame (texte "OK") ∧
      g₁.arm.mem.size = g.arm.mem.size ∧
      (∀ i : Fin d.length, g₁.arm.mem.data (a + BitVec.ofNat 32 i) = d.get i) ∧
      (∀ b : Word, (∀ i : Fin d.length, b ≠ a + BitVec.ofNat 32 i) →
        g₁.arm.mem.data b = g.arm.mem.data b) ∧
      (2 * d.length ≤ 4091 →
        ∃ g₂, g₁.request c' (octet 'm' :: (da ++ octet ',' :: dn)) suite' = .ok g₂ ∧
          g₂.sortie = g₁.sortie ++ texte "+" ++ frame (d.flatMap hex2)) := by
  have hlen : d.length < 2 ^ 32 := by
    have hle := hs.length_le
    rw [length_frame, List.length_cons, downloadText, List.length_append, List.length_cons,
      List.length_append, List.length_cons] at hint
    omega
  have hdata := storeBytes_data g.arm.mem a d (Nat.le_of_lt hlen)
  refine ⟨_, request_download c g a d hin hd hlen hda hdn hs suite, rfl, rfl, hdata,
    storeBytes_other g.arm.mem a d, fun hfit => ?_⟩
  · have htext := memoryText_of_data (g.arm.mem.storeBytes a d) a d hd hdata
    have hup := request_upload c' ((g.gdbSendAck.withMemory (g.arm.mem.storeBytes a d)).answered
      (texte "OK")) a d.length hin hlen hda hdn suite'
    have hmem : ((g.gdbSendAck.withMemory (g.arm.mem.storeBytes a d)).answered
      (texte "OK")).arm.mem = g.arm.mem.storeBytes a d := rfl
    have hreach := length_memoryText (g.arm.mem.storeBytes a d) a d.length
    have hle := reach_le (g.arm.mem.storeBytes a d).size a d.length
    have hmax : MAX_PACKET_SIZE = 4096 := rfl
    rw [hmem, if_pos (by omega), htext] at hup
    exact ⟨_, hup, rfl⟩

-- The bytes 23, 00 and 7d to the address 1 of a word of memory.
theorem binary_download_escaped : ∃ g₁,
    (gdbInitData (afterReset [0]) (fun _ => 0) (fun _ => 0)).request Call.blank
        (octet 'X' :: downloadText (texte "1") (texte "3") [0x7d, 0x03, 0, 0x7d, 0x5d]) [] =
      .ok g₁ ∧
      g₁.sortie = texte "+" ++ frame (texte "OK") ∧ g₁.arm.mem.data 1 = 0x23 := by
  have hs : Escaped [0x7d, 0x03, 0, 0x7d, 0x5d] [0x23, 0, 0x7d] :=
    .escape 0x23 (.plain 0 (by decide) (.escape 0x7d .nil))
  obtain ⟨g₁, he, hr, -, hdata, -⟩ := binary_download
    (gdbInitData (afterReset [0]) (fun _ => 0) (fun _ => 0)) 1 [0x23, 0, 0x7d] (by decide)
    (by decide) (texte "1") (texte "3") [0x7d, 0x03, 0, 0x7d, 0x5d]
    ⟨by decide, by decide⟩ ⟨by decide, by decide⟩ hs (by decide) Call.blank Call.blank [] []
  exact ⟨g₁, he, hr, hdata ⟨0, by decide⟩⟩

end Gdb

end Armator
