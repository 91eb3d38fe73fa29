import Armator.Architecture.Dumps
import Armator.Architecture.MemoryCells
import Armator.Architecture.Numerals

namespace Armator

-- The number of bytes that an upward run of `n` accesses reaches in a memory of `size` bytes.
def reach (size : Nat) (address : Word) : Nat → Nat
  | 0 => 0
  | n + 1 => if size ≤ address.toNat then 0 else reach size (address + 1) n + 1

theorem reach_le (size : Nat) (address : Word) (n : Nat) : reach size address n ≤ n := by
  induction n generalizing address with
  | zero => exact Nat.le_refl 0
  | succ n ih =>
      rw [reach]
      split
      · exact Nat.zero_le _
      · exact Nat.succ_le_succ (ih _)

theorem toNat_succ {address : Word} (h : address.toNat + 1 < 2 ^ 32) :
    (address + 1).toNat = address.toNat + 1 := by
  have h1 : (1 : Word).toNat = 1 := rfl
  rw [BitVec.toNat_add, h1]
  exact Nat.mod_eq_of_lt h

theorem reach_eq (size : Nat) (hsize : size < 2 ^ 32) (address : Word) (n : Nat)
    (ha : address.toNat ≤ size) : reach size address n = min n (size - address.toNat) := by
  induction n generalizing address with
  | zero => rw [reach, Nat.zero_min]
  | succ n ih =>
      rw [reach]
      split
      · omega
      · have hs : (address + 1).toNat = address.toNat + 1 := toNat_succ (by omega)
        rw [ih _ (by omega), hs]
        omega

theorem reach_all (size : Nat) (hsize : 2 ^ 32 ≤ size) (address : Word) (n : Nat) :
    reach size address n = n := by
  induction n generalizing address with
  | zero => rfl
  | succ n ih =>
      have hlt := address.isLt
      rw [reach, if_neg (by omega), ih]

theorem reach_outside (size : Nat) (address : Word) (n : Nat) (ha : size ≤ address.toNat) :
    reach size address n = 0 := by
  cases n with
  | zero => rfl
  | succ n => rw [reach, if_pos ha]

def accessible (size : Nat) (address : Word) (n : Nat) : Nat :=
  if size < 2 ^ 32 then min n (size - address.toNat) else n

theorem reach_eq_accessible (size : Nat) (address : Word) (n : Nat) :
    reach size address n = accessible size address n := by
  rw [accessible]
  split
  · rename_i hsize
    rcases Nat.le_total address.toNat size with ha | ha
    · exact reach_eq size hsize address n ha
    · rw [reach_outside size address n ha]
      omega
  · rename_i hsize
    exact reach_all size (Nat.not_lt.mp hsize) address n

theorem toNat_succ_le (address : Word) : (address + 1).toNat ≤ address.toNat + 1 := by
  rw [BitVec.toNat_add]
  exact Nat.mod_le _ _

theorem reach_of_fits (size : Nat) (address : Word) (n : Nat) (hn : address.toNat + n ≤ size) :
    reach size address n = n := by
  induction n generalizing address with
  | zero => rfl
  | succ n ih =>
      have hnext := toNat_succ_le address
      rw [reach, if_neg (by omega), ih _ (by omega)]

theorem length_memoryText (mem : Memory) (address : Word) (n : Nat) :
    (memoryText mem address n).length = 2 * reach mem.size address n := by
  induction n generalizing address with
  | zero => rfl
  | succ n ih =>
      rw [memoryText, reach]
      by_cases ho : mem.horsPlage address
      · rw [if_pos ho, if_pos ((mem.horsPlage_iff address).mp ho)]
        rfl
      · rw [if_neg ho, if_neg (fun hc => ho ((mem.horsPlage_iff address).mpr hc)), List.length_append,
          length_hex2, ih]
        omega

def byteCells (address : Word) : List Byte → List (Word × Byte)
  | [] => []
  | b :: bs => (address, b) :: byteCells (address + 1) bs

def Memory.storeBytes (mem : Memory) (address : Word) (bs : List Byte) : Memory :=
  mem.writeCells (byteCells address bs)

theorem add_ofNat_succ (address : Word) (i : Nat) :
    address + 1 + BitVec.ofNat 32 i = address + BitVec.ofNat 32 (i + 1) := by
  rw [BitVec.add_assoc, BitVec.ofNat_add, BitVec.add_comm (BitVec.ofNat 32 i)]
  rfl

theorem mem_byteCells (address : Word) (bs : List Byte) (c : Word × Byte) :
    c ∈ byteCells address bs ↔
      ∃ i : Fin bs.length, c = (address + BitVec.ofNat 32 i, bs.get i) := by
  induction bs generalizing address with
  | nil => exact iff_of_false List.not_mem_nil fun ⟨i, _⟩ => i.elim0
  | cons b bs ih =>
      rw [byteCells, List.mem_cons, ih]
      constructor
      · rintro (rfl | ⟨i, rfl⟩)
        · exact ⟨0, congrArg (fun a => (a, b)) (BitVec.add_zero address).symm⟩
        · exact ⟨i.succ, congrArg (fun a => (a, bs.get i)) (add_ofNat_succ address i)⟩
      · rintro ⟨i, rfl⟩
        cases i using Fin.cases with
        | zero => exact Or.inl (congrArg (fun a => (a, b)) (BitVec.add_zero address))
        | succ i =>
            exact Or.inr ⟨i, congrArg (fun a => (a, bs.get i)) (add_ofNat_succ address i).symm⟩

theorem byteCells_apart (address : Word) (bs : List Byte) (hl : bs.length ≤ 2 ^ 32) :
    Cells.Apart some (byteCells address bs) := by
  induction bs generalizing address with
  | nil => exact List.Pairwise.nil
  | cons b bs ih =>
      rw [List.length_cons] at hl
      refine List.pairwise_cons.mpr ⟨fun c hc he => ?_, ih _ (by omega)⟩
      obtain ⟨i, rfl⟩ := (mem_byteCells _ _ _).mp hc
      have hstep : address = address + BitVec.ofNat 32 (i + 1) := by
        rw [← add_ofNat_succ]
        exact Option.some.inj he
      have hzero := congrArg BitVec.toNat (BitVec.self_eq_add_right.mp hstep)
      rw [BitVec.toNat_ofNat, BitVec.toNat_ofNat] at hzero
      have hi := i.isLt
      omega

section StoreBytes

variable (mem : Memory) (address : Word) (bs : List Byte)

theorem storeBytes_data (hl : bs.length ≤ 2 ^ 32) (i : Fin bs.length) :
    (mem.storeBytes address bs).data (address + BitVec.ofNat 32 i) = bs.get i :=
  Cells.writeAll_at some mem.data _ (byteCells_apart address bs hl) _
    ((mem_byteCells address bs _).mpr ⟨i, rfl⟩) _ rfl

theorem storeBytes_other (b : Word)
    (hb : ∀ i : Fin bs.length, b ≠ address + BitVec.ofNat 32 i) :
    (mem.storeBytes address bs).data b = mem.data b := by
  refine Cells.writeAll_frame some mem.data _ b fun c hc he => ?_
  obtain ⟨i, rfl⟩ := (mem_byteCells _ _ _).mp hc
  exact hb i (Option.some.inj he).symm

end StoreBytes

def decoded : Nat → Texte → List Byte
  | 0, _ => []
  | n + 1, content => (Gdb.decoder content).1 :: decoded n (Gdb.decoder content).2

theorem length_decoded (n : Nat) (content : Texte) : (decoded n content).length = n := by
  induction n generalizing content with
  | zero => rfl
  | succ n ih => rw [decoded, List.length_cons, ih]

-- The bytes that a payload stands for; an escape without a byte behind it stands for none.
def payloadBytes : Texte → List Byte
  | [] => []
  | c :: s =>
      if c = 0x7d then
        match s with
        | [] => []
        | b :: s => (b ^^^ 0x20) :: payloadBytes s
      else c :: payloadBytes s

theorem payloadBytes_escape (b : Byte) (s : Texte) :
    payloadBytes (0x7d :: b :: s) = (b ^^^ 0x20) :: payloadBytes s := by
  rw [payloadBytes.eq_def]
  rfl

theorem payloadBytes_plain {c : Byte} (hc : c ≠ 0x7d) (s : Texte) :
    payloadBytes (c :: s) = c :: payloadBytes s := by
  rw [payloadBytes.eq_def]
  exact if_neg hc

theorem decoded_payload (s t : Texte) (n : Nat) (hn : n ≤ (payloadBytes s).length) :
    decoded n (s ++ t) = (payloadBytes s).take n := by
  induction s using payloadBytes.induct generalizing n with
  | case1 =>
      rw [Nat.le_zero.mp hn]
      rfl
  | case2 =>
      rw [Nat.le_zero.mp hn]
      rfl
  | case3 b s ih =>
      cases n with
      | zero => rfl
      | succ n =>
          rw [payloadBytes_escape] at hn ⊢
          rw [List.take_succ_cons, ← ih n (Nat.le_of_succ_le_succ hn)]
          rfl
  | case4 c s hc ih =>
      rw [payloadBytes_plain hc] at hn ⊢
      cases n with
      | zero => rfl
      | succ n =>
          have hdecoder : Gdb.decoder (c :: s ++ t) = (c, s ++ t) := if_neg hc
          rw [List.take_succ_cons, ← ih n (Nat.le_of_succ_le_succ hn), decoded, hdecoder]

namespace Gdb

def withMemory (g : Gdb) (mem : Memory) : Gdb := { g with arm := { g.arm with mem := mem } }

theorem ecrireOctets_eq (g : Gdb) (address : Word) (content : Texte) (n : Nat) :
    g.ecrireOctets address (some content) n =
      .ok (reach g.arm.mem.size address n == n, g.withMemory
        (g.arm.mem.storeBytes address (decoded (reach g.arm.mem.size address n) content))) := by
  induction n generalizing g address content with
  | zero => rfl
  | succ n ih =>
      rw [ecrireOctets, reach]
      dsimp only
      by_cases ho : g.arm.mem.horsPlage address
      · have hle := (g.arm.mem.horsPlage_iff address).mp ho
        rw [memoryWriteByte, if_pos ho, if_pos hle]
        rfl
      · have hlt := mt (g.arm.mem.horsPlage_iff address).mpr ho
        rw [memoryWriteByte, if_neg ho, if_neg hlt]
        dsimp only
        rw [if_pos rfl, ih]
        have hcode : (reach g.arm.mem.size (address + 1) n == n) =
            (reach g.arm.mem.size (address + 1) n + 1 == n + 1) := by
          simp
        exact congrArg (fun code => Except.ok (code, _)) hcode

def binaryContent (data : Texte) : Option Texte := (index (octet ':') data).map (List.drop 1)

def binaryAnswer (write_ok : Bool) : Texte := if write_ok then texte "OK" else texte "E02"

theorem binaryAnswer_send (g : Gdb) (write_ok : Bool) :
    (if write_ok then g.gdbSendData (texte "OK") else g.gdbSendData (texte "E02")) =
      .ok (g.answered (binaryAnswer write_ok)) := by
  cases write_ok with
  | true => exact gdbSendOk_eq g
  | false => exact gdbSendData_payload g (texte "E02") (by decide) (by decide)

section WriteMemoryBinary

variable (c : Call) (g : Gdb) (data : Texte) {address size : Word}
  (hheader : sscanfXX data c.address c.size = (address, size))

include hheader

theorem writeMemoryBinary_outside (hout : ¬ address.toNat < g.arm.mem.size) :
    g.writeMemoryBinary c data = .ok (g.answered (texte "E02")) := by
  rw [writeMemoryBinary, hheader]
  dsimp only
  rw [if_neg hout]
  exact binaryAnswer_send g false

theorem writeMemoryBinary_inside (hin : address.toNat < g.arm.mem.size) {content : Texte}
    (hcontent : binaryContent data = some content) :
    g.writeMemoryBinary c data =
      .ok ((g.withMemory (g.arm.mem.storeBytes address
        (decoded (reach g.arm.mem.size address size.toNat) content))).answered
          (binaryAnswer (reach g.arm.mem.size address size.toNat == size.toNat))) := by
  rw [binaryContent] at hcontent
  rw [writeMemoryBinary, hheader]
  dsimp only
  rw [if_pos hin, hcontent, ecrireOctets_eq, Fallible.ok_bind]
  exact binaryAnswer_send _ _

theorem writeMemoryBinary_none (hin : address.toNat < g.arm.mem.size)
    (hcontent : binaryContent data = none) :
    g.writeMemoryBinary c data =
      if size = 0 then .ok (g.answered (texte "OK")) else .error .pointeur := by
  rw [binaryContent] at hcontent
  rw [writeMemoryBinary, hheader]
  dsimp only
  rw [if_pos hin, hcontent]
  by_cases h0 : size = 0
  · rw [if_pos h0, h0]
    exact binaryAnswer_send g true
  · obtain ⟨n, hn⟩ := Nat.exists_eq_succ_of_ne_zero (fun hc => h0 (BitVec.toNat_inj.mp hc))
    rw [if_neg h0, hn]
    rfl

omit hheader in
theorem writeMemoryBinary_meets :
    Fallible.Meets (· = .pointeur)
      (fun g' => ∃ mem write_ok, g' = (g.withMemory mem).answered (binaryAnswer write_ok))
      (g.writeMemoryBinary c data) := by
  obtain ⟨address, size, hheader⟩ : ∃ address size,
      sscanfXX data c.address c.size = (address, size) := ⟨_, _, rfl⟩
  by_cases hin : address.toNat < g.arm.mem.size
  · cases hcontent : binaryContent data with
    | none =>
        rw [writeMemoryBinary_none c g data hheader hin hcontent]
        split
        · exact .ok ⟨g.arm.mem, true, rfl⟩
        · exact .error rfl
    | some content =>
        rw [writeMemoryBinary_inside c g data hheader hin hcontent]
        exact .ok ⟨_, _, rfl⟩
  · rw [writeMemoryBinary_outside c g data hheader hin]
    exact .ok ⟨g.arm.mem, false, rfl⟩

end WriteMemoryBinary

end Gdb

end Armator
