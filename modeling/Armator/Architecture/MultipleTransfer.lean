import Armator.Architecture.BlockMove

namespace Armator

open BitFields

section Statement

variable (h : Host) (p : ArmCore) (ins : Word)

abbrev listed : List RegNum := listedRegs (listReg ins)

def listedBytes : Word := BitVec.ofNat 32 (listed ins).length * 4

def firstAddress : Word :=
  match bit ins 24, bit ins 23 with
  | false, true => baseValue p ins
  | true, true => baseValue p ins + 4
  | false, false => baseValue p ins - listedBytes ins + 4
  | true, false => baseValue p ins - listedBytes ins

def wordAddress (k : Nat) : Word := firstAddress p ins + BitVec.ofNat 32 k * 4

structure MultipleTransfer : Prop where
  mode : p.mode ∈ armModes
  opcode : insClass ins = 4
  s : bit ins 22 = false
  passed : Passed p ins
  base : rnNum ins ≠ 15
  nonempty : listReg ins ≠ 0
  low : bit ins 15 = false
  base_out : bit ins 21 = true → bit ins (rnNum ins) = false
  inside : (firstAddress p ins).toNat + 4 * (listed ins).length ≤ p.mem.size
  no_wrap : (firstAddress p ins).toNat + 4 * (listed ins).length ≤ 2 ^ 32

def TargetByte (b : Word) : Prop :=
  bit ins 20 = false ∧ (firstAddress p ins).toNat ≤ b.toNat ∧
    b.toNat < (firstAddress p ins).toNat + 4 * (listed ins).length

def placed (k : Fin (listed ins).length) : Fin (listed ins).length :=
  if bit ins 23 then k else k.rev

def blockWritten : ArmCore :=
  if bit ins 21 then armWriteRegister (blockMoved h p ins) (rnNum ins) (endAddress p ins)
  else blockMoved h p ins

theorem placed_placed (k : Fin (listed ins).length) : placed ins (placed ins k) = k := by
  unfold placed
  cases bit ins 23 <;> simp

end Statement

section Addresses

variable {p : ArmCore} {ins : Word}

theorem bytes_split (k m n : Nat) (hn : k + 1 + m = n) :
    BitVec.ofNat 32 k * 4 + 4 + BitVec.ofNat 32 m * 4 = BitVec.ofNat 32 n * 4 := by
  subst hn
  simp only [BitVec.ofNat_add, BitVec.add_mul, BitVec.one_mul]

theorem step_address (k : Fin (listed ins).length) :
    startAddress p ins + BitVec.ofNat 32 k * blockPas ins = wordAddress p ins (placed ins k) := by
  have hb := bytes_split k k.rev (listed ins).length (by rw [Fin.val_rev]; omega)
  rw [startAddress, blockPas_eq, wordAddress, firstAddress, listedBytes, placed]
  cases bit ins 23 with
  | true =>
      simp only [if_true]
      cases bit ins 24 <;> rfl
  | false =>
      simp only [Bool.false_eq_true, if_false, BitVec.mul_neg]
      rw [← hb]
      cases bit ins 24 <;> grind

theorem mem_blockPlan_placed (x : RegNum × Word) :
    x ∈ blockPlan p ins ↔ ∃ k : Fin (listed ins).length,
      x = ((listed ins).get (placed ins k), wordAddress p ins k) := by
  rw [mem_blockPlan]
  constructor
  · rintro ⟨k, rfl⟩
    exact ⟨placed ins k, by rw [placed_placed, step_address]⟩
  · rintro ⟨k, rfl⟩
    exact ⟨placed ins k, by rw [step_address, placed_placed]⟩

end Addresses

namespace MultipleTransfer

variable {p : ArmCore} {ins : Word}

theorem count_le (ins : Word) : (listed ins).length ≤ 15 := List.length_filter_le _ lowRegs

theorem wordAddress_toNat (ht : MultipleTransfer p ins) (k : Fin (listed ins).length) :
    (wordAddress p ins k).toNat = (firstAddress p ins).toNat + 4 * k := by
  have hle := count_le ins
  have hw := ht.no_wrap
  have hb := listed_bytes k (by omega)
  rw [wordAddress, BitVec.toNat_add, hb]
  omega

theorem byte_toNat (ht : MultipleTransfer p ins) (k : Fin (listed ins).length) (i : Nat)
    (hi : i < 4) :
    (wordAddress p ins k + BitVec.ofNat 32 i).toNat = (firstAddress p ins).toNat + 4 * k + i := by
  have hw := ht.no_wrap
  have hofNat : (BitVec.ofNat 32 i).toNat = i := Nat.mod_eq_of_lt (by omega)
  rw [BitVec.toNat_add, ht.wordAddress_toNat, hofNat]
  omega

theorem plan_inside (ht : MultipleTransfer p ins) : BlockInside p ins := by
  intro x hx
  obtain ⟨k, rfl⟩ := (mem_blockPlan_placed x).mp hx
  have hin := ht.inside
  rw [Memory.horsPlage_iff, ht.wordAddress_toNat k]
  omega

theorem not_refused (ht : MultipleTransfer p ins) : ¬ blockRefused ins := by
  rintro (hn | ⟨hb, hw⟩ | hs)
  · exact ht.nonempty hn
  · rw [ht.base_out hw] at hb
    cases hb
  · rw [ht.s] at hs
    cases hs

variable (h : Host)

theorem result (ht : MultipleTransfer p ins) (h5 : condField ins ≠ 5) :
    armLoadStoreMultiple h p ins =
      (0, blockWritten h p ins) := by
  have hc := (passed_accepted_iff p ins ht.passed).mpr h5
  rw [armLoadStoreMultiple_inside h p ins hc ht.not_refused ht.plan_inside, ht.low, blockWritten]
  cases bit ins 21 <;> rfl

theorem moved_mode (p : ArmCore) (ins : Word) : (blockMoved h p ins).mode = p.mode := by
  unfold blockMoved
  cases bit ins 20 with
  | true => exact loadPlan_mode _ p ins
  | false => rfl

theorem moved_size (p : ArmCore) (ins : Word) : (blockMoved h p ins).mem.size = p.mem.size := by
  unfold blockMoved
  cases bit ins 20 with
  | true => rw [if_pos rfl, loadPlan_mem]
  | false => rfl

theorem moved_data (ht : MultipleTransfer p ins) (b : Word) (hb : ¬ TargetByte p ins b) :
    (blockMoved h p ins).mem.data b = p.mem.data b := by
  unfold blockMoved
  cases hl : bit ins 20 with
  | true => rw [if_pos rfl, loadPlan_mem]
  | false =>
      rw [if_neg (by simp)]
      apply storePlan_data
      rintro x hx i hi rfl
      obtain ⟨k, rfl⟩ := (mem_blockPlan_placed x).mp hx
      apply hb
      rw [TargetByte, ht.byte_toNat k i hi]
      refine ⟨hl, ?_⟩
      omega

theorem not_never (ht : MultipleTransfer p ins)
    (hz : (armLoadStoreMultiple h p ins).1 = 0) : condField ins ≠ 5 := by
  intro h5
  have hc := mt (passed_accepted_iff p ins ht.passed).mp (fun hn => hn h5)
  rw [armLoadStoreMultiple, if_pos hc] at hz
  cases hz

end MultipleTransfer

end Armator
