import Armator.Architecture.Transfer
import Armator.Simulator.Create

namespace Armator

open BitFields

def literalAddress (a ins : Word) : Word :=
  if bit ins 23 then a + 8 + getBits ins 11 0 else a + 8 - getBits ins 11 0

def accessLength (ins : Word) : Nat := if bit ins 22 then 1 else 4

structure LiteralTransfer (h : Host) (p : ArmCore) (a ins : Word) : Prop where
  aligned : a.toNat % 4 = 0
  pc : p.pc = a
  mode : p.mode ∈ armModes
  word : p.fetchedWord h = ins
  immediate : insClass ins = 2
  base : rnNum ins = 15
  dest : rdNum ins ≠ 15
  indexed : bit ins 24 = true
  noWriteback : bit ins 21 = false
  passed : condField ins ≠ 15 ∧ conditionPassed (condField ins) (flagsOf p.cpsr) = true
  inside : (literalAddress a ins).toNat + accessLength ins ≤ p.mem.size

def literalOutcome (h : Host) (p : ArmCore) (a ins : Word) : ArmCore :=
  let ea := literalAddress a ins
  let rd := rdNum ins
  if bit ins 20 then
    armWriteRegister p.fetched rd
      (if bit ins 22 then (p.mem.data ea).setWidth 32 else p.mem.word h.ENDIANESS ea)
  else if bit ins 22 then
    { p.fetched with mem := (memoryWriteByte p.mem ea ((armReadRegister p rd).setWidth 8)).2 }
  else { p.fetched with mem := (memoryWriteWord p.mem ea (armReadRegister p rd) h.ENDIANESS).2 }

-- A load must find in memory what the skipped read leaves in its variable, a store must find it
-- in Rd.
def LiteralSound (h : Host) (p : ArmCore) (a ins : Word) : Prop :=
  condField ins ≠ 5 ∧
    if bit ins 20 then
      h.result ≠ -1 ∧
        if bit ins 22 then p.mem.data (literalAddress a ins) = h.value8
        else p.mem.word h.ENDIANESS (literalAddress a ins) = a + 16
    else if bit ins 22 then (armReadRegister p (rdNum ins)).setWidth 8 = h.value8
    else armReadRegister p (rdNum ins) = a + 16

theorem setWidth_byte_inj (u v : Byte) : (u.setWidth 32 : Word) = v.setWidth 32 ↔ u = v := by
  rw [← BitVec.toNat_inj, ← BitVec.toNat_inj, BitVec.toNat_setWidth, BitVec.toNat_setWidth,
    Nat.mod_eq_of_lt (Nat.lt_trans u.isLt (by decide)),
    Nat.mod_eq_of_lt (Nat.lt_trans v.isLt (by decide))]

theorem add_sixteen (a : Word) : a + 8 + 8 = a + 16 := by
  rw [BitVec.add_assoc]
  rfl

namespace LiteralTransfer

variable {h : Host} {p : ArmCore} {a ins : Word}

theorem wordByte (hl : LiteralTransfer h p a ins) : isWordByte ins := by
  have h26 := insClass_bits ins 1 (by decide)
  have h27 := insClass_bits ins 2 (by decide)
  rw [hl.immediate] at h26 h27
  apply bit_ext
  intro i _
  rw [bit_getBits]
  by_cases hi : i < 2
  · interval_cases i
    · exact h26.symm
    · exact h27.symm
  · have h2 : ¬ i < 27 - 26 + 1 := by omega
    have h1 : bit (1 : Word) i = decide (i = 0) := bit_one i
    rw [h1]
    simp only [h2, decide_false, Bool.false_and]
    exact (decide_eq_false (by omega)).symm

theorem notRefused (hl : LiteralTransfer h p a ins) :
    ¬ transferRefused ins ∧ ¬ accessRefused ins := by
  have h25 := insClass_bits ins 0 (by decide)
  rw [hl.immediate] at h25
  have hf : bit ins 25 = false := h25.symm
  refine ⟨?_, fun ha => ha.1 hl.wordByte⟩
  rintro (⟨_, ht, _⟩ | ⟨hn, _⟩)
  · rw [hf] at ht
    cases ht
  · exact hn hl.wordByte

theorem baseValue_eq (hl : LiteralTransfer h p a ins) : baseValue p.fetched ins = a + 8 := by
  have h1 : bit p.pc 1 = false := hl.pc ▸ aligned_bit_one a hl.aligned
  rw [baseValue, hl.base, fetched_armReadPc p h1, hl.pc]

theorem address_eq (hl : LiteralTransfer h p a ins) :
    accessAddress h p.fetched ins = literalAddress a ins := by
  have h25 := insClass_bits ins 0 (by decide)
  rw [hl.immediate] at h25
  have hi : ¬ getBit ins 25 ≠ 0 := fun hn => hn ((getBit_eq_zero ins 25).mpr h25.symm)
  rw [accessAddress, if_pos hl.indexed, indexedAddress, hl.baseValue_eq, transferOffset,
    if_pos hl.wordByte, offsetWordByte, if_neg hi, avancer, literalAddress]
  simp only [getBit_ne_zero]
  cases bit ins 23 with
  | true => rfl
  | false => exact (BitVec.sub_eq_add_neg _ _).symm

theorem preIndexed_eq (hl : LiteralTransfer h p a ins) :
    preIndexed h p.fetched ins = p.fetched := by
  rw [preIndexed, if_neg]
  rintro ⟨_, hw⟩
  rw [hl.noWriteback] at hw
  cases hw

theorem inRange (hl : LiteralTransfer h p a ins) : ¬ p.mem.horsPlage (literalAddress a ins) := by
  have hin := hl.inside
  rw [Memory.horsPlage_iff]
  unfold accessLength at hin
  split at hin <;> omega

theorem loaded_eq (hl : LiteralTransfer h p a ins) :
    loaded h p.fetched ins =
      (h.result, if bit ins 22 then h.value8.setWidth 32 else a + 16) := by
  have hb : ¬ rnNum ins ≠ 15 := fun hn => hn hl.base
  rw [loaded, if_pos hl.wordByte, if_neg hb, if_neg hb, hl.baseValue_eq, add_sixteen]
  split <;> rfl

theorem stored_eq (hl : LiteralTransfer h p a ins) (value : Word) :
    stored h p.fetched ins value =
      if bit ins 22 then memoryWriteByte p.mem (literalAddress a ins) h.value8
      else memoryWriteWord p.mem (literalAddress a ins) (a + 16) h.ENDIANESS := by
  have hb : ¬ rnNum ins ≠ 15 := fun hn => hn hl.base
  rw [stored, if_pos hl.wordByte, if_neg hb, if_neg hb, hl.baseValue_eq, add_sixteen, hl.address_eq,
    fetched_mem]

theorem stored_code (hl : LiteralTransfer h p a ins) (value : Word) :
    (stored h p.fetched ins value).1 = 0 := by
  rw [hl.stored_eq]
  split
  · rw [memoryWriteByte, if_neg hl.inRange]
  · rw [memoryWriteWord, if_neg hl.inRange]

theorem kind_eq (hl : LiteralTransfer h p a ins) : kindOf ins = .transfer := by
  rw [kindOf, hl.immediate]
  rfl

theorem accepted_iff (hl : LiteralTransfer h p a ins) :
    condNotRespect p.fetched ins = 0 ↔ condField ins ≠ 5 :=
  fetched_accepted_iff p ins hl.passed

theorem execute_eq (hl : LiteralTransfer h p a ins) (h5 : condField ins ≠ 5) :
    armExecuteInstruction h p =
      if (accessed h p.fetched ins).1 = -1 then (DATA_ABORT, (accessed h p.fetched ins).2)
      else (0, (accessed h p.fetched ins).2) := by
  have hc := hl.accepted_iff.mpr h5
  rw [armExecuteInstruction_eq, hl.word, aiguiller_accepted _ _ _ hc, hl.kind_eq]
  change armLoadStore h p.fetched ins = _
  rw [armLoadStore_eq _ _ _ hc, transferred, if_neg hl.notRefused.1, if_neg hl.notRefused.2,
    if_pos hl.indexed]

theorem step_eq (hl : LiteralTransfer h p a ins) (h5 : condField ins ≠ 5) (q : ArmCore) :
    armStep h p = (0, q) ↔
      (accessed h p.fetched ins).1 ≠ -1 ∧ (accessed h p.fetched ins).2 = q := by
  have he := hl.execute_eq h5
  by_cases hr : (accessed h p.fetched ins).1 = -1
  · rw [if_pos hr] at he
    have hn : (armStep h p).1 ≠ 0 :=
      armStep_code_ne_zero h p DATA_ABORT (by rw [he]) (by decide) (by decide)
    refine ⟨fun hs => absurd (by rw [hs]) hn, fun hs => absurd hr hs.1⟩
  · rw [if_neg hr] at he
    rw [armStep_of_zero h p (by rw [he]), he, Prod.mk.injEq]
    exact ⟨fun hs => ⟨hr, hs.2⟩, fun hs => ⟨rfl, hs.2⟩⟩

theorem refused (hl : LiteralTransfer h p a ins) (h5 : condField ins = 5) :
    (armStep h p).1 ≠ 0 := by
  have hc : condNotRespect p.fetched ins ≠ 0 := fun hz => hl.accepted_iff.mp hz h5
  have hk := hl.kind_eq
  rw [← hl.word] at hc hk
  refine armStep_refused h p hc ?_ ?_
  · rw [hk]
    intro hb
    cases hb
  · rw [hk]
    decide

theorem dest_bank (hl : LiteralTransfer h p a ins) :
    bank (rdNum ins, p.fetched.mode) ≠ none := by
  apply bank_isSome
  · rw [fetched_mode]
    exact hl.mode
  · exact (ne_of_val_lt (rdNum_lt ins)).2

theorem load_iff (hl : LiteralTransfer h p a ins) (h20 : bit ins 20 = true) :
    (accessed h p.fetched ins).1 ≠ -1 ∧ (accessed h p.fetched ins).2 = literalOutcome h p a ins ↔
      h.result ≠ -1 ∧
        if bit ins 22 then p.mem.data (literalAddress a ins) = h.value8
        else p.mem.word h.ENDIANESS (literalAddress a ins) = a + 16 := by
  rw [accessed, if_pos h20, hl.loaded_eq, hl.preIndexed_eq, literalOutcome, if_pos h20,
    armWriteRegister_inj _ _ _ _ (ne_of_val_lt (rdNum_lt ins)).1 hl.dest hl.dest_bank]
  cases bit ins 22 with
  | true => exact and_congr_right fun _ => (setWidth_byte_inj _ _).trans eq_comm
  | false => exact and_congr_right fun _ => eq_comm

theorem store_iff (hl : LiteralTransfer h p a ins) (h20 : bit ins 20 = false) :
    (accessed h p.fetched ins).1 ≠ -1 ∧ (accessed h p.fetched ins).2 = literalOutcome h p a ins ↔
      if bit ins 22 then (armReadRegister p (rdNum ins)).setWidth 8 = h.value8
      else armReadRegister p (rdNum ins) = a + 16 := by
  have hmem (m n : Memory) :
      ({ p.fetched with mem := m } : ArmCore) = { p.fetched with mem := n } ↔ m = n := by
    constructor
    · intro he
      exact congrArg ArmCore.mem he
    · rintro rfl
      rfl
  have h20' : ¬ bit ins 20 = true := by
    rw [h20]
    decide
  have hcode := hl.stored_code (armReadRegister p.fetched (rdNum ins))
  rw [accessed, if_neg h20', literalOutcome, if_neg h20', hl.preIndexed_eq]
  dsimp only
  rw [hcode, hl.stored_eq]
  have hne : (0 : Int) ≠ -1 := by decide
  cases bit ins 22 with
  | true =>
      simp only [if_true, hmem]
      rw [memoryWriteByte_inj _ _ _ _ hl.inRange]
      exact (and_iff_right hne).trans eq_comm
  | false =>
      simp only [Bool.false_eq_true, if_false, hmem]
      rw [memoryWriteWord_inj _ _ _ _ _ hl.inRange]
      exact (and_iff_right hne).trans eq_comm

end LiteralTransfer

theorem literal_transfer (h : Host) (p : ArmCore) (a ins : Word)
    (hl : LiteralTransfer h p a ins) :
    armStep h p = (0, literalOutcome h p a ins) ↔ LiteralSound h p a ins := by
  by_cases h5 : condField ins = 5
  · constructor
    · intro hs
      exact absurd (by rw [hs]) (hl.refused h5)
    · intro hs
      exact absurd h5 hs.1
  · rw [hl.step_eq h5, LiteralSound]
    cases h20 : bit ins 20 with
    | true => exact (hl.load_iff h20).trans (and_iff_right h5).symm
    | false => exact (hl.store_iff h20).trans (and_iff_right h5).symm

-- LDR R0, [PC] loads 16 instead of the word two instructions on.
theorem ldr_literal_loads_address :
    LiteralTransfer Host.blank (afterReset [0xE59F0000, 0, 0x12345678]) 0 0xE59F0000 ∧
      armStep Host.blank (afterReset [0xE59F0000, 0, 0x12345678]) ≠
        (0, literalOutcome Host.blank (afterReset [0xE59F0000, 0, 0x12345678]) 0 0xE59F0000) := by
  refine ⟨⟨by decide, by decide, by decide, by decide, by decide, by decide, by decide,
    by decide, by decide, by decide, by decide⟩, ?_⟩
  intro he
  exact absurd (congrArg (fun out => armReadRegister out.2 0) he) (by decide)

theorem ldr_literal_sixteen :
    armStep Host.blank (afterReset [0xE59F0000, 0, 16]) =
      (0, literalOutcome Host.blank (afterReset [0xE59F0000, 0, 16]) 0 0xE59F0000) :=
  (literal_transfer Host.blank (afterReset [0xE59F0000, 0, 16]) 0 0xE59F0000
    ⟨by decide, by decide, by decide, by decide, by decide, by decide, by decide, by decide,
      by decide, by decide, by decide⟩).mpr (by unfold LiteralSound; decide)

end Armator
