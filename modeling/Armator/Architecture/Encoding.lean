import Armator.Architecture.Alu
import Armator.Architecture.ShifterOperand
import Armator.Simulator.CommandCreator

namespace Armator

open BitFields

instance field_count : NeZero 16 := ⟨by decide⟩

instance amount_count : NeZero 32 := ⟨by decide⟩

inductive Operand where
  | immediate (rotate : Fin 16) (immediate : Byte)
  | shifted (valeur : Fin 32) (type_decal : Shift) (rm : Fin 16)
  | byRegister (rs : Fin 16) (type_decal : Shift) (rm : Fin 16)
deriving DecidableEq

structure Operation where
  cond : Fin 16
  opcode : Fin 16
  s : Bool
  rn : Fin 16
  rd : Fin 16
  operand : Operand
deriving DecidableEq

theorem Shift.code_lt (s : Shift) : s.code < 4 := by
  cases s <;> decide

namespace Operand

def isImmediate : Operand → Bool
  | .immediate _ _ => true
  | .shifted _ _ _ => false
  | .byRegister _ _ _ => false

def shifter : Operand → Half
  | .immediate rotate imm => construireShifterIm (BitVec.ofNat 32 rotate) (imm.setWidth 32)
  | .shifted valeur type_decal rm =>
      construireShifterVal (BitVec.ofNat 32 valeur) (BitVec.ofNat 32 type_decal.code)
        (BitVec.ofNat 32 rm)
  | .byRegister rs type_decal rm =>
      construireShifterRs (BitVec.ofNat 32 rs) (BitVec.ofNat 32 type_decal.code) (BitVec.ofNat 32 rm)

end Operand

def Operation.word (i : Operation) : Word :=
  construireInstruction (BitVec.ofNat 32 i.cond) (BitVec.ofNat 32 i.operand.isImmediate.toNat)
    (BitVec.ofNat 32 i.opcode) (BitVec.ofNat 32 i.s.toNat) (BitVec.ofNat 32 i.rn)
    (BitVec.ofNat 32 i.rd) (i.operand.shifter.setWidth 32)

section Decode

variable (w : Word)

def operandOf : Option Operand :=
  if bit w 25 then
    some (.immediate (Fin.ofNat 16 (getBits w 11 8).toNat) ((getBits w 7 0).setWidth 8))
  else if bit w 4 = false then
    some (.shifted (Fin.ofNat 32 (shiftAmount w)) (shiftKind w) (Fin.ofNat 16 (rmNum w).val))
  else if bit w 7 = false then
    some (.byRegister (Fin.ofNat 16 (rsNum w).val) (shiftKind w) (Fin.ofNat 16 (rmNum w).val))
  else none

-- The fields of a word that `arm_execute_instruction` takes for a data-processing instruction.
def operationOf : Option Operation :=
  if kindOf w = .dataProcessing then
    (operandOf w).map fun o =>
      ⟨Fin.ofNat 16 (condField w), Fin.ofNat 16 (opCode w), bit w 20, Fin.ofNat 16 (rnNum w).val,
        Fin.ofNat 16 (rdNum w).val, o⟩
  else none

end Decode

section Words

variable (cond I opcode S Rn Rd shifter_operand : Word)

theorem construireInstruction_toNat (hc : cond.toNat < 16) (ho : opcode.toNat < 16) :
    (construireInstruction cond I opcode S Rn Rd shifter_operand).toNat =
      0 + cond.toNat * 2 ^ 28 + I.toNat % 2 ^ 1 * 2 ^ 25 + opcode.toNat * 2 ^ 21 +
        S.toNat % 2 ^ 1 * 2 ^ 20 + Rn.toNat % 2 ^ 4 * 2 ^ 16 + Rd.toNat % 2 ^ 4 * 2 ^ 12 +
        shifter_operand.toNat % 2 ^ 12 * 2 ^ 0 := by
  have h0 : (0 : Word).toNat = 0 := rfl
  have h1 := field_add (n := 28) h0 (Eq.refl cond.toNat) (by omega)
  have h2 := field_add (n := 25) h1 (mask_toNat I 1 0b1 rfl) (by omega)
  have h3 := field_add (n := 21) h2 (Eq.refl opcode.toNat) (by omega)
  have h4 := field_add (n := 20) h3 (mask_toNat S 1 0b1 rfl) (by omega)
  have h5 := field_add (n := 16) h4 (mask_toNat Rn 4 0xF rfl) (by omega)
  have h6 := field_add (n := 12) h5 (mask_toNat Rd 4 0xF rfl) (by omega)
  have h7 := field_add (n := 0) h6 (mask_toNat shifter_operand 12 0xFFF rfl) (by omega)
  rwa [BitVec.shiftLeft_zero] at h7

variable (rotate immediate valeur type_decal Rs Rm : Word)

theorem construireShifterIm_toNat :
    (construireShifterIm rotate immediate).toNat =
      0 + rotate.toNat % 2 ^ 4 * 2 ^ 8 + immediate.toNat % 2 ^ 8 * 2 ^ 0 := by
  have h0 : (0 : Word).toNat = 0 := rfl
  have h1 := field_add (n := 8) h0 (mask_toNat rotate 4 0xF rfl) (by omega)
  have h2 := field_add (n := 0) h1 (mask_toNat immediate 8 0xFF rfl) (by omega)
  rw [BitVec.shiftLeft_zero] at h2
  rw [construireShifterIm, BitVec.toNat_setWidth, h2]
  exact Nat.mod_eq_of_lt (by omega)

theorem construireShifterVal_toNat (ht : type_decal.toNat < 4) :
    (construireShifterVal valeur type_decal Rm).toNat =
      0 + valeur.toNat % 2 ^ 5 * 2 ^ 7 + type_decal.toNat * 2 ^ 5 + Rm.toNat % 2 ^ 4 * 2 ^ 0 := by
  have h0 : (0 : Word).toNat = 0 := rfl
  have h1 := field_add (n := 7) h0 (mask_toNat valeur 5 0x1F rfl) (by omega)
  have h2 := field_add (n := 5) h1 (Eq.refl type_decal.toNat) (by omega)
  have h3 := field_add (n := 0) h2 (mask_toNat Rm 4 0xF rfl) (by omega)
  rw [BitVec.shiftLeft_zero] at h3
  rw [construireShifterVal, BitVec.toNat_setWidth, h3]
  exact Nat.mod_eq_of_lt (by omega)

theorem construireShifterRs_toNat (ht : type_decal.toNat < 4) :
    (construireShifterRs Rs type_decal Rm).toNat =
      0 + Rs.toNat % 2 ^ 4 * 2 ^ 8 + type_decal.toNat * 2 ^ 5 + 1 * 2 ^ 4 +
        Rm.toNat % 2 ^ 4 * 2 ^ 0 := by
  have h0 : (0 : Word).toNat = 0 := rfl
  have h1 := field_add (n := 8) h0 (mask_toNat Rs 4 0xF rfl) (by omega)
  have h2 := field_add (n := 5) h1 (Eq.refl type_decal.toNat) (by omega)
  have h1' : (1 : Word).toNat = 1 := rfl
  have h3 := field_add (n := 4) h2 h1' (by omega)
  have h4 := field_add (n := 0) h3 (mask_toNat Rm 4 0xF rfl) (by omega)
  rw [BitVec.shiftLeft_zero] at h4
  rw [construireShifterRs, BitVec.toNat_setWidth, h4]
  exact Nat.mod_eq_of_lt (by omega)

end Words

namespace Operand

def bits : Operand → Nat
  | .immediate rotate imm => rotate * 2 ^ 8 + imm.toNat
  | .shifted valeur type_decal rm => valeur * 2 ^ 7 + type_decal.code * 2 ^ 5 + rm
  | .byRegister rs type_decal rm => rs * 2 ^ 8 + type_decal.code * 2 ^ 5 + 2 ^ 4 + rm

theorem bits_lt (o : Operand) : o.bits < 2 ^ 12 := by
  cases o with
  | immediate rotate imm =>
      have hr := rotate.isLt
      have hi := imm.isLt
      rw [bits]
      omega
  | shifted valeur type_decal rm =>
      have hv := valeur.isLt
      have hm := rm.isLt
      have ht := type_decal.code_lt
      rw [bits]
      omega
  | byRegister rs type_decal rm =>
      have hs := rs.isLt
      have hm := rm.isLt
      have ht := type_decal.code_lt
      rw [bits]
      omega

theorem shifter_toNat (o : Operand) : (o.shifter.setWidth 32).toNat = o.bits := by
  have hlt := o.bits_lt
  have hset (x : Half) (hx : x.toNat = o.bits) : (x.setWidth 32).toNat = o.bits := by
    rw [BitVec.toNat_setWidth, hx]
    exact Nat.mod_eq_of_lt (by omega)
  refine hset _ ?_
  cases o with
  | immediate rotate imm =>
      have hr := rotate.isLt
      have hi := imm.isLt
      rw [shifter, construireShifterIm_toNat, bits]
      simp only [BitVec.toNat_ofNat, BitVec.toNat_setWidth]
      omega
  | shifted valeur type_decal rm =>
      have hv := valeur.isLt
      have hm := rm.isLt
      have ht := type_decal.code_lt
      rw [shifter, construireShifterVal_toNat _ _ _ (by rw [BitVec.toNat_ofNat]; omega), bits]
      simp only [BitVec.toNat_ofNat]
      omega
  | byRegister rs type_decal rm =>
      have hs := rs.isLt
      have hm := rm.isLt
      have ht := type_decal.code_lt
      rw [shifter, construireShifterRs_toNat _ _ _ (by rw [BitVec.toNat_ofNat]; omega), bits]
      simp only [BitVec.toNat_ofNat]
      omega

end Operand

theorem fin_toNat (n : Fin 16) : (BitVec.ofNat 32 n : Word).toNat = n := by
  have hn := n.isLt
  rw [BitVec.toNat_ofNat]
  omega

theorem bool_toNat (b : Bool) : (BitVec.ofNat 32 b.toNat : Word).toNat = b.toNat := by
  cases b <;> rfl

namespace Operation

variable (i : Operation)

theorem word_toNat :
    i.word.toNat = i.cond * 2 ^ 28 + i.operand.isImmediate.toNat * 2 ^ 25 + i.opcode * 2 ^ 21 +
      i.s.toNat * 2 ^ 20 + i.rn * 2 ^ 16 + i.rd * 2 ^ 12 + i.operand.bits := by
  have hbits := i.operand.bits_lt
  have hI := Bool.toNat_lt i.operand.isImmediate
  have hS := Bool.toNat_lt i.s
  rw [word, construireInstruction_toNat _ _ _ _ _ _ _ (by rw [fin_toNat]; exact i.cond.isLt)
    (by rw [fin_toNat]; exact i.opcode.isLt), Operand.shifter_toNat]
  simp only [fin_toNat, bool_toNat]
  omega

theorem field_word (l n v : Nat) (h : i.word.toNat / 2 ^ l % 2 ^ n = v) (hn : 0 < n) :
    (getBits i.word (l + n - 1) l).toNat = v := by
  rw [getBits_toNat, ← h]
  congr 2
  omega

structure Fields : Prop where
  cond : condField i.word = i.cond
  space : getBits i.word 27 26 = 0
  immediate : bit i.word 25 = i.operand.isImmediate
  opcode : opCode i.word = i.opcode
  s : bit i.word 20 = i.s
  rn : (rnNum i.word).val = i.rn
  rd : (rdNum i.word).val = i.rd
  low : i.word.toNat % 2 ^ 12 = i.operand.bits

theorem word_fields : i.Fields := by
  have hw := i.word_toNat
  have hbits := i.operand.bits_lt
  have hI := Bool.toNat_lt i.operand.isImmediate
  have hS := Bool.toNat_lt i.s
  obtain ⟨hc, ho, hn, hd⟩ : i.cond.val < 16 ∧ i.opcode.val < 16 ∧ i.rn.val < 16 ∧ i.rd.val < 16 :=
    ⟨i.cond.isLt, i.opcode.isLt, i.rn.isLt, i.rd.isLt⟩
  refine ⟨?_, ?_, ?_, ?_, ?_, ?_, ?_, ?_⟩
  · exact i.field_word 28 4 _ (by omega) (by decide)
  · exact BitVec.eq_of_toNat_eq (i.field_word 26 2 0 (by omega) (by decide))
  · rw [bit_eq_decide]
    cases hi : i.operand.isImmediate <;> simp [hi] at hw <;> simp <;> omega
  · exact i.field_word 21 4 _ (by omega) (by decide)
  · rw [bit_eq_decide]
    cases hs : i.s <;> simp [hs] at hw <;> simp <;> omega
  · rw [rnNum, regNum, i.field_word 16 4 i.rn (by omega) (by decide)]
    exact Nat.mod_eq_of_lt (by omega)
  · rw [rdNum, regNum, i.field_word 12 4 i.rd (by omega) (by decide)]
    exact Nat.mod_eq_of_lt (by omega)
  · omega

theorem low_field (l n v : Nat) (hv : i.operand.bits / 2 ^ l % 2 ^ n = v) (hn : 0 < n)
    (hl : l + n ≤ 12) : (getBits i.word (l + n - 1) l).toNat = v := by
  refine i.field_word l n v ?_ hn
  have hpow : 2 ^ 12 = 2 ^ l * 2 ^ (12 - l) := by
    rw [← Nat.pow_add]
    congr 1
    omega
  have hdvd : 2 ^ n ∣ 2 ^ (12 - l) := Nat.pow_dvd_pow 2 (by omega)
  rw [← hv, ← i.word_fields.low, hpow, Nat.mod_mul_right_div_self, Nat.mod_mod_of_dvd _ hdvd]

theorem low_bit (k : Nat) (hk : k < 12) :
    bit i.word k = decide (i.operand.bits / 2 ^ k % 2 = 1) := by
  have h1 := i.low_field k 1 _ rfl (by decide) hk
  rw [getBits_toNat] at h1
  have hsub : k + 1 - 1 - k + 1 = 1 := by omega
  rw [hsub, Nat.pow_one] at h1
  rw [bit_eq_decide, h1]

theorem ofBits_code (x : Word) (t : Shift) (h : x.toNat = t.code) : Shift.ofBits x = t := by
  rw [Shift.ofBits, h]
  cases t <;> rfl

theorem low_regNum (l : Nat) (n : Fin 16) (hl : l + 4 ≤ 12)
    (hv : i.operand.bits / 2 ^ l % 2 ^ 4 = n) :
    Fin.ofNat 16 (regNum (getBits i.word (l + 4 - 1) l)).val = n := by
  have hn := n.isLt
  apply Fin.ext
  rw [regNum, i.low_field l 4 _ hv (by decide) hl]
  change n.val % 18 % 16 = n.val
  omega

theorem operandOf_word : operandOf i.word = some i.operand := by
  have h25 := i.word_fields.immediate
  rw [operandOf]
  cases ho : i.operand with
  | immediate rotate imm =>
      have hr := rotate.isLt
      have hi := imm.isLt
      have hbits : i.operand.bits = rotate * 2 ^ 8 + imm.toNat := by rw [ho, Operand.bits]
      rw [h25, ho, Operand.isImmediate, if_pos rfl]
      congr 2
      · apply Fin.ext
        rw [i.low_field 8 4 rotate (by omega) (by decide) (by decide)]
        exact Nat.mod_eq_of_lt hr
      · apply BitVec.eq_of_toNat_eq
        rw [BitVec.toNat_setWidth, i.low_field 0 8 imm.toNat (by omega) (by decide) (by decide)]
        exact Nat.mod_eq_of_lt hi
  | shifted valeur type_decal rm =>
      have hv := valeur.isLt
      have hm := rm.isLt
      have ht := type_decal.code_lt
      have hbits : i.operand.bits = valeur * 2 ^ 7 + type_decal.code * 2 ^ 5 + rm := by
        rw [ho, Operand.bits]
      have h4 : bit i.word 4 = false := by
        rw [i.low_bit 4 (by decide), decide_eq_false_iff_not]
        omega
      rw [h25, ho, Operand.isImmediate, if_neg (by decide), if_pos h4]
      congr 2
      · apply Fin.ext
        rw [shiftAmount, i.low_field 7 5 valeur (by omega) (by decide) (by decide)]
        exact Nat.mod_eq_of_lt hv
      · exact ofBits_code _ _ (i.low_field 5 2 _ (by omega) (by decide) (by decide))
      · exact i.low_regNum 0 rm (by decide) (by omega)
  | byRegister rs type_decal rm =>
      have hs := rs.isLt
      have hm := rm.isLt
      have ht := type_decal.code_lt
      have hbits : i.operand.bits = rs * 2 ^ 8 + type_decal.code * 2 ^ 5 + 2 ^ 4 + rm := by
        rw [ho, Operand.bits]
      have h4 : ¬ bit i.word 4 = false := by
        rw [i.low_bit 4 (by decide), decide_eq_false_iff_not]
        omega
      have h7 : bit i.word 7 = false := by
        rw [i.low_bit 7 (by decide), decide_eq_false_iff_not]
        omega
      rw [h25, ho, Operand.isImmediate, if_neg (by decide), if_neg h4, if_pos h7]
      congr 2
      · exact i.low_regNum 8 rs (by decide) (by omega)
      · exact ofBits_code _ _ (i.low_field 5 2 _ (by omega) (by decide) (by decide))
      · exact i.low_regNum 0 rm (by decide) (by omega)

theorem word_injective {j : Operation} (h : i.word = j.word) : i = j := by
  obtain ⟨hcond, _, _, hop, hs, hrn, hrd, _⟩ := i.word_fields
  have hj := j.word_fields
  have ho := i.operandOf_word
  rw [h] at hcond hop hs hrn hrd ho
  obtain ⟨cond, opcode, s, rn, rd, operand⟩ := i
  obtain rfl := Option.some.inj (ho.symm.trans j.operandOf_word)
  obtain rfl : cond = j.cond := Fin.ext (hcond.symm.trans hj.cond)
  obtain rfl : opcode = j.opcode := Fin.ext (hop.symm.trans hj.opcode)
  obtain rfl : s = j.s := hs.symm.trans hj.s
  obtain rfl : rn = j.rn := Fin.ext (hrn.symm.trans hj.rn)
  obtain rfl : rd = j.rd := Fin.ext (hrd.symm.trans hj.rd)
  rfl

theorem insClass_word : insClass i.word = if i.operand.isImmediate then 1 else 0 := by
  obtain ⟨_, hspace, h25, _⟩ := i.word_fields
  have h26 := bit_of_getBits_eq hspace 0 (by decide)
  have h27 := bit_of_getBits_eq hspace 1 (by decide)
  cases hi : i.operand.isImmediate with
  | true => exact insClass_of_bits _ 1 h27 h26 (by rw [h25, hi]; rfl) (by decide)
  | false => exact insClass_of_bits _ 0 h27 h26 (by rw [h25, hi]; rfl) (by decide)

end Operation

section Decoded

variable {w : Word}

theorem bool_bit (k : Nat) : (bit w k).toNat = w.toNat / 2 ^ k % 2 := bit_toNat w k

theorem regNum_field (h l : Nat) (hl : h = l + 3) :
    (regNum (getBits w h l)).val = w.toNat / 2 ^ l % 2 ^ 4 := by
  have hbits := getBits_toNat w h l
  have hn : h - l + 1 = 4 := by omega
  rw [hn] at hbits
  rw [regNum_val _ (by omega), hbits]

theorem operandOf_bits {o : Operand} (h : operandOf w = some o) :
    o.isImmediate = bit w 25 ∧ o.bits = w.toNat % 2 ^ 12 := by
  have h25 := bool_bit (w := w) 25
  have h4 := bool_bit (w := w) 4
  have h7 := bool_bit (w := w) 7
  have hkind : (shiftKind w).code = w.toNat / 2 ^ 5 % 2 ^ 2 := by
    rw [shiftKind_code, getBits_toNat]
  have hamount : shiftAmount w = w.toNat / 2 ^ 7 % 2 ^ 5 := getBits_toNat w 11 7
  rw [operandOf] at h
  split at h
  · rename_i hi
    obtain rfl := Option.some.inj h
    refine ⟨hi.symm, ?_⟩
    have hrot : (getBits w 11 8).toNat = w.toNat / 2 ^ 8 % 2 ^ 4 := getBits_toNat w 11 8
    have himm : (getBits w 7 0).toNat = w.toNat / 2 ^ 0 % 2 ^ 8 := getBits_toNat w 7 0
    simp only [Operand.bits, Fin.ofNat, BitVec.toNat_setWidth]
    omega
  · rename_i hi
    split at h
    · rename_i hb4
      obtain rfl := Option.some.inj h
      rw [Bool.not_eq_true] at hi
      refine ⟨hi.symm, ?_⟩
      have hrm := regNum_field (w := w) 3 0 rfl
      rw [hb4, Bool.toNat_false] at h4
      simp only [Operand.bits, rmNum, hrm, hkind, hamount, Fin.ofNat]
      omega
    · rename_i hb4
      split at h
      · rename_i hb7
        obtain rfl := Option.some.inj h
        rw [Bool.not_eq_true] at hi
        refine ⟨hi.symm, ?_⟩
        have hrm := regNum_field (w := w) 3 0 rfl
        have hrs := regNum_field (w := w) 11 8 rfl
        rw [Bool.not_eq_false] at hb4
        rw [hb4, Bool.toNat_true] at h4
        rw [hb7, Bool.toNat_false] at h7
        simp only [Operand.bits, rmNum, rsNum, hrm, hrs, hkind, Fin.ofNat]
        omega
      · cases h

theorem word_of_operationOf {i : Operation} (h : operationOf w = some i) : i.word = w := by
  rw [operationOf] at h
  split at h
  · rename_i hkind
    obtain ⟨o, ho, rfl⟩ := Option.map_eq_some_iff.mp h
    obtain ⟨hi, hbits⟩ := operandOf_bits ho
    have h25 := bool_bit (w := w) 25
    have h20 := bool_bit (w := w) 20
    have hclass := kindOf_class w
    rw [hkind, insClass, getBits_toNat] at hclass
    have h26 : w.toNat / 2 ^ 26 % 2 ^ 2 = 0 := by
      simp only [Kind.classes, List.mem_cons, List.not_mem_nil, or_false] at hclass
      omega
    have hcond : condField w = w.toNat / 2 ^ 28 % 2 ^ 4 := getBits_toNat w 31 28
    have hop : opCode w = w.toNat / 2 ^ 21 % 2 ^ 4 := getBits_toNat w 24 21
    have hrn := regNum_field (w := w) 19 16 rfl
    have hrd := regNum_field (w := w) 15 12 rfl
    have hlt := w.isLt
    apply BitVec.eq_of_toNat_eq
    rw [Operation.word_toNat]
    simp only [rnNum, rdNum, hrn, hrd, hi, hbits, h25, h20, hcond, hop, Fin.ofNat]
    omega
  · cases h

end Decoded

def registre (r : Fin 16) : RegNum := r.castLE (by decide)

-- What the operand gives to the operation.
def Operand.fetch (h : Host) (p : ArmCore) : Operand → Word
  | .immediate rotate imm => effectuerDecalage h ROR (rotate * 2) (imm.setWidth 32)
  | .shifted valeur type_decal rm =>
      effectuerDecalage h type_decal.code valeur (armReadRegister p (registre rm))
  | .byRegister rs type_decal rm =>
      effectuerDecalage h type_decal.code ((armReadRegister p (registre rs)).toNat % 2 ^ 5)
        (armReadRegister p (registre rm))

namespace Operation

-- The other comparisons have the encoding of the status instructions.
def Traite (i : Operation) : Prop :=
  isComparison i.opcode → i.s = true ∨ i.operand.isImmediate = true ∧ i.opcode.val % 2 = 1

def effet (h : Host) (p : ArmCore) (i : Operation) : Int × ArmCore :=
  if i.cond ≠ 15 ∧ conditionAccepted i.cond (flagsOf p.cpsr) = true then
    let temp := tempOf i.opcode (armReadRegister p (registre i.rn)) (i.operand.fetch h p) p.cpsr
    if isComparison i.opcode then updateFlags temp p 1 (registre i.rd)
    else updateFlags temp (armWriteRegister p (registre i.rd) (temp.setWidth 32))
      (BitVec.ofNat 32 i.s.toNat) (registre i.rd)
  else (1, p)

end Operation

section Executed

variable {w : Word}

theorem comparison_bits (w : Word) :
    isComparison (opCode w) ↔ bit w 24 = true ∧ bit w 23 = false := by
  have hop : opCode w = w.toNat / 2 ^ 21 % 2 ^ 4 := getBits_toNat w 24 21
  rw [isComparison, hop, bit_eq_decide, bit_eq_decide, decide_eq_true_eq, decide_eq_false_iff_not]
  omega

theorem odd_opCode (w : Word) : bit w 21 = false ↔ ¬ opCode w % 2 = 1 := by
  have hop : opCode w = w.toNat / 2 ^ 21 % 2 ^ 4 := getBits_toNat w 24 21
  rw [hop, bit_eq_decide, decide_eq_false_iff_not]
  omega

theorem kindOf_low (hk : kindOf w = .dataProcessing) :
    bit w 25 = true ∨ bit w 4 = false ∨ bit w 7 = false := by
  have hclass := kindOf_class w
  rw [hk] at hclass
  cases h25 : bit w 25 with
  | true => exact Or.inl rfl
  | false =>
      have h0 : insClass w = 0 := by
        have hbit := bool_bit (w := w) 25
        rw [h25, Bool.toNat_false] at hbit
        rw [insClass, getBits_toNat] at hclass
        simp only [Kind.classes, List.mem_cons, List.not_mem_nil, or_false] at hclass
        apply BitVec.eq_of_toNat_eq
        rw [insClass, getBits_toNat]
        change _ = 0
        omega
      rw [kindOf, h0] at hk
      change (if bit w 24 = true ∧ bit w 23 = false ∧ bit w 20 = false then Kind.miscellaneous
        else if bit w 4 = true ∧ bit w 7 = true then Kind.transfer else Kind.dataProcessing) = _ at hk
      grind

theorem operationOf_ne_none (hk : kindOf w = .dataProcessing) : operationOf w ≠ none := by
  have hlow := kindOf_low hk
  rw [operationOf, if_pos hk, operandOf]
  cases h25 : bit w 25 <;> cases h4 : bit w 4 <;> cases h7 : bit w 7 <;> simp_all

theorem kindOf_word (i : Operation) : kindOf i.word = .dataProcessing ↔ i.Traite := by
  have hclass := i.insClass_word
  obtain ⟨_, _, h25, hop, h20, _⟩ := i.word_fields
  have hcmp := comparison_bits i.word
  have hodd := odd_opCode i.word
  have ho := i.operandOf_word
  rw [hop] at hcmp hodd
  rw [kindOf, hclass, Operation.Traite, hcmp, ← h20]
  cases hi : i.operand.isImmediate with
  | true =>
      change (if bit i.word 24 = true ∧ bit i.word 23 = false ∧ bit i.word 21 = false ∧
        bit i.word 20 = false then Kind.undefined else Kind.dataProcessing) = _ ↔ _
      rw [ite_eq_right_iff]
      grind
  | false =>
      have h47 : ¬ (bit i.word 4 = true ∧ bit i.word 7 = true) := by
        rintro ⟨h4, h7⟩
        rw [operandOf, h25, hi, if_neg (by decide), h4, h7] at ho
        cases ho
      change (if bit i.word 24 = true ∧ bit i.word 23 = false ∧ bit i.word 20 = false then
        Kind.miscellaneous else if bit i.word 4 = true ∧ bit i.word 7 = true then Kind.transfer
        else Kind.dataProcessing) = _ ↔ _
      rw [if_neg h47, ite_eq_right_iff]
      grind

theorem exists_word_iff (w : Word) :
    kindOf w = .dataProcessing ↔ ∃ i : Operation, i.Traite ∧ i.word = w := by
  constructor
  · intro hk
    obtain ⟨i, hi⟩ := Option.ne_none_iff_exists'.mp (operationOf_ne_none hk)
    obtain rfl := word_of_operationOf hi
    exact ⟨i, (kindOf_word i).mp hk, rfl⟩
  · rintro ⟨i, hi, rfl⟩
    exact (kindOf_word i).mpr hi

variable (h : Host) (p : ArmCore) (i : Operation)

theorem registre_ofNat (n : RegNum) (r : Fin 16) (hn : n.val < 16) (h : Fin.ofNat 16 n.val = r) :
    n = registre r := by
  subst h
  exact Fin.ext (Nat.mod_eq_of_lt hn).symm

theorem operande2_word : operande2 h p i.word = i.operand.fetch h p := by
  have h25 := i.word_fields.immediate
  have ho := i.operandOf_word
  have hrm := registre_ofNat (rmNum i.word) _ (regNum_getBits_lt i.word 3 0 rfl) rfl
  have hrs := registre_ofNat (rsNum i.word) _ (regNum_getBits_lt i.word 11 8 rfl) rfl
  rw [operandOf] at ho
  rw [operande2, i.insClass_word, ← h25]
  rw [rmNum] at hrm
  rw [rsNum] at hrs
  split at ho
  · rename_i hi
    rw [hi, if_pos rfl, if_pos rfl, ← Option.some.inj ho, Operand.fetch]
    have hrot : (getBits i.word 11 8).toNat < 16 := by
      rw [getBits_toNat]
      exact Nat.mod_lt _ (by decide)
    have himm : ((getBits i.word 7 0).setWidth 8).setWidth 32 = getBits i.word 7 0 := by
      have hlow : (getBits i.word 7 0).toNat = i.word.toNat / 2 ^ 0 % 2 ^ 8 := getBits_toNat _ 7 0
      apply BitVec.eq_of_toNat_eq
      rw [BitVec.toNat_setWidth, BitVec.toNat_setWidth]
      omega
    rw [himm]
    congr 2
    exact (Nat.mod_eq_of_lt hrot).symm
  · rename_i hi
    rw [if_neg hi, if_neg (by decide), determinerDecalage_code, hrm]
    split at ho
    · rename_i h4
      rw [← Option.some.inj ho, Operand.fetch, h4, if_neg (by decide)]
      congr 1
      exact (Nat.mod_eq_of_lt (shiftAmount_lt i.word)).symm
    · rename_i h4
      split at ho
      · have hlow (x : Word) : (getBits x 4 0).toNat = x.toNat % 2 ^ 5 := by
          rw [getBits_toNat, Nat.pow_zero, Nat.div_one]
        rw [Bool.not_eq_false] at h4
        rw [← Option.some.inj ho, Operand.fetch, h4, if_pos rfl, hrs, hlow]
        rfl
      · cases ho

theorem aiguiller_word (hi : i.Traite) : aiguiller h p i.word = i.effet h p := by
  have hk := (kindOf_word i).mpr hi
  have hf := i.word_fields
  have hrn : rnNum i.word = registre i.rn := Fin.ext hf.rn
  have hrd : rdNum i.word = registre i.rd := Fin.ext hf.rd
  have hs : getBit i.word 20 = BitVec.ofNat 32 i.s.toNat := by
    cases hs : i.s with
    | true => exact (getBit_eq_one _ _).mpr (hf.s.trans hs)
    | false => exact (getBit_eq_zero _ _).mpr (hf.s.trans hs)
  have hc := condNotRespect_eq p i.word
  rw [hf.cond] at hc
  rw [Operation.effet]
  split
  · rename_i haccept
    have h15 : i.cond.val ≠ 15 := fun h15 => haccept.1 (Fin.ext h15)
    rw [if_neg h15, if_pos haccept.2] at hc
    rw [aiguiller_accepted h p i.word hc, hk]
    change effectuerOperation (opCode i.word) (armReadRegister p (rnNum i.word))
      (operande2 h p i.word) p i.word = _
    rw [effectuerOperation_eq _ (opCode_lt _), hf.opcode, hrn, hrd, hs, operande2_word]
    rfl
  · rename_i hrefuse
    have hne : condNotRespect p i.word ≠ 0 := by
      rw [hc]
      split
      · decide
      · rename_i h15
        rw [if_neg fun ha => hrefuse ⟨fun h => h15 (congrArg Fin.val h), ha⟩]
        decide
    have hbranch : kindOf i.word ≠ .branch := by
      rw [hk]
      decide
    rw [aiguiller_refused h p i.word hne fun hb => absurd hb hbranch, hk]
    rfl

end Executed

end Armator
