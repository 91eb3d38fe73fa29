import Armator.Architecture.Alu

namespace Armator

open BitFields

def isAddition (op : Nat) : Prop := op = 4 ∨ op = 5 ∨ op = 11

def isSubtraction (op : Nat) : Prop := op = 2 ∨ op = 3 ∨ op = 6 ∨ op = 7 ∨ op = 10

def isLogical (op : Nat) : Prop :=
  op = 0 ∨ op = 1 ∨ op = 8 ∨ op = 9 ∨ op = 12 ∨ op = 13 ∨ op = 14 ∨ op = 15

instance (op : Nat) : Decidable (isAddition op) := inferInstanceAs (Decidable (_ ∨ _))

instance (op : Nat) : Decidable (isSubtraction op) := inferInstanceAs (Decidable (_ ∨ _))

instance (op : Nat) : Decidable (isLogical op) := inferInstanceAs (Decidable (_ ∨ _))

-- The value of an arithmetic opcode before it is cut to a word.
def exactValue (op : Nat) (rn operande2 : Int) (c : Bool) : Int :=
  match op with
  | 3 => operande2 - rn
  | 4 | 11 => rn + operande2
  | 5 => rn + operande2 + c.toNat
  | 6 => rn - operande2 - (!c).toNat
  | 7 => operande2 - rn - (!c).toNat
  | _ => rn - operande2

def armResult (op : Nat) (rn operande2 : Word) (c : Bool) : Word :=
  match op with
  | 0 | 8 => rn &&& operande2
  | 1 | 9 => rn ^^^ operande2
  | 12 => rn ||| operande2
  | 13 => operande2
  | 14 => rn &&& ~~~operande2
  | 15 => ~~~operande2
  | op => BitVec.ofInt 32 (exactValue op rn.toNat operande2.toNat c)

theorem ofInt_sub (w : Nat) (x y : Int) :
    BitVec.ofInt w (x - y) = BitVec.ofInt w x - BitVec.ofInt w y := by
  rw [Int.sub_eq_add_neg, BitVec.ofInt_add, BitVec.ofInt_neg, BitVec.sub_eq_add_neg]

theorem ofInt_toNat (w : Nat) (x : Word) : BitVec.ofInt w x.toNat = x.setWidth w := by
  rw [BitVec.ofInt_natCast, BitVec.ofNat_toNat]

theorem setWidth_ofInt (e : Int) : (BitVec.ofInt 64 e).setWidth 32 = BitVec.ofInt 32 e := by
  apply BitVec.eq_of_toNat_eq
  rw [BitVec.toNat_setWidth, BitVec.toNat_ofInt, BitVec.toNat_ofInt]
  omega

theorem flagC_setWidth (x : Word) :
    (getBit x bitC).setWidth 64 = BitVec.ofInt 64 (bit x bitC).toNat := by
  cases hb : bit x bitC with
  | false =>
      rw [(getBit_eq_zero x bitC).mpr hb]
      rfl
  | true =>
      rw [(getBit_eq_one x bitC).mpr hb]
      rfl

theorem carry_minus_one (c : Bool) :
    BitVec.ofInt 64 c.toNat - 1 = -BitVec.ofInt 64 (!c).toNat := by
  cases c <;> rfl

section Temp

variable (op : Nat) (rn operande2 cpsr : Word)

theorem tempOf_arithmetic (hop : isAddition op ∨ isSubtraction op) :
    tempOf op rn operande2 cpsr =
      BitVec.ofInt 64 (exactValue op rn.toNat operande2.toNat (bit cpsr bitC)) := by
  have hborrow (x : BitVec 64) :
      x + BitVec.ofInt 64 (bit cpsr bitC).toNat - 1 =
        x - BitVec.ofInt 64 (!bit cpsr bitC).toNat := by
    rw [BitVec.sub_eq_add_neg, BitVec.add_assoc, ← BitVec.sub_eq_add_neg, carry_minus_one,
      ← BitVec.sub_eq_add_neg]
  rw [tempOf, flagC_setWidth]
  rcases hop with (rfl | rfl | rfl) | (rfl | rfl | rfl | rfl | rfl) <;>
    simp only [aluTemp, exactValue, hborrow, BitVec.ofInt_add, ofInt_sub, ofInt_toNat]

theorem tempOf_logical (hop : isLogical op) (h15 : op ≠ 15) (c : Bool) :
    tempOf op rn operande2 cpsr = (armResult op rn operande2 c).setWidth 64 := by
  rw [tempOf]
  rcases hop with rfl | rfl | rfl | rfl | rfl | rfl | rfl | rfl
  · exact BitVec.setWidth_and.symm
  · exact BitVec.setWidth_xor.symm
  · exact BitVec.setWidth_and.symm
  · exact BitVec.setWidth_xor.symm
  · exact BitVec.setWidth_or.symm
  · rfl
  · change rn.setWidth 64 &&& ~~~operande2.setWidth 64 = (rn &&& ~~~operande2).setWidth 64
    apply bit_ext
    intro i _
    simp only [bit, BitVec.getLsbD_and, BitVec.getLsbD_not, BitVec.getLsbD_setWidth]
    by_cases hi : i < 32
    · have hi' : i < 64 := by omega
      simp [hi, hi']
    · simp [BitVec.getLsbD_of_ge rn i (Nat.not_lt.mp hi)]
  · exact absurd rfl h15

theorem logical_or_arithmetic (hop : op < 16) :
    isLogical op ∨ isAddition op ∨ isSubtraction op := by
  unfold isLogical isAddition isSubtraction
  omega

theorem armResult_arithmetic (hop : isAddition op ∨ isSubtraction op) (c : Bool) :
    armResult op rn operande2 c =
      BitVec.ofInt 32 (exactValue op rn.toNat operande2.toNat c) := by
  rcases hop with (rfl | rfl | rfl) | (rfl | rfl | rfl | rfl | rfl) <;> rfl

theorem tempOf_setWidth (hop : op < 16) :
    (tempOf op rn operande2 cpsr).setWidth 32 =
      armResult op rn operande2 (bit cpsr bitC) := by
  rcases logical_or_arithmetic op hop with hl | ha
  · by_cases h15 : op = 15
    · subst h15
      change (~~~operande2.setWidth 64).setWidth 32 = ~~~operande2
      rw [BitVec.setWidth_not (by decide), BitVec.setWidth_setWidth_of_le _ (by decide),
        BitVec.setWidth_eq]
    · rw [tempOf_logical op rn operande2 cpsr hl h15 (bit cpsr bitC),
        BitVec.setWidth_setWidth_of_le _ (by decide), BitVec.setWidth_eq]
  · rw [tempOf_arithmetic op rn operande2 cpsr ha, setWidth_ofInt,
      armResult_arithmetic op rn operande2 ha]

end Temp

section Flags

variable (op : Nat) (rn operande2 : Word) (c : Bool)

def armCarry : Bool :=
  if isSubtraction op then 0 ≤ exactValue op rn.toNat operande2.toNat c
  else 2 ^ 32 ≤ exactValue op rn.toNat operande2.toNat c

def armOverflow : Bool :=
  exactValue op rn.toInt operande2.toInt c < -2 ^ 31 ∨
    2 ^ 31 ≤ exactValue op rn.toInt operande2.toInt c

def arithmeticFlags : Flags where
  n := bit (armResult op rn operande2 c) 31
  z := armResult op rn operande2 c = 0
  c := armCarry op rn operande2 c
  v := armOverflow op rn operande2 c

def logicalFlags (carry v : Bool) : Flags where
  n := bit (armResult op rn operande2 c) 31
  z := armResult op rn operande2 c = 0
  c := carry
  v := v

end Flags

end Armator
