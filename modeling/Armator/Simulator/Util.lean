import Armator.Library.BitFields

namespace Armator

abbrev Word := BitVec 32

abbrev Half := BitVec 16

abbrev Byte := BitVec 8

def cNot (x : Word) : Word := if x = 0 then 1 else 0

def getBit {w : Nat} (x : BitVec w) (i : Nat) : BitVec w := (x >>> i) &&& 1#w

def setBit (x : Word) (i : Nat) : Word := x ||| (1#32 <<< i)

def clrBit (x : Word) (i : Nat) : Word := x &&& ~~~(1#32 <<< i)

def getBits (x : Word) (h l : Nat) : Word :=
  (x >>> l) &&& ~~~((BitVec.allOnes 32 >>> (h - l + 1)) <<< (h - l + 1))

-- `~0` is an `int`: its right shift is arithmetic.
def setBits (x : Word) (h l : Nat) (bits : Word) : Word :=
  (x &&& ~~~((BitVec.allOnes 32).sshiftRight l <<< l)) |||
    (x &&& ((BitVec.allOnes 32 >>> (h + 1)) <<< (h + 1))) ||| (bits <<< l)

def reverse2 (x : Half) : Half :=
  ((x &&& 0xFF) <<< 8) ||| ((x >>> 8) &&& 0xFF)

def reverse4 (x : Word) : Word :=
  ((x &&& 0xFF) <<< 24) ||| (((x >>> 8) &&& 0xFF) <<< 16) |||
    (((x >>> 16) &&& 0xFF) <<< 8) ||| ((x >>> 24) &&& 0xFF)

open BitFields (bit)

@[simp] theorem getBit_eq_one {w : Nat} (x : BitVec (w + 1)) (i : Nat) :
    getBit x i = 1#(w + 1) ↔ bit x i = true := by
  rw [getBit, BitFields.and_one_eq_one_iff, BitFields.bit_ushiftRight]
  exact Iff.rfl

@[simp] theorem getBit_eq_zero {w : Nat} (x : BitVec (w + 1)) (i : Nat) :
    getBit x i = 0#(w + 1) ↔ bit x i = false := by
  rw [getBit, BitFields.and_one_eq_zero_iff, BitFields.bit_ushiftRight]
  exact Iff.rfl

theorem getBit_ne_zero {w : Nat} (x : BitVec (w + 1)) (i : Nat) :
    getBit x i ≠ 0 ↔ bit x i = true := by
  rw [ne_eq, BitVec.ofNat_eq_ofNat, getBit_eq_zero, Bool.not_eq_false]

theorem bit_getBits (x : Word) (h l i : Nat) :
    bit (getBits x h l) i = (decide (i < h - l + 1) && bit x (l + i)) := by
  rw [getBits, BitFields.bit_low_mask, BitFields.bit_ushiftRight]

theorem bit_of_getBits_eq {x v : Word} {h l : Nat} (hv : getBits x h l = v) (i : Nat)
    (hi : i < h - l + 1) : bit x (l + i) = bit v i := by
  rw [← hv, bit_getBits]
  simp [hi]

theorem getBits_toNat (x : Word) (h l : Nat) :
    (getBits x h l).toNat = x.toNat / 2 ^ l % 2 ^ (h - l + 1) := by
  rw [getBits, BitFields.low_mask_toNat, BitVec.toNat_ushiftRight, Nat.shiftRight_eq_div_pow]

theorem bit_setBit (x : Word) (k i : Nat) (hk : k < 32) :
    bit (setBit x k) i = if i = k then true else bit x i :=
  BitFields.bit_putBit x k i true hk

theorem getBits_eq_setWidth (x : Word) (h : Nat) :
    getBits x h 0 = (x.setWidth (h + 1)).setWidth 32 := by
  rw [getBits, BitFields.low_mask_eq, BitVec.ushiftRight_zero, Nat.sub_zero]

-- The field 30..24 of `set_bits` is narrower than the eight bits written: the shift places all.
theorem setBits_sign_extend (y : BitVec 24) (hy : y.msb = true) :
    setBits (y.setWidth 32) 30 24 0xFF = y.signExtend 32 := by
  apply BitVec.eq_of_getLsbD_eq
  intro i hi
  have h1 : (BitVec.allOnes 32).sshiftRight 24 = BitVec.allOnes 32 := by decide
  have h2 : (0xFF : Word) <<< 24 = BitVec.allOnes 32 <<< 24 := by decide
  rw [setBits, h1, h2, BitVec.getLsbD_or, BitVec.getLsbD_or, BitVec.getLsbD_and,
    BitVec.getLsbD_and, BitVec.getLsbD_not, BitVec.getLsbD_setWidth, BitVec.getLsbD_signExtend,
    hy]
  simp only [BitVec.getLsbD_shiftLeft, BitVec.getLsbD_allOnes, hi]
  by_cases h : i < 24
  · have h31 : i < 30 + 1 := by omega
    simp [h, h31]
  · have hi' : i - 24 < 32 := by omega
    simp [h, hi']

end Armator
