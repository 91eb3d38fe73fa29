import Armator.Architecture.AluSpec
import Armator.Simulator.Create

namespace Armator

open BitFields

theorem tempFlags_ofInt (e : Int) (hl : -2 ^ 32 ≤ e) (hu : e < 2 ^ 33) :
    tempFlags (BitVec.ofInt 64 e) =
      ⟨bit (BitVec.ofInt 32 e) 31, e = 0, e < 0 ∨ 2 ^ 32 ≤ e, e < 0 ∨ 2 ^ 32 ≤ e⟩ := by
  have hn : bit (BitVec.ofInt 64 e) 31 = bit (BitVec.ofInt 32 e) 31 := by
    rw [← setWidth_ofInt, bit_setWidth _ _ _ (by decide)]
  have ht : (BitVec.ofInt 64 e).toNat = (e % 2 ^ 64).toNat := BitVec.toNat_ofInt e
  have hz : BitVec.ofInt 64 e = 0 ↔ e = 0 := by
    rw [← BitVec.toNat_inj, ht]
    simp only [BitVec.ofNat_eq_ofNat, BitVec.toNat_ofNat]
    omega
  have hc : bit (BitVec.ofInt 64 e) 32 = true ↔ e < 0 ∨ 2 ^ 32 ≤ e := by
    rw [bit_eq_decide, ht, decide_eq_true_eq]
    omega
  have hv : BitVec.ofInt 64 e ≠ ((BitVec.ofInt 64 e).setWidth 32 : Word).setWidth 64 ↔
      e < 0 ∨ 2 ^ 32 ≤ e := by
    rw [Ne, ← BitVec.toNat_inj, BitVec.toNat_setWidth, BitVec.toNat_setWidth, ht]
    omega
  rw [tempFlags, hn, Bool.eq_iff_iff.mpr (hc.trans decide_eq_true_iff.symm)]
  simp only [hz, hv]

def isArithmetic (op : Nat) : Prop := isAddition op ∨ isSubtraction op

instance (op : Nat) : Decidable (isArithmetic op) := inferInstanceAs (Decidable (_ ∨ _))

def carryIn (op : Nat) (c : Bool) : Nat := if op = 5 then c.toNat else 0

-- An addition that does not carry into bit 31, and whose sum is not the word after the last.
def CarryConfined (op : Nat) (rn operande2 : Word) (c : Bool) : Prop :=
  isAddition op ∧
    rn.toNat % 2 ^ 31 + operande2.toNat % 2 ^ 31 + carryIn op c < 2 ^ 31 ∧
    rn.toNat + operande2.toNat + carryIn op c ≠ 2 ^ 32

section Exact

variable (op : Nat) (rn operande2 : Word) (c : Bool)

theorem exactValue_bounds :
    -2 ^ 32 ≤ exactValue op rn.toNat operande2.toNat c ∧
      exactValue op rn.toNat operande2.toNat c < 2 ^ 33 := by
  have ha := rn.isLt
  have hb := operande2.isLt
  have hc := Bool.toNat_le c
  have hn := Bool.toNat_le (!c)
  unfold exactValue
  split <;> omega

theorem addition_flags (hop : isAddition op) :
    tempFlags (BitVec.ofInt 64 (exactValue op rn.toNat operande2.toNat c)) =
        arithmeticFlags op rn operande2 c ↔
      rn.toNat % 2 ^ 31 + operande2.toNat % 2 ^ 31 + carryIn op c < 2 ^ 31 ∧
        rn.toNat + operande2.toNat + carryIn op c ≠ 2 ^ 32 := by
  have ha := rn.isLt
  have hb := operande2.isLt
  have hsub : ¬ isSubtraction op := by
    unfold isAddition isSubtraction at *
    omega
  have hexact (x y : Int) : exactValue op x y c = x + y + carryIn op c := by
    rcases hop with rfl | rfl | rfl <;> simp [exactValue, carryIn]
  have hin : carryIn op c ≤ 1 := by
    have hc := Bool.toNat_le c
    unfold carryIn
    split <;> omega
  have hz : armResult op rn operande2 c = 0 ↔
      (rn.toNat + operande2.toNat + carryIn op c) % 2 ^ 32 = 0 := by
    rw [armResult_arithmetic op rn operande2 (Or.inl hop), hexact, ← BitVec.toNat_inj,
      BitVec.toNat_ofInt]
    simp only [BitVec.ofNat_eq_ofNat, BitVec.toNat_ofNat]
    omega
  obtain ⟨hl, hu⟩ := exactValue_bounds op rn operande2 c
  rw [tempFlags_ofInt _ hl hu, arithmeticFlags, armResult_arithmetic op rn operande2 (Or.inl hop),
    armCarry, if_neg hsub, armOverflow, ← armResult_arithmetic op rn operande2 (Or.inl hop)]
  simp only [hz, hexact, Flags.mk.injEq, decide_eq_decide, true_and,
    BitVec.toInt_eq_toNat_cond]
  split <;> split <;> omega

theorem subtraction_flags (hop : isSubtraction op) :
    tempFlags (BitVec.ofInt 64 (exactValue op rn.toNat operande2.toNat c)) ≠
      arithmeticFlags op rn operande2 c := by
  have ha := rn.isLt
  have hb := operande2.isLt
  have hsmall : exactValue op rn.toNat operande2.toNat c < 2 ^ 32 := by
    rcases hop with rfl | rfl | rfl | rfl | rfl <;> simp only [exactValue] <;> omega
  obtain ⟨hl, hu⟩ := exactValue_bounds op rn operande2 c
  intro he
  have hc := congrArg Flags.c he
  rw [tempFlags_ofInt _ hl hu, arithmeticFlags] at hc
  simp only [armCarry, if_pos hop, decide_eq_decide] at hc
  omega

end Exact

theorem arithmetic_flags (p : ArmCore) (op : Nat) (rn operande2 ins : Word)
    (hop : isArithmetic op) (hs : setsFlags op ins) (hd : rdNum ins ≠ 15) :
    flagsOf (effectuerOperation op rn operande2 p ins).2.cpsr =
        arithmeticFlags op rn operande2 (flagsOf p.cpsr).c ↔
      CarryConfined op rn operande2 (flagsOf p.cpsr).c := by
  have hlt : op < 16 := by
    unfold isArithmetic isAddition isSubtraction at hop
    omega
  rw [effectuerOperation_flags op rn operande2 p ins hlt hs hd, armWriteCpsr_cpsr,
    flagsOf_putFlags, tempOf_arithmetic op rn operande2 p.cpsr hop]
  rcases hop with hadd | hsub
  · rw [CarryConfined, and_iff_right hadd]
    exact addition_flags op rn operande2 (flagsOf p.cpsr).c hadd
  · refine iff_of_false (subtraction_flags op rn operande2 (flagsOf p.cpsr).c hsub) ?_
    rintro ⟨hadd, _⟩
    unfold isAddition isSubtraction at *
    omega

-- SUBS R0, R0, R1 with two equal operands: no borrow, and C is cleared.
theorem subs_equal_clears_carry :
    isArithmetic 2 ∧ setsFlags 2 0xE0500001 ∧ rdNum 0xE0500001 ≠ 15 ∧
      flagsOf (effectuerOperation 2 1 1 (afterReset []) 0xE0500001).2.cpsr ≠
        arithmeticFlags 2 1 1 (flagsOf (afterReset []).cpsr).c := by
  decide

theorem adds_small :
    flagsOf (effectuerOperation 4 1 2 (afterReset []) 0xE0900001).2.cpsr =
      arithmeticFlags 4 1 2 (flagsOf (afterReset []).cpsr).c :=
  (arithmetic_flags (afterReset []) 4 1 2 0xE0900001 (by decide) (by decide) (by decide)).mpr
    (by unfold CarryConfined; decide)

end Armator
