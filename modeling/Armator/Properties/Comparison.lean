import Armator.Architecture.FlagUpdate
import Armator.Simulator.Create

namespace Armator

open BitFields

theorem sub_toNat (a b : Word) :
    (a.setWidth 64 - b.setWidth 64).toNat = (a.toNat + (2 ^ 64 - b.toNat)) % 2 ^ 64 := by
  have ha := a.isLt
  have hb := b.isLt
  simp only [BitVec.toNat_sub, BitVec.toNat_setWidth]
  omega

theorem tempFlags_sub (a b : Word) :
    tempFlags (a.setWidth 64 - b.setWidth 64) =
      ⟨decide (2 ^ 31 ≤ (a.toNat + (2 ^ 32 - b.toNat)) % 2 ^ 32), a = b,
        a.toNat < b.toNat, a.toNat < b.toNat⟩ := by
  have ha := a.isLt
  have hb := b.isLt
  have ht := sub_toNat a b
  have hz : a.setWidth 64 - b.setWidth 64 = 0 ↔ a = b := by
    rw [← BitVec.toNat_inj, ht, ← BitVec.toNat_inj]
    simp only [BitVec.ofNat_eq_ofNat, BitVec.toNat_ofNat]
    omega
  have hv : a.setWidth 64 - b.setWidth 64 ≠
      ((a.setWidth 64 - b.setWidth 64).setWidth 32 : Word).setWidth 64 ↔ a.toNat < b.toNat := by
    rw [Ne, ← BitVec.toNat_inj, BitVec.toNat_setWidth, BitVec.toNat_setWidth, ht]
    omega
  unfold tempFlags
  simp only [bit_eq_decide, ht, hz, hv, Flags.mk.injEq, decide_eq_decide, true_and, and_true]
  constructor <;> omega

inductive Cond where
  | EQ | NE | HS | LO | MI | PL | HI | LS | GE | LT | GT | LE
deriving DecidableEq, Repr

def Cond.code : Cond → Nat
  | .EQ => 0
  | .NE => 1
  | .HS => 2
  | .LO => 3
  | .MI => 4
  | .PL => 5
  | .HI => 8
  | .LS => 9
  | .GE => 10
  | .LT => 11
  | .GT => 12
  | .LE => 13

def Cond.relation (a b : Word) : Cond → Prop
  | .EQ => a = b
  | .NE => a ≠ b
  | .HS => b.toNat ≤ a.toNat
  | .LO => a.toNat < b.toNat
  | .MI => (a - b).msb = true
  | .PL => (a - b).msb = false
  | .HI => b.toNat < a.toNat
  | .LS => a.toNat ≤ b.toNat
  | .GE => b.toInt ≤ a.toInt
  | .LT => a.toInt < b.toInt
  | .GT => b.toInt < a.toInt
  | .LE => a.toInt ≤ b.toInt

def Cond.sound (a b : Word) : Cond → Prop
  | .EQ | .NE | .MI => True
  | .HS | .LO | .PL => False
  | .HI | .LS => a = b
  | .GE | .LT | .GT => b.toNat % 2 ^ 31 ≤ a.toNat % 2 ^ 31
  | .LE => a.toInt ≤ b.toInt

theorem condNotRespect_after_cmp (p : ArmCore) (a b cmp ins : Word) (c : Cond)
    (hrd : regNum (getBits cmp 15 12) ≠ 15) (hc : condField ins = c.code) :
    condNotRespect (effectuerOperation 10 a b p cmp).2 ins = 0 ↔
      conditionAccepted c.code (tempFlags (a.setWidth 64 - b.setWidth 64)) = true := by
  have he : effectuerOperation 10 a b p cmp =
      updateFlags (a.setWidth 64 - b.setWidth 64) p 1 (regNum (getBits cmp 15 12)) := rfl
  have hn : c.code ≠ 15 := by cases c <;> decide
  rw [he, updateFlags_flags _ _ _ hrd, condNotRespect_eq, hc, if_neg hn, armWriteCpsr_cpsr,
    flagsOf_putFlags]
  split <;> simp_all

theorem compare_then_condition (p : ArmCore) (a b cmp ins : Word) (c : Cond)
    (hrd : regNum (getBits cmp 15 12) ≠ 15) (hc : condField ins = c.code) :
    (condNotRespect (effectuerOperation 10 a b p cmp).2 ins = 0 ↔ c.relation a b) ↔
      c.sound a b := by
  rw [condNotRespect_after_cmp p a b cmp ins c hrd hc, tempFlags_sub]
  have ha := a.isLt
  have hb := b.isLt
  have hm : (a - b).msb = decide (2 ^ 31 ≤ (a.toNat + (2 ^ 32 - b.toNat)) % 2 ^ 32) := by
    rw [BitVec.msb_eq_decide, BitVec.toNat_sub]
    simp only [decide_eq_decide]
    omega
  have hab : a = b ↔ a.toNat = b.toNat := BitVec.toNat_inj.symm
  cases c <;>
    simp only [Cond.code, Cond.relation, Cond.sound, conditionAccepted, conditionPassed, hm, hab,
      BitVec.toInt_eq_toNat_cond, ne_eq, Bool.not_eq_true', Bool.and_eq_true, Bool.or_eq_true,
      beq_iff_eq, bne_iff_ne, decide_eq_decide, decide_eq_true_eq, decide_eq_false_iff_not,
      iff_false, true_iff] <;>
    omega

-- HS after CMP R0, R1 with 0 and 1: the borrow sets C.
theorem hs_after_borrow :
    ¬ (condNotRespect (effectuerOperation 10 0 1 (afterReset []) 0xE1500001).2 0x20000000 = 0 ↔
      Cond.HS.relation 0 1) := by
  intro hh
  have hle : (1 : Word).toNat ≤ (0 : Word).toNat := hh.mp (by decide)
  exact absurd hle (by decide)

theorem gt_after_cmp :
    condNotRespect (effectuerOperation 10 3 2 (afterReset []) 0xE1500001).2 0xC0000000 = 0 ↔
      Cond.GT.relation 3 2 :=
  (compare_then_condition (afterReset []) 3 2 0xE1500001 0xC0000000 .GT (by decide)
    (by decide)).mpr (by unfold Cond.sound; decide)

end Armator
