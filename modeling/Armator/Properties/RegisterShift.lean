import Armator.Properties.ImmediateShift

namespace Armator

open BitFields

def registerAmount (p : ArmCore) (ins : Word) : Nat :=
  (getBits (armReadRegister p (rsNum ins)) 7 0).toNat

def registerOperand (s : Shift) (n : Nat) (rm : Word) : Word :=
  if n = 0 then rm
  else
    match s with
    | .lsl => if n < 32 then rm <<< n else 0
    | .lsr => if n < 32 then rm >>> n else 0
    | .asr => rm.sshiftRight (min n 32)
    | .ror => rm.rotateRight (n % 32)

-- The code shifts by `n % 32`, and an amount of 0 shifts by 32 where ASR and ROR complement it.
def AmountRight (h : Host) (s : Shift) (n : Nat) (rm : Word) : Prop :=
  match s with
  | .lsl => 32 ≤ n → ∀ i < 32 - n % 32, bit rm i = false
  | .lsr => 32 ≤ n → ∀ i < 32, n % 32 ≤ i → bit rm i = false
  | .asr =>
      if n = 0 then bit rm 31 = true →
        ∀ i < 32, bit (h.shlOut (BitVec.allOnes 32) 32) i = true → bit rm i = true
      else if n % 32 = 0 then ZeroAmountRight h .asr rm false
      else 32 ≤ n → ∀ i < 32, n % 32 ≤ i → bit rm i = bit rm 31
  | .ror => n % 32 = 0 → ∀ i < 32, bit (h.shlOut rm 32) i = true → bit rm i = true

def RegisterShiftRight (h : Host) (p : ArmCore) (ins : Word) : Prop :=
  condField ins ≠ 5 ∧
    AmountRight h (shiftKind ins) (registerAmount p ins) (armReadRegister p (rmNum ins))

section Amount

variable (h : Host) (n : Nat) (rm : Word)

theorem or_eq_self_iff (x y : Word) :
    x ||| y = x ↔ ∀ i < 32, bit y i = true → bit x i = true := by
  rw [eq_iff_bits]
  refine forall₂_congr fun i _ => ?_
  rw [bit_or]
  cases bit x i <;> simp

theorem shiftLeft_eq_zero_iff (m : Nat) :
    rm <<< m = 0#32 ↔ ∀ i < 32 - m, bit rm i = false := by
  rw [eq_iff_bits]
  constructor
  · intro hz i hi
    have hb := hz (i + m) (by omega)
    rw [bit_shiftLeft _ _ _ (by omega), bit_zero, Nat.add_sub_cancel] at hb
    simpa using hb
  · intro hz i hi
    rw [bit_shiftLeft _ _ _ hi, bit_zero]
    by_cases hm : m ≤ i
    · rw [hz (i - m) (by omega), Bool.and_false]
    · simp [hm]

theorem ushiftRight_eq_zero_iff (m : Nat) :
    rm >>> m = 0#32 ↔ ∀ i < 32, m ≤ i → bit rm i = false := by
  rw [eq_iff_bits]
  constructor
  · intro hz i hi hm
    have hb := hz (i - m) (by omega)
    rwa [bit_ushiftRight, bit_zero, Nat.add_sub_cancel' hm] at hb
  · intro hz i _
    rw [bit_ushiftRight, bit_zero]
    by_cases hi : m + i < 32
    · exact hz (m + i) hi (Nat.le_add_right m i)
    · exact BitVec.getLsbD_of_ge rm _ (Nat.not_lt.mp hi)

theorem sshiftRight_eq_fill_iff (m : Nat) :
    rm.sshiftRight m = rm.sshiftRight 32 ↔ ∀ i < 32, m ≤ i → bit rm i = bit rm 31 := by
  have hmsb : rm.msb = bit rm 31 := rfl
  have hfill (i : Nat) (hi : i < 32) : bit (rm.sshiftRight 32) i = bit rm 31 := by
    rw [bit_sshiftRight _ _ _ hi, if_neg (by omega), hmsb]
  rw [eq_iff_bits]
  constructor
  · intro he i hi hm
    have hb := he (i - m) (by omega)
    rwa [hfill _ (by omega), bit_sshiftRight _ _ _ (by omega), Nat.add_sub_cancel' hm,
      if_pos hi] at hb
  · intro he i hi
    rw [hfill i hi, bit_sshiftRight _ _ _ hi]
    split
    · rename_i hm
      exact he (m + i) hm (Nat.le_add_right m i)
    · exact hmsb

theorem amount_small (s : Shift) (h1 : n % 32 ≠ 0) (hn : n < 32) :
    registerOperand s n rm = s.apply rm n := by
  have hn0 : n ≠ 0 := by
    rintro rfl
    exact h1 rfl
  have hmin : min n 32 = n := Nat.min_eq_left (Nat.le_of_lt hn)
  cases s <;> simp [registerOperand, hn0, hn, hmin, Shift.apply, Nat.mod_eq_of_lt]

theorem amount_zero_iff (s : Shift) :
    effectuerDecalage h s.code 0 rm = registerOperand s 0 rm ↔ AmountRight h s 0 rm := by
  rw [effectuerDecalage_zero]
  cases s with
  | lsl => simp [registerOperand, AmountRight]
  | lsr => simp [registerOperand, AmountRight]
  | asr =>
      simp only [registerOperand, AmountRight, if_true]
      cases bit rm 31 with
      | false => simp
      | true =>
          rw [if_pos rfl, or_eq_self_iff]
          exact ⟨fun hb _ => hb, fun hb => hb rfl⟩
  | ror => simp [registerOperand, AmountRight, or_eq_self_iff]

theorem amount_multiple_iff (s : Shift) (h0 : n % 32 = 0) (hn : 32 ≤ n) :
    effectuerDecalage h s.code 0 rm = registerOperand s n rm ↔ AmountRight h s n rm := by
  have hn0 : n ≠ 0 := by omega
  have hlt : ¬ n < 32 := by omega
  have hmin : min n 32 = 32 := Nat.min_eq_right hn
  cases s with
  | lsl =>
      have hz := shiftLeft_eq_zero_iff rm 0
      rw [BitVec.shiftLeft_zero] at hz
      rw [effectuerDecalage_zero]
      simp only [registerOperand, AmountRight, hn0, if_false, hlt, h0, hn, forall_const]
      exact hz
  | lsr =>
      have hz := ushiftRight_eq_zero_iff rm 0
      rw [BitVec.ushiftRight_zero] at hz
      rw [effectuerDecalage_zero]
      simp only [registerOperand, AmountRight, hn0, if_false, hlt, h0, hn, forall_const]
      exact hz
  | asr =>
      have hz := zero_amount_iff h .asr rm false
      simp only [immediateOperand, if_true] at hz
      simp only [registerOperand, AmountRight, hn0, if_false, h0, if_true, hmin]
      exact hz
  | ror =>
      rw [effectuerDecalage_zero]
      simp only [registerOperand, AmountRight, hn0, if_false, h0, forall_const]
      rw [← or_eq_self_iff, BitVec.rotateRight_def]
      simp

theorem amount_beyond_iff (s : Shift) (h1 : n % 32 ≠ 0) (hn : 32 ≤ n) :
    s.apply rm (n % 32) = registerOperand s n rm ↔ AmountRight h s n rm := by
  have hn0 : n ≠ 0 := by omega
  have hlt : ¬ n < 32 := by omega
  have hmin : min n 32 = 32 := Nat.min_eq_right hn
  cases s with
  | lsl =>
      simp only [Shift.apply, registerOperand, AmountRight, hn0, if_false, hlt, hn, forall_const]
      exact shiftLeft_eq_zero_iff rm (n % 32)
  | lsr =>
      simp only [Shift.apply, registerOperand, AmountRight, hn0, if_false, hlt, hn, forall_const]
      exact ushiftRight_eq_zero_iff rm (n % 32)
  | asr =>
      simp only [Shift.apply, registerOperand, AmountRight, hn0, if_false, h1, hn, forall_const, hmin]
      exact sshiftRight_eq_fill_iff rm (n % 32)
  | ror => simp [Shift.apply, registerOperand, AmountRight, hn0, h1]

theorem amount_iff (s : Shift) :
    effectuerDecalage h s.code (n % 32) rm = registerOperand s n rm ↔ AmountRight h s n rm := by
  have hm : n % 32 < 32 := Nat.mod_lt _ (by decide)
  by_cases h0 : n % 32 = 0
  · rw [h0]
    by_cases hn : 32 ≤ n
    · exact amount_multiple_iff h n rm s h0 hn
    · have hz : n = 0 := by omega
      subst hz
      exact amount_zero_iff h rm s
  · rw [effectuerDecalage_shift h s _ rm hm (Or.inr (Nat.pos_of_ne_zero h0))]
    by_cases hn : 32 ≤ n
    · exact amount_beyond_iff h n rm s h0 hn
    · have hlt : n < 32 := Nat.not_le.mp hn
      have hn0 : n ≠ 0 := by
        rintro rfl
        exact h0 rfl
      rw [amount_small n rm s h0 hlt, Nat.mod_eq_of_lt hlt]
      cases s <;> simp [AmountRight, hn, hn0, h0]

end Amount

theorem decodedAmount_register (p : ArmCore) (ins : Word) (h4 : bit ins 4 = true) :
    decodedAmount p ins = registerAmount p ins % 32 := by
  rw [decodedAmount, h4, if_pos rfl, registerAmount, getBits_toNat, getBits_toNat]
  omega

theorem register_shift_operand (h : Host) (p : ArmCore) (ins : Word) (hp : Passed p ins)
    (h4 : bit ins 4 = true) (h7 : bit ins 7 = false) :
    armDataProcessingShift h p ins = appelOperation p ins (operandePasse h p ins) ∧
      (operandePasse h p ins = .ok (registerOperand (shiftKind ins) (registerAmount p ins)
          (armReadRegister p (rmNum ins))) ↔
        RegisterShiftRight h p ins) := by
  refine ⟨armDataProcessingShift_operande h p ins, ?_⟩
  rw [operandePasse_ok_iff h p ins _ hp (fun _ => h7), RegisterShiftRight, decodedOperand,
    decodedAmount_register p ins h4, amount_iff]

-- MOV R0, R1, LSL R2 with 1 in R1 and 32 in R2.
theorem lsl_by_thirty_two_keeps :
    Passed (armWriteRegister (armWriteRegister (afterReset []) 1 1) 2 32) 0xE1A00211 ∧
      bit (0xE1A00211 : Word) 4 = true ∧ bit (0xE1A00211 : Word) 7 = false ∧
      operandePasse Host.blank (armWriteRegister (armWriteRegister (afterReset []) 1 1) 2 32)
          0xE1A00211 ≠
        .ok (registerOperand (shiftKind 0xE1A00211)
          (registerAmount (armWriteRegister (armWriteRegister (afterReset []) 1 1) 2 32) 0xE1A00211)
          (armReadRegister (armWriteRegister (armWriteRegister (afterReset []) 1 1) 2 32)
            (rmNum 0xE1A00211))) := by
  refine ⟨by decide, by decide, by decide, fun he => ?_⟩
  cases he

theorem lsl_by_zero_passed :
    operandePasse Host.blank (afterReset []) 0xE1A00211 =
      .ok (registerOperand (shiftKind 0xE1A00211) (registerAmount (afterReset []) 0xE1A00211)
        (armReadRegister (afterReset []) (rmNum 0xE1A00211))) :=
  (register_shift_operand Host.blank (afterReset []) 0xE1A00211 (by decide) (by decide)
    (by decide)).2.mpr ⟨by decide, fun hn => absurd hn (by decide)⟩

end Armator
