import Armator.Architecture.BuiltStep
import Armator.Architecture.ShifterOperand
import Armator.Architecture.TracedStep
import Armator.Simulator.Create

namespace Armator

open BitFields Recorded

namespace Trace

def decalages {α : Type} (x : Calcul α) (p : ArmCore) : List Int := Fait.decalages (record x p)

section Amounts

variable {α γ : Type} (p : ArmCore)

@[simp] theorem decalages_pure (a : α) : decalages (pure a) p = [] := rfl

@[simp] theorem decalages_bind (x : Calcul α) (f : α → Calcul γ) :
    decalages (x >>= f) p = decalages x p ++ decalages (f (result x p).1) (result x p).2 := by
  rw [decalages, record_bind, Fait.decalages, List.filterMap_append]
  rfl

theorem decalages_ite (c : Prop) [Decidable c] (x y : Calcul α) :
    decalages (if c then x else y) p = if c then decalages x p else decalages y p := by
  split <;> rfl

variable {p} {h h' : Host} {s t : Word → Nat → Word} {x y : Calcul α}

theorem decalages_primitive (hx : Primitive False h h' α x y) :
    Records (fun f => ∃ a, f = .appel a) x := by
  intro p f hf
  cases hx with
  | lire g => exact (List.not_mem_nil hf).elim
  | putchar value => exact (List.not_mem_nil hf).elim
  | shl hd => exact hd.elim
  | shr hd => exact hd.elim
  | _ => exact ⟨_, List.mem_singleton.mp hf⟩

theorem decalages_none (hx : Bati False h s t x y) : decalages x p = [] := by
  have hall := hx.records (fun _ _ _ hx => decalages_primitive hx) p
  refine List.filterMap_eq_nil_iff.mpr fun f hf => ?_
  obtain ⟨a, rfl⟩ := hall f hf
  rfl

end Amounts

def InRange (n : Int) : Prop := 0 ≤ n ∧ n < 32

instance (n : Int) : Decidable (InRange n) := inferInstanceAs (Decidable (_ ∧ _))

theorem InRange.toNat_lt {n : Int} (hn : InRange n) : n.toNat < 32 := (Int.toNat_lt hn.1).mpr hn.2

def Fait.Defined : Fait → Prop
  | .appel _ => True
  | .decalage n => InRange n

theorem forall_decalages (fs : List Fait) :
    (∀ n ∈ Fait.decalages fs, InRange n) ↔ ∀ f ∈ fs, f.Defined := by
  induction fs with
  | nil => simp [Fait.decalages]
  | cons f fs ih =>
      cases f with
      | appel a => exact ih.trans (by simp [Fait.Defined])
      | decalage n =>
          rw [List.forall_mem_cons, ← ih]
          exact List.forall_mem_cons

section Agrees

variable {h : Host} {s t : Word → Nat → Word} {α : Type} {x y : Calcul α}

theorem agrees_shl (x : Word) (n : Int) :
    Agrees Fait.Defined (shl h x n) (shl (h.elsewhere s t) x n) := by
  intro p hlog
  have hlt : n.toNat < 32 := InRange.toNat_lt (hlog (.decalage n) (List.mem_singleton_self _))
  have hshl : (h.elsewhere s t).shl x n.toNat = h.shl x n.toNat :=
    (if_pos hlt).trans (if_pos hlt).symm
  rw [shl, shl, hshl]

theorem agrees_shr (x : Word) (n : Int) :
    Agrees Fait.Defined (shr h x n) (shr (h.elsewhere s t) x n) := by
  intro p hlog
  have hlt : n.toNat < 32 := InRange.toNat_lt (hlog (.decalage n) (List.mem_singleton_self _))
  have hshr : (h.elsewhere s t).shr x n.toNat = h.shr x n.toNat :=
    (if_pos hlt).trans (if_pos hlt).symm
  rw [shr, shr, hshr]

theorem agrees_primitive {decale : Prop} (hx : Primitive decale h (h.elsewhere s t) α x y) :
    Agrees Fait.Defined x y := by
  cases hx with
  | shl hd x n => exact agrees_shl x n
  | shr hd x n => exact agrees_shr x n
  | _ => exact .refl _

-- Where no shift is undefined, the compiler makes no difference.
theorem armExecuteInstruction_elsewhere (p : ArmCore)
    (hlog : ∀ n ∈ decalages (armExecuteInstruction h) p, InRange n) :
    Armator.armExecuteInstruction (h.elsewhere s t) p = Armator.armExecuteInstruction h p := by
  have hbuilt : Bati True h s t (armExecuteInstruction h) _ := built_armExecuteInstruction trivial
  have hrun := hbuilt.agrees (fun _ _ _ hx => agrees_primitive hx) p
    ((forall_decalages _).mp hlog)
  rw [← result_armExecuteInstruction, ← result_armExecuteInstruction]
  exact congrArg Logged.value hrun

end Agrees

end Trace

def Shift.amounts (s : Shift) (n : Nat) (r : Word) : List Int :=
  match s with
  | .lsl => [n]
  | .lsr => [n]
  | .asr => if bit r 31 then [31, 32 - n, n] else [31, n]
  | .ror => [n, 32 - n]

structure ShiftCall where
  shift : Shift
  amount : Nat
  operand : Word
  amount_lt : amount < 32

namespace ShiftCall

def amounts (c : ShiftCall) : List Int := c.shift.amounts c.amount c.operand

-- By zero only the shifts that complement no amount are defined.
def Defined (c : ShiftCall) : Prop :=
  c.amount = 0 → match c.shift with
    | .lsl | .lsr => True
    | .asr => bit c.operand 31 = false
    | .ror => False

theorem amounts_inRange_iff (c : ShiftCall) :
    (∀ n ∈ c.amounts, Trace.InRange n) ↔ c.Defined := by
  obtain ⟨s, n, r, hn⟩ := c
  have hamount : Trace.InRange n := ⟨by omega, by omega⟩
  have hcomp : Trace.InRange (32 - n) ↔ ¬ n = 0 := by
    rw [Trace.InRange]
    omega
  cases s with
  | lsl => simp [amounts, Shift.amounts, Defined, hamount]
  | lsr => simp [amounts, Shift.amounts, Defined, hamount]
  | asr =>
      have h31 : Trace.InRange 31 := by decide
      cases hb : bit r 31 with
      | false => simp [amounts, Shift.amounts, Defined, hamount, h31, hb]
      | true => simp [amounts, Shift.amounts, Defined, hamount, hcomp, h31, hb]
  | ror => simp [amounts, Shift.amounts, Defined, hamount, hcomp]

end ShiftCall

theorem decodedAmount_lt (p : ArmCore) (ins : Word) : decodedAmount p ins < 32 := by
  rw [decodedAmount]
  split
  · rw [getBits_toNat]
    exact Nat.mod_lt _ (by decide)
  · exact shiftAmount_lt ins

theorem rotation_lt (ins : Word) : (getBits ins 11 8).toNat * 2 < 32 := by
  rw [getBits_toNat]
  omega

def Kind.shiftCall (p : ArmCore) (ins : Word) : Kind → Option ShiftCall
  | .dataProcessing =>
      if insClass ins = 1 then
        some ⟨.ror, (getBits ins 11 8).toNat * 2, getBits ins 7 0, rotation_lt ins⟩
      else
        some ⟨shiftKind ins, decodedAmount p ins, armReadRegister p (rmNum ins),
          decodedAmount_lt p ins⟩
  | .transfer =>
      if insClass ins = 3 ∧ bit ins 4 = false then
        some ⟨shiftKind ins, shiftAmount ins, armReadRegister p (rmNum ins), shiftAmount_lt ins⟩
      else none
  | _ => none

def shiftCall (p : ArmCore) (ins : Word) : Option ShiftCall := (kindOf ins).shiftCall p ins

namespace Trace

section Log

variable (h : Host) (p : ArmCore) (ins : Word)

theorem decalages_signBit (r : Word) : decalages (signBit h r) p = [31] := rfl

theorem decalages_effectuerDecalage (s : Shift) (n : Nat) (r : Word) :
    decalages (effectuerDecalage h s.code n r) p = s.amounts n r := by
  cases s with
  | lsl => rfl
  | lsr => rfl
  | asr =>
      change decalages (signBit h r >>= fun bit31 => if bit31 = 1 then
        shl h (~~~0) (32 - n) >>= fun masque => shr h r n >>= fun x => pure (x ||| masque)
        else shr h r n) p = _
      rw [decalages_bind, result_signBit, decalages_ite]
      simp only [BitVec.ofNat_eq_ofNat, getBit_flag_eq_one, Shift.amounts, decalages_signBit]
      cases bit r 31 with
      | false => rfl
      | true => rfl
  | ror => rfl

@[simp] theorem decalages_condNotRespect : decalages (condNotRespect ins) p = [] := rfl

@[simp] theorem decalages_armReadRegister (reg : RegNum) :
    decalages (armReadRegister reg) p = [] := rfl

@[simp] theorem decalages_effectuerOperation (opeCode : Nat) (rn operande2 : Word) :
    decalages (effectuerOperation opeCode rn operande2 ins) p = [] :=
  decalages_none (h := Host.blank) (s := fun r _ => r) (t := fun r _ => r)
    (built_effectuerOperation ins _ _ _)

theorem decalages_armDataProcessingShift (hc : Armator.condNotRespect p ins = 0)
    (h47 : ¬ (bit ins 4 = true ∧ bit ins 7 = true)) :
    decalages (armDataProcessingShift h ins) p =
      (shiftKind ins).amounts (decodedAmount p ins) (Armator.armReadRegister p (rmNum ins)) := by
  rw [armDataProcessingShift, decodedAmount]
  simp only [decalages_bind, decalages_condNotRespect, result_condNotRespect, decalages_ite, hc,
    decalages_armReadRegister, result_armReadRegister, determinerDecalage_code,
    decalages_effectuerDecalage, result_effectuerDecalage, decalages_effectuerOperation,
    decalages_pure, BitVec.ofNat_eq_ofNat, ne_eq, getBit_flag_eq_zero, not_true_eq_false, if_false,
    List.append_nil, List.nil_append]
  cases h4 : bit ins 4 with
  | false => rfl
  | true =>
      cases h7 : bit ins 7 with
      | false => rfl
      | true => exact absurd ⟨h4, h7⟩ h47

theorem decalages_armDataProcessingImmediateMsr (hc : Armator.condNotRespect p ins = 0) :
    decalages (armDataProcessingImmediateMsr h ins) p =
      Shift.ror.amounts ((getBits ins 11 8).toNat * 2) (getBits ins 7 0) := by
  have hror := decalages_effectuerDecalage h p .ror ((getBits ins 11 8).toNat * 2) (getBits ins 7 0)
  rw [armDataProcessingImmediateMsr, ← hror]
  simp only [decalages_bind, decalages_condNotRespect, result_condNotRespect, hc,
    decalages_armReadRegister, decalages_effectuerOperation, ne_eq, not_true_eq_false, if_false,
    List.append_nil, List.nil_append]
  rfl

theorem class_three_iff : insClass ins = 3 ↔ getBits ins 27 26 = 1 ∧ bit ins 25 = true := by
  rw [insClass, ← BitVec.toNat_inj, ← BitVec.toNat_inj, getBits_toNat, getBits_toNat, bit_eq_decide,
    decide_eq_true_eq]
  change _ = 3 ↔ _ = 1 ∧ _
  omega

theorem decalages_accederWordByte (rn rd : RegNum) (b u p_bit w l adresse value offset : Word) :
    decalages (accederWordByte h rn rd b u p_bit w l adresse value offset) p = [] :=
  decalages_none (s := h.shlOut) (t := h.shrOut) (built_accederWordByte _ _ _ _ _ _ _ _ _ _)

theorem decalages_armLoadStoreHalf (rn rd : RegNum) (u p_bit w l adresse : Word) :
    decalages (armLoadStoreHalf h ins rn rd u p_bit w l adresse) p = [] :=
  decalages_none (s := h.shlOut) (t := h.shrOut) (built_armLoadStoreHalf ins _ _ _ _ _ _ _)

theorem decalages_armLoadStore (hc : Armator.condNotRespect p ins = 0) :
    decalages (armLoadStore h ins) p =
      if insClass ins = 3 ∧ bit ins 4 = false then
        (shiftKind ins).amounts (shiftAmount ins) (Armator.armReadRegister p (rmNum ins))
      else [] := by
  rw [armLoadStore]
  simp only [decalages_bind, decalages_condNotRespect, result_condNotRespect, decalages_ite, hc,
    decalages_armReadRegister, result_armReadRegister, decalages_armLoadStoreHalf, ne_eq,
    not_true_eq_false, if_false, List.nil_append, class_three_iff]
  by_cases hw : getBits ins 27 26 = 1
  · simp only [hw, true_and, if_true, armLoadStoreWordByte, decalages_ite, decalages_bind,
      decalages_pure, decalages_armReadRegister, result_armReadRegister, decalages_accederWordByte,
      getBit_ne_zero, ← shiftKind_code, decalages_effectuerDecalage, List.append_nil,
      List.nil_append]
    cases bit ins 25 <;> cases bit ins 4 <;> rfl
  · simp only [hw, false_and, if_false]

-- The rotation of `fonction_MSR` is not reached: its class has bit 25 clear.
theorem decalages_armMiscellaneous (h25 : bit ins 25 = false) :
    decalages (armMiscellaneous h ins) p = [] := by
  have h0 : ¬ getBit ins 25 ≠ 0 := fun hn => hn ((getBit_eq_zero ins 25).mpr h25)
  have ho : Bati False h h.shlOut h.shrOut (msrOperand h ins)
      (msrOperand (h.elsewhere h.shlOut h.shrOut) ins) := by
    rw [msrOperand, msrOperand, if_neg h0, if_neg h0]
    exact .prim (.armReadRegister _)
  exact decalages_none (built_armMiscellaneous ins ho)

theorem decalages_armLoadStoreMultiple : decalages (armLoadStoreMultiple h ins) p = [] :=
  decalages_none (s := h.shlOut) (t := h.shrOut) (built_armLoadStoreMultiple ins)

theorem decalages_armBranch : decalages (armBranch ins) p = [] :=
  decalages_none (h := Host.blank) (s := fun r _ => r) (t := fun r _ => r) (built_armBranch ins)

theorem decalages_aiguiller (hc : Armator.condNotRespect p ins = 0) :
    decalages (aiguiller h ins) p = (shiftCall p ins).elim [] ShiftCall.amounts := by
  have hlt := insClass_lt ins
  have hload : decalages (armLoadStore h ins) p =
      (Kind.transfer.shiftCall p ins).elim [] ShiftCall.amounts := by
    rw [decalages_armLoadStore h p ins hc, Kind.shiftCall]
    split <;> rfl
  simp only [aiguiller, BitVec.ofNat_eq_ofNat, functionToUse_eq, shiftCall, kindOf, getBit_eq_one,
    getBit_eq_zero]
  interval_cases hn : (insClass ins).toNat <;> simp only
  · have h25 := insClass_bits ins 0 (by decide)
    rw [BitVec.eq_of_toNat_eq (y := 0) hn] at h25
    have h1 : insClass ins ≠ 1 := by
      intro h1
      rw [h1] at hn
      cases hn
    by_cases hm : bit ins 24 = true ∧ bit ins 23 = false ∧ bit ins 20 = false
    · rw [if_pos hm, if_pos hm]
      exact decalages_armMiscellaneous h p ins h25.symm
    · rw [if_neg hm, if_neg hm, if_neg hm]
      by_cases h47 : bit ins 4 = true ∧ bit ins 7 = true
      · rw [if_pos h47, if_pos h47]
        exact hload
      · rw [if_neg h47, if_neg h47, if_neg h47, Kind.shiftCall, if_neg h1]
        exact decalages_armDataProcessingShift h p ins hc h47
  · have h1 : insClass ins = 1 := BitVec.eq_of_toNat_eq hn
    by_cases hm : bit ins 24 = true ∧ bit ins 23 = false ∧ bit ins 21 = false ∧ bit ins 20 = false
    · rw [if_pos hm, if_pos hm, if_neg (fun hn => hn ((getBit_eq_zero ins 21).mpr hm.2.2.1))]
      rfl
    · rw [if_neg hm, if_neg hm, if_neg hm, Kind.shiftCall, if_pos h1]
      exact decalages_armDataProcessingImmediateMsr h p ins hc
  · exact hload
  · split
    · rfl
    · exact hload
  · exact decalages_armLoadStoreMultiple h p ins
  · exact decalages_armBranch p ins
  · rfl
  · cases bit ins 24 <;> rfl

theorem decalages_aiguiller_refused (hc : Armator.condNotRespect p ins ≠ 0) :
    decalages (aiguiller h ins) p = [] := by
  have hmisc : decalages (armMiscellaneous h ins) p = [] := by
    simp only [armMiscellaneous, decalages_bind, decalages_condNotRespect, result_condNotRespect,
      if_neg hc, decalages_pure, List.append_nil]
  have hload : decalages (armLoadStore h ins) p = [] := by
    simp only [armLoadStore, decalages_bind, decalages_condNotRespect, result_condNotRespect,
      if_pos hc, decalages_pure, List.append_nil]
  have hshift : decalages (armDataProcessingShift h ins) p = [] := by
    simp only [armDataProcessingShift, decalages_bind, decalages_condNotRespect,
      result_condNotRespect, if_pos hc, decalages_pure, List.append_nil]
  have himmediate : decalages (armDataProcessingImmediateMsr h ins) p = [] := by
    simp only [armDataProcessingImmediateMsr, decalages_bind, decalages_condNotRespect,
      result_condNotRespect, if_pos hc, decalages_pure, List.append_nil]
  have hlt := insClass_lt ins
  simp only [aiguiller, BitVec.ofNat_eq_ofNat, functionToUse_eq]
  generalize (insClass ins).toNat = n at hlt
  interval_cases n <;>
    simp only [decalages_ite, decalages_pure, hmisc, hload, hshift, himmediate, ite_self,
      decalages_armLoadStoreMultiple, decalages_armBranch]

theorem decalages_armExecuteInstruction :
    decalages (armExecuteInstruction h) p =
      decalages (aiguiller h (p.fetchedWord h)) p.fetched := rfl

end Log

end Trace

end Armator
