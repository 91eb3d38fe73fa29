import Armator.Architecture.Dispatch
import Armator.Architecture.StatusWrite

namespace Armator

open BitFields

inductive Kind where
  | miscellaneous
  | dataProcessing
  | transfer
  | blockTransfer
  | branch
  | interrupt
  | undefined
deriving DecidableEq, Repr

def kindOf (ins : Word) : Kind :=
  match (insClass ins).toNat with
  | 0 =>
      if bit ins 24 = true ∧ bit ins 23 = false ∧ bit ins 20 = false then .miscellaneous
      else if bit ins 4 = true ∧ bit ins 7 = true then .transfer
      else .dataProcessing
  | 1 =>
      if bit ins 24 = true ∧ bit ins 23 = false ∧ bit ins 21 = false ∧ bit ins 20 = false then
        .undefined
      else .dataProcessing
  | 2 => .transfer
  | 3 => if getBits ins 24 20 = 0x1F ∧ getBits ins 7 4 = 0xF then .undefined else .transfer
  | 4 => .blockTransfer
  | 5 => .branch
  | 6 => .undefined
  | _ => if bit ins 24 = true then .interrupt else .undefined

def Kind.refusal : Kind → Int
  | .miscellaneous => UNDEFINED_INSTRUCTION
  | .dataProcessing => 1
  | .transfer => -1
  | .blockTransfer => -1
  | .branch => -1
  | .interrupt => SOFTWARE_INTERRUPT
  | .undefined => UNDEFINED_INSTRUCTION

def opCode (ins : Word) : Nat := (getBits ins 24 21).toNat

def rnNum (ins : Word) : RegNum := regNum (getBits ins 19 16)

def rdNum (ins : Word) : RegNum := regNum (getBits ins 15 12)

def operande2 (h : Host) (p : ArmCore) (ins : Word) : Word :=
  if insClass ins = 1 then
    effectuerDecalage h ROR ((getBits ins 11 8).toNat * 2) (getBits ins 7 0)
  else
    effectuerDecalage h (determinerDecalage (getBit ins 6) (getBit ins 5))
      (if bit ins 4 then (getBits (armReadRegister p (regNum (getBits ins 11 8))) 4 0).toNat
        else (getBits ins 11 7).toNat)
      (armReadRegister p (regNum (getBits ins 3 0)))

def executeDataProcessing (h : Host) (p : ArmCore) (ins : Word) : Int × ArmCore :=
  effectuerOperation (opCode ins) (armReadRegister p (rnNum ins)) (operande2 h p ins) p ins

def Kind.execute (h : Host) (p : ArmCore) (ins : Word) : Kind → Int × ArmCore
  | .miscellaneous => if bit ins 21 then fonctionMSR h p ins else (UNDEFINED_INSTRUCTION, p)
  | .dataProcessing => executeDataProcessing h p ins
  | .transfer => armLoadStore h p ins
  | .blockTransfer => armLoadStoreMultiple h p ins
  | .branch => armBranch p ins
  | .interrupt => (SOFTWARE_INTERRUPT, p)
  | .undefined => (UNDEFINED_INSTRUCTION, p)

theorem insClass_bits (ins : Word) (i : Nat) (hi : i < 3) :
    bit (insClass ins) i = bit ins (25 + i) := by
  rw [insClass, bit_getBits]
  simp [hi]

def Kind.classes : Kind → List Nat
  | .miscellaneous => [0]
  | .dataProcessing => [0, 1]
  | .transfer => [0, 2, 3]
  | .blockTransfer => [4]
  | .branch => [5]
  | .interrupt => [7]
  | .undefined => [1, 3, 6, 7]

theorem kindOf_class (ins : Word) : (insClass ins).toNat ∈ (kindOf ins).classes := by
  have hlt := insClass_lt ins
  rw [kindOf]
  interval_cases (insClass ins).toNat <;> simp only <;> (try split_ifs) <;> decide

section Accepted

variable (h : Host) (p : ArmCore) (ins : Word)

theorem armMiscellaneous_accepted (hc : condNotRespect p ins = 0) (hk : (insClass ins).toNat = 0)
    (hm : bit ins 24 = true ∧ bit ins 23 = false ∧ bit ins 20 = false) :
    armMiscellaneous h p ins =
      if bit ins 21 then fonctionMSR h p ins else (UNDEFINED_INSTRUCTION, p) := by
  have h0 : insClass ins = 0 := BitVec.eq_of_toNat_eq hk
  have h26 := insClass_bits ins 1 (by decide)
  have h27 := insClass_bits ins 2 (by decide)
  rw [h0] at h26 h27
  cases h21 : bit ins 21 with
  | true =>
      rw [armMiscellaneous_msr h p ins hc h27.symm h26.symm hm.1 hm.2.1 h21 hm.2.2]
      rfl
  | false =>
      have e21 := (getBit_eq_zero ins 21).mpr h21
      have hbx : getBits ins 27 20 ≠ 18 := by
        intro hb
        have hb1 := bit_of_getBits_eq hb 1 (by decide)
        rw [h21] at hb1
        exact absurd hb1 (by decide)
      rw [armMiscellaneous, if_pos hc, if_neg, if_neg hbx]
      · rfl
      · rw [e21]
        simp

theorem armDataProcessingShift_eq :
    armDataProcessingShift h p ins =
      if condNotRespect p ins ≠ 0 then (1, p)
      else if bit ins 4 = true ∧ bit ins 7 = true then (UNDEFINED_INSTRUCTION, p)
      else effectuerOperation (opCode ins) (armReadRegister p (rnNum ins))
        (effectuerDecalage h (determinerDecalage (getBit ins 6) (getBit ins 5))
          (if bit ins 4 then (getBits (armReadRegister p (regNum (getBits ins 11 8))) 4 0).toNat
            else (getBits ins 11 7).toNat)
          (armReadRegister p (regNum (getBits ins 3 0)))) p ins := by
  rw [armDataProcessingShift]
  simp only [BitVec.ofNat_eq_ofNat, ne_eq, getBit_flag_eq_zero]
  split
  · rfl
  · cases h4 : bit ins 4 with
    | false => rfl
    | true => cases h7 : bit ins 7 <;> rfl

theorem armDataProcessingShift_accepted (hc : condNotRespect p ins = 0)
    (hk : insClass ins ≠ 1) (hm : ¬ (bit ins 4 = true ∧ bit ins 7 = true)) :
    armDataProcessingShift h p ins = executeDataProcessing h p ins := by
  have hn : ¬ condNotRespect p ins ≠ 0 := fun hn => hn hc
  rw [armDataProcessingShift_eq, if_neg hn, if_neg hm, executeDataProcessing, operande2, if_neg hk]

theorem armDataProcessingImmediateMsr_accepted (hc : condNotRespect p ins = 0)
    (hk : insClass ins = 1) :
    armDataProcessingImmediateMsr h p ins = executeDataProcessing h p ins := by
  have hn : ¬ condNotRespect p ins ≠ 0 := fun hn => hn hc
  rw [armDataProcessingImmediateMsr, if_neg hn, executeDataProcessing, operande2, if_pos hk]
  rfl

theorem armCoprocessorOthersSwi_eq :
    armCoprocessorOthersSwi p ins =
      if bit ins 24 = true then (SOFTWARE_INTERRUPT, p) else (UNDEFINED_INSTRUCTION, p) := by
  rw [armCoprocessorOthersSwi]
  simp only [BitVec.ofNat_eq_ofNat, ne_eq, getBit_eq_zero, Bool.not_eq_false]

theorem aiguiller_accepted (hc : condNotRespect p ins = 0) :
    aiguiller h p ins = (kindOf ins).execute h p ins := by
  have hlt := insClass_lt ins
  rw [aiguiller_eq, kindOf]
  interval_cases hn : (insClass ins).toNat <;> simp only
  · have h1 : insClass ins ≠ 1 := by
      intro h1
      rw [h1] at hn
      cases hn
    split
    · rename_i hm
      exact armMiscellaneous_accepted h p ins hc hn hm
    · split
      · rfl
      · rename_i hm
        exact armDataProcessingShift_accepted h p ins hc h1 hm
  · split
    · rfl
    · exact armDataProcessingImmediateMsr_accepted h p ins hc (BitVec.eq_of_toNat_eq hn)
  · rfl
  · split <;> rfl
  · rfl
  · rfl
  · rfl
  · rw [armCoprocessorOthersSwi_eq]
    split <;> rfl

theorem aiguiller_branch (hk : kindOf ins = .branch) : aiguiller h p ins = armBranch p ins := by
  have hc := kindOf_class ins
  rw [hk, Kind.classes, List.mem_singleton] at hc
  simp only [aiguiller_eq, hc]

theorem aiguiller_refused (hc : condNotRespect p ins ≠ 0)
    (hb : kindOf ins = .branch → condNotRespect p ins ≠ 2) :
    aiguiller h p ins = ((kindOf ins).refusal, p) := by
  have hlt := insClass_lt ins
  revert hb
  rw [aiguiller_eq, kindOf]
  interval_cases hn : (insClass ins).toNat <;> simp only
  · intro _
    split
    · exact if_neg hc
    · split
      · exact if_pos hc
      · exact if_pos hc
  · intro _
    split
    · rfl
    · exact if_pos hc
  · intro _
    exact if_pos hc
  · intro _
    split
    · rfl
    · exact if_pos hc
  · intro _
    exact if_pos hc
  · intro hb
    exact if_neg (fun hor => hor.elim hc (hb True.intro))
  · intro _
    rfl
  · intro _
    rw [armCoprocessorOthersSwi_eq]
    split <;> rfl

end Accepted

section Step

variable (h : Host) (p : ArmCore)

theorem armExecuteInstruction_accepted
    (hc : condNotRespect p.fetched (p.fetchedWord h) = 0) :
    armExecuteInstruction h p =
      (kindOf (p.fetchedWord h)).execute h p.fetched (p.fetchedWord h) := by
  rw [armExecuteInstruction_eq, aiguiller_accepted _ _ _ hc]

theorem armStep_refused (hc : condNotRespect p.fetched (p.fetchedWord h) ≠ 0)
    (hb : kindOf (p.fetchedWord h) = .branch → condNotRespect p.fetched (p.fetchedWord h) ≠ 2)
    (hk : kindOf (p.fetchedWord h) ≠ .interrupt) : (armStep h p).1 ≠ 0 := by
  have he : (armExecuteInstruction h p).1 = (kindOf (p.fetchedWord h)).refusal := by
    rw [armExecuteInstruction_eq, aiguiller_refused _ _ _ hc hb]
  revert hk
  refine fun hk => armStep_code_ne_zero h p _ he ?_ ?_
  · generalize kindOf (p.fetchedWord h) = k
    cases k <;> decide
  · revert hk
    generalize kindOf (p.fetchedWord h) = k
    cases k <;> decide

theorem armStep_eq_zero_iff (q : ArmCore)
    (hcode : (armExecuteInstruction h p).1 = 0 ∨ (armExecuteInstruction h p).1 = DATA_ABORT ∨
      (armExecuteInstruction h p).1 = UNDEFINED_INSTRUCTION) :
    armStep h p = (0, q) ↔ armExecuteInstruction h p = (0, q) := by
  rcases hcode with hz | habort | hundefined
  · rw [armStep_of_zero h p hz]
  · have hn := armStep_code_ne_zero h p _ habort (by decide) (by decide)
    refine iff_of_false (fun he => hn (by rw [he])) (fun he => ?_)
    rw [he] at habort
    cases habort
  · have hn := armStep_code_ne_zero h p _ hundefined (by decide) (by decide)
    refine iff_of_false (fun he => hn (by rw [he])) (fun he => ?_)
    rw [he] at hundefined
    cases hundefined

end Step

end Armator
