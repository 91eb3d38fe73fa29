import Armator.Architecture.Decode

namespace Armator

open BitFields

def isComparison (op : Nat) : Prop := 8 ≤ op ∧ op ≤ 11

instance (op : Nat) : Decidable (isComparison op) := inferInstanceAs (Decidable (_ ∧ _))

def aluTemp (op : Nat) (rn operande2 flagC : BitVec 64) : BitVec 64 :=
  match op with
  | 0 | 8 => rn &&& operande2
  | 1 | 9 => rn ^^^ operande2
  | 2 | 10 => rn - operande2
  | 3 => operande2 - rn
  | 4 | 11 => rn + operande2
  | 5 => rn + operande2 + flagC
  | 6 => rn - operande2 + flagC - 1
  | 7 => operande2 - rn + flagC - 1
  | 12 => rn ||| operande2
  | 13 => operande2
  | 14 => rn &&& ~~~operande2
  | _ => ~~~operande2

theorem effectuerOperation_eq (op : Nat) (hop : op < 16) (rn operande2 : Word) (p : ArmCore)
    (ins : Word) :
    effectuerOperation op rn operande2 p ins =
      let temp := aluTemp op (rn.setWidth 64) (operande2.setWidth 64)
        ((getBit p.cpsr bitC).setWidth 64)
      if isComparison op then updateFlags temp p 1 (rdNum ins)
      else updateFlags temp (armWriteRegister p (rdNum ins) (temp.setWidth 32)) (getBit ins 20)
        (rdNum ins) := by
  unfold effectuerOperation
  interval_cases op <;> rfl

theorem opCode_lt (ins : Word) : opCode ins < 16 := by
  rw [opCode, getBits_toNat]
  exact Nat.mod_lt _ (by decide)

theorem rnNum_lt (ins : Word) : (rnNum ins).val < 16 := regNum_getBits_lt ins 19 16 rfl

theorem rdNum_lt (ins : Word) : (rdNum ins).val < 16 := regNum_getBits_lt ins 15 12 rfl

section Operation

variable (op : Nat) (rn operande2 : Word) (p : ArmCore) (ins : Word)

def tempOf (cpsr : Word) : BitVec 64 :=
  aluTemp op (rn.setWidth 64) (operande2.setWidth 64) ((getBit cpsr bitC).setWidth 64)

def operationWrite : ArmCore :=
  if isComparison op then p
  else armWriteRegister p (rdNum ins) ((tempOf op rn operande2 p.cpsr).setWidth 32)

def setsFlags : Prop := isComparison op ∨ bit ins 20 = true

instance : Decidable (setsFlags op ins) := inferInstanceAs (Decidable (_ ∨ _))

theorem operationWrite_cpsr : (operationWrite op rn operande2 p ins).cpsr = p.cpsr := by
  unfold operationWrite
  split
  · rfl
  · exact armWriteRegister_cpsr _ _ _ (ne_of_val_lt (rdNum_lt ins)).1

theorem operationWrite_mode : (operationWrite op rn operande2 p ins).mode = p.mode := by
  unfold operationWrite
  split
  · rfl
  · exact armWriteRegister_mode _ _ _ (ne_of_val_lt (rdNum_lt ins)).1

theorem operationWrite_hasSpsr :
    armCurrentModeHasSpsr (operationWrite op rn operande2 p ins) = armCurrentModeHasSpsr p := by
  have hm := operationWrite_mode op rn operande2 p ins
  unfold ArmCore.mode at hm
  rw [armCurrentModeHasSpsr, armCurrentModeHasSpsr, registersCurrentModeHasSpsr,
    registersCurrentModeHasSpsr, hm]

theorem operationWrite_readSpsr :
    armReadSpsr (operationWrite op rn operande2 p ins) = armReadSpsr p := by
  unfold operationWrite
  split
  · rfl
  · have hne := ne_of_val_lt (rdNum_lt ins)
    exact armReadRegister_write_other p (rdNum ins) _ 17 hne.1 hne.2

variable (hop : op < 16)

include hop

theorem effectuerOperation_updateFlags :
    effectuerOperation op rn operande2 p ins =
      updateFlags (tempOf op rn operande2 p.cpsr) (operationWrite op rn operande2 p ins)
        (if setsFlags op ins then 1 else 0) (rdNum ins) := by
  rw [effectuerOperation_eq op hop, operationWrite]
  change (if isComparison op then updateFlags (tempOf op rn operande2 p.cpsr) p 1 (rdNum ins)
    else updateFlags (tempOf op rn operande2 p.cpsr)
      (armWriteRegister p (rdNum ins) ((tempOf op rn operande2 p.cpsr).setWidth 32))
      (getBit ins 20) (rdNum ins)) = _
  by_cases hc : isComparison op
  · have hu : setsFlags op ins := Or.inl hc
    rw [if_pos hc, if_pos hc, if_pos hu]
  · rw [if_neg hc, if_neg hc]
    congr 1
    cases hb : bit ins 20 with
    | true =>
        have hu : setsFlags op ins := Or.inr hb
        rw [if_pos hu]
        exact (getBit_eq_one ins 20).mpr hb
    | false =>
        have hu : ¬ setsFlags op ins := by
          rintro (hu | hu)
          · exact hc hu
          · rw [hb] at hu
            cases hu
        rw [if_neg hu]
        exact (getBit_eq_zero ins 20).mpr hb

theorem effectuerOperation_plain (hs : ¬ setsFlags op ins) :
    effectuerOperation op rn operande2 p ins = (0, operationWrite op rn operande2 p ins) := by
  rw [effectuerOperation_updateFlags op rn operande2 p ins hop, if_neg hs,
    updateFlags_none _ _ _ _ (by decide)]

theorem effectuerOperation_flags (hs : setsFlags op ins) (hd : rdNum ins ≠ 15) :
    effectuerOperation op rn operande2 p ins =
      (0, armWriteCpsr (operationWrite op rn operande2 p ins)
        (putFlags p.cpsr (tempFlags (tempOf op rn operande2 p.cpsr)))) := by
  rw [effectuerOperation_updateFlags op rn operande2 p ins hop, if_pos hs,
    updateFlags_flags _ _ _ hd, operationWrite_cpsr]

theorem effectuerOperation_spsr (hs : setsFlags op ins) (hd : rdNum ins = 15) :
    effectuerOperation op rn operande2 p ins =
      if armCurrentModeHasSpsr p then
        (0, armWriteCpsr (operationWrite op rn operande2 p ins) (armReadSpsr p))
      else (UNDEFINED_INSTRUCTION, operationWrite op rn operande2 p ins) := by
  rw [effectuerOperation_updateFlags op rn operande2 p ins hop, if_pos hs, hd, updateFlags_spsr,
    operationWrite_hasSpsr, operationWrite_readSpsr]

end Operation

def aluResult (h : Host) (p : ArmCore) (ins : Word) : BitVec 64 :=
  aluTemp (opCode ins) ((armReadRegister p (rnNum ins)).setWidth 64)
    ((operande2 h p ins).setWidth 64) ((getBit p.cpsr bitC).setWidth 64)

def aluWrite (h : Host) (p : ArmCore) (ins : Word) : ArmCore :=
  if isComparison (opCode ins) then p
  else armWriteRegister p (rdNum ins) ((aluResult h p ins).setWidth 32)

def updatesFlags (ins : Word) : Prop := isComparison (opCode ins) ∨ bit ins 20 = true

instance (ins : Word) : Decidable (updatesFlags ins) := inferInstanceAs (Decidable (_ ∨ _))

section DataProcessing

variable (h : Host) (p : ArmCore) (ins : Word)

theorem executeDataProcessing_plain (hs : ¬ updatesFlags ins) :
    executeDataProcessing h p ins = (0, aluWrite h p ins) :=
  effectuerOperation_plain _ _ _ p ins (opCode_lt ins) hs

theorem executeDataProcessing_flags (hs : updatesFlags ins) (hd : rdNum ins ≠ 15) :
    executeDataProcessing h p ins =
      (0, armWriteCpsr (aluWrite h p ins) (putFlags p.cpsr (tempFlags (aluResult h p ins)))) :=
  effectuerOperation_flags _ _ _ p ins (opCode_lt ins) hs hd

theorem executeDataProcessing_spsr (hs : updatesFlags ins) (hd : rdNum ins = 15) :
    executeDataProcessing h p ins =
      if armCurrentModeHasSpsr p then (0, armWriteCpsr (aluWrite h p ins) (armReadSpsr p))
      else (UNDEFINED_INSTRUCTION, aluWrite h p ins) :=
  effectuerOperation_spsr _ _ _ p ins (opCode_lt ins) hs hd

theorem executeDataProcessing_cases :
    executeDataProcessing h p ins = (0, aluWrite h p ins) ∨
      (∃ v, executeDataProcessing h p ins = (0, armWriteCpsr (aluWrite h p ins) v)) ∨
      executeDataProcessing h p ins = (UNDEFINED_INSTRUCTION, aluWrite h p ins) := by
  by_cases hs : updatesFlags ins
  · by_cases hd : rdNum ins = 15
    · rw [executeDataProcessing_spsr h p ins hs hd]
      split
      · exact Or.inr (Or.inl ⟨_, rfl⟩)
      · exact Or.inr (Or.inr rfl)
    · exact Or.inr (Or.inl ⟨_, executeDataProcessing_flags h p ins hs hd⟩)
  · exact Or.inl (executeDataProcessing_plain h p ins hs)

end DataProcessing

end Armator
