import Armator.Architecture.Decode
import Armator.Simulator.TracedStep

namespace Armator

open Recorded

namespace Trace

section Result

variable (h : Host) (p : ArmCore) (ins : Word)

@[simp] theorem result_lire {α : Type} (f : ArmCore → α) : result (lire f) p = (f p, p) := (rfl)

@[simp] theorem result_modify (f : ArmCore → ArmCore) :
    result (modify f : Calcul Unit) p = ((), f p) := (rfl)

@[simp] theorem result_shl (x : Word) (n : Int) :
    result (shl h x n) p = (h.shl x n.toNat, p) := (rfl)

@[simp] theorem result_shr (x : Word) (n : Int) :
    result (shr h x n) p = (h.shr x n.toNat, p) := (rfl)

theorem toNat_complement (val : Nat) : ((32 : Int) - val).toNat = 32 - val := by omega

@[simp] theorem result_signBit (r : Word) :
    result (signBit h r) p = ((getBit r 31).setWidth 8, p) := (rfl)

@[simp] theorem result_effectuerDecalage (decalage val : Nat) (r : Word) :
    result (effectuerDecalage h decalage val r) p =
      (Armator.effectuerDecalage h decalage val r, p) := by
  rw [Trace.effectuerDecalage, Armator.effectuerDecalage]
  simp only [↓result_bind, ↓result_ite, result_pure, result_shl, result_shr, result_signBit,
    toNat_complement, Int.toNat_natCast]
  split_ifs <;> rfl

@[simp] theorem result_armReadRegister (reg : RegNum) :
    result (armReadRegister reg) p = (Armator.armReadRegister p reg, p) := (rfl)

@[simp] theorem result_armReadCpsr : result armReadCpsr p = (Armator.armReadCpsr p, p) := (rfl)

@[simp] theorem result_armReadSpsr : result armReadSpsr p = (Armator.armReadSpsr p, p) := (rfl)

@[simp] theorem result_armWriteRegister (reg : RegNum) (value : Word) :
    result (armWriteRegister reg value) p = ((), Armator.armWriteRegister p reg value) := (rfl)

@[simp] theorem result_armWriteCpsr (value : Word) :
    result (armWriteCpsr value) p = ((), Armator.armWriteCpsr p value) := (rfl)

@[simp] theorem result_armWriteSpsr (value : Word) :
    result (armWriteSpsr value) p = ((), Armator.armWriteSpsr p value) := (rfl)

@[simp] theorem result_armReadByte (address : Word) (value : Byte) :
    result (armReadByte address value) p = (Armator.armReadByte p address value, p) := (rfl)

@[simp] theorem result_armReadWord (address value : Word) :
    result (armReadWord h address value) p = (Armator.armReadWord h p address value, p) := (rfl)

@[simp] theorem result_armFetch (value : Word) :
    result (armFetch h value) p =
      (((Armator.armFetch h p value).1, (Armator.armFetch h p value).2.1),
        (Armator.armFetch h p value).2.2) := (rfl)

@[simp] theorem result_armWriteByte (address : Word) (value : Byte) :
    result (armWriteByte address value) p = Armator.armWriteByte p address value := (rfl)

@[simp] theorem result_armWriteWord (address value : Word) :
    result (armWriteWord h address value) p = Armator.armWriteWord h p address value := (rfl)

@[simp] theorem result_condNotRespect :
    result (condNotRespect ins) p = (Armator.condNotRespect p ins, p) := (rfl)

@[simp] theorem result_poserFlag (b : Bool) (k : Nat) :
    result (poserFlag b k) p =
      ((), Armator.armWriteCpsr p
        (if b then Armator.armReadCpsr p ||| ~~~masqueFlag k
          else Armator.armReadCpsr p &&& masqueFlag k)) := (rfl)

@[simp] theorem result_updateFlags (temp : BitVec 64) (bit_S : Word) (rd_num : RegNum) :
    result (updateFlags temp bit_S rd_num) p = Armator.updateFlags temp p bit_S rd_num := by
  simp [Trace.updateFlags, Armator.updateFlags, ↓result_bind, ↓result_ite,
    apply_ite (Armator.armWriteCpsr _)]

@[simp] theorem result_effectuerOperation (opeCode : Nat) (rn operande2 : Word) :
    result (effectuerOperation opeCode rn operande2 ins) p =
      Armator.effectuerOperation opeCode rn operande2 p ins := by
  unfold Trace.effectuerOperation Armator.effectuerOperation
  rw [result_bind, result_armReadCpsr]
  dsimp only
  split <;> simp only [result_bind, result_pure, result_armWriteRegister, result_updateFlags]

@[simp] theorem result_armDataProcessingShift :
    result (armDataProcessingShift h ins) p = Armator.armDataProcessingShift h p ins := by
  simp [Trace.armDataProcessingShift, Armator.armDataProcessingShift, ↓result_bind, ↓result_ite]

@[simp] theorem result_armDataProcessingImmediateMsr :
    result (armDataProcessingImmediateMsr h ins) p =
      Armator.armDataProcessingImmediateMsr h p ins := by
  simp [Trace.armDataProcessingImmediateMsr, Armator.armDataProcessingImmediateMsr, ↓result_bind,
    ↓result_ite]

theorem result_brancher
    (hc : Armator.condNotRespect p ins = 0 ∨ Armator.condNotRespect p ins = 2) :
    result (brancher ins) p = Armator.armBranch p ins := by
  simp only [Trace.brancher, Armator.armBranch, ↓result_bind, ↓result_ite, result_pure,
    result_armReadRegister, result_armWriteRegister, if_pos hc]
  split_ifs <;> rfl

@[simp] theorem result_armBranch : result (armBranch ins) p = Armator.armBranch p ins := by
  simp only [Trace.armBranch, ↓result_bind, ↓result_ite, result_pure, result_condNotRespect]
  split
  · exact result_brancher p ins (Or.inl ‹_›)
  · split
    · exact result_brancher p ins (Or.inr ‹_›)
    · rename_i h0 h2
      rw [Armator.armBranch, if_neg (not_or.mpr ⟨h0, h2⟩)]

@[simp] theorem result_fonctionBX : result (fonctionBX ins) p = Armator.fonctionBX p ins := by
  simp only [Trace.fonctionBX, Armator.fonctionBX, ↓result_bind, ↓result_ite, result_pure,
    result_armReadRegister, result_armWriteRegister]
  split_ifs <;> rfl

@[simp] theorem result_msrOperand : result (msrOperand h ins) p = (Armator.msrOperand h p ins, p) := by
  simp only [Trace.msrOperand, Armator.msrOperand, ↓result_bind, ↓result_ite, result_pure,
    result_shl, result_shr, result_armReadRegister, toNat_complement, Int.toNat_natCast]
  split <;> rfl

@[simp] theorem result_fonctionMSR : result (fonctionMSR h ins) p = Armator.fonctionMSR h p ins := by
  simp [Trace.fonctionMSR, Armator.fonctionMSR, ↓result_bind, ↓result_ite]

@[simp] theorem result_armMiscellaneous :
    result (armMiscellaneous h ins) p = Armator.armMiscellaneous h p ins := by
  simp [Trace.armMiscellaneous, Armator.armMiscellaneous, ↓result_bind, ↓result_ite]

@[simp] theorem result_preIndexer (rn : RegNum) (adresse offset u w p_bit : Word) :
    result (preIndexer rn adresse offset u w p_bit) p =
      Armator.preIndexer p rn adresse offset u w p_bit := by
  simp only [Trace.preIndexer, Armator.preIndexer, ↓result_bind, ↓result_ite, result_pure,
    result_armWriteRegister]
  split_ifs <;> rfl

@[simp] theorem result_terminer (acces : Int × ArmCore) (rn : RegNum)
    (adresse offset u w p_bit : Word) :
    result (terminer acces.1 rn adresse offset u w p_bit) acces.2 =
      Armator.terminer acces rn adresse offset u w p_bit := by
  simp [Trace.terminer, Armator.terminer, Trace.postIndexer, Armator.postIndexer, ↓result_bind,
    ↓result_ite]

@[simp] theorem result_chargerWordByte (rn rd : RegNum) (b adresse value : Word) :
    result (chargerWordByte h rn rd b adresse value) p =
      Armator.chargerWordByte h p rn rd b adresse value := by
  simp only [Trace.chargerWordByte, Armator.chargerWordByte, ↓result_bind, ↓result_ite, result_pure,
    result_armReadByte, result_armReadWord, result_armWriteRegister]
  split_ifs <;> rfl

@[simp] theorem result_rangerWordByte (rn rd : RegNum) (b adresse value : Word) :
    result (rangerWordByte h rn rd b adresse value) p =
      Armator.rangerWordByte h p rn rd b adresse value := by
  simp only [Trace.rangerWordByte, Armator.rangerWordByte, ↓result_bind, ↓result_ite,
    result_armReadRegister, result_armWriteByte, result_armWriteWord]
  split_ifs <;> rfl

@[simp] theorem result_accederWordByte (rn rd : RegNum) (b u p_bit w l adresse value offset : Word) :
    result (accederWordByte h rn rd b u p_bit w l adresse value offset) p =
      let pre := Armator.preIndexer p rn adresse offset u w p_bit
      Armator.terminer
        (if l ≠ 0 then Armator.chargerWordByte h pre.2 rn rd b pre.1 value
          else Armator.rangerWordByte h pre.2 rn rd b pre.1 value) rn pre.1 offset u w p_bit := by
  simp only [Trace.accederWordByte, ↓result_bind, ↓result_ite, result_preIndexer,
    result_chargerWordByte, result_rangerWordByte]
  split <;> exact result_terminer _ _ _ _ _ _ _

@[simp] theorem result_armLoadStoreWordByte (rn rd : RegNum)
    (u p_bit w l adresse value : Word) :
    result (armLoadStoreWordByte h ins rn rd u p_bit w l adresse value) p =
      Armator.armLoadStoreWordByte h p ins rn rd u p_bit w l adresse value := by
  simp only [Trace.armLoadStoreWordByte, Armator.armLoadStoreWordByte, offsetWordByte, ↓result_bind,
    ↓result_ite, result_pure, result_armReadRegister, result_effectuerDecalage,
    result_accederWordByte]
  by_cases h25 : getBit ins 25 ≠ 0
  · by_cases h4 : getBit ins 4 ≠ 0
    · rw [if_pos h25, if_pos h4, if_pos ⟨h25, h4⟩]
    · have hn : ¬ (getBit ins 25 ≠ 0 ∧ getBit ins 4 ≠ 0) := fun hc => h4 hc.2
      rw [if_pos h25, if_neg h4, if_neg hn, if_pos h25]
  · have hn : ¬ (getBit ins 25 ≠ 0 ∧ getBit ins 4 ≠ 0) := fun hc => h25 hc.1
    rw [if_neg h25, if_neg hn, if_neg h25]

@[simp] theorem result_armLoadStoreHalf (rn rd : RegNum) (u p_bit w l adresse : Word) :
    result (armLoadStoreHalf h ins rn rd u p_bit w l adresse) p =
      Armator.armLoadStoreHalf h p ins rn rd u p_bit w l adresse := by
  have ho : result (offsetHalf ins) p = (Armator.offsetHalf p ins, p) := by
    simp only [Trace.offsetHalf, Armator.offsetHalf, ↓result_ite, result_pure,
      result_armReadRegister]
    split <;> rfl
  simp only [Trace.armLoadStoreHalf, Armator.armLoadStoreHalf, ↓result_bind, ↓result_ite,
    result_pure, ho, result_preIndexer]
  generalize (l.setWidth 8 <<< 2 ||| (getBits ins 6 5).setWidth 8 : Byte).toNat = acces_mem
  split
  · rfl
  · split
    · rcases acces_mem with _ | _ | _ | _ | _ | _ | _
      · rfl
      · exact result_terminer (Armator.rangerHalf h _ rd _) _ _ _ _ _ _
      · rfl
      · rfl
      · rfl
      · exact result_terminer (Armator.chargerHalf h _ rd _) _ _ _ _ _ _
      · rfl
    · rfl

@[simp] theorem result_armLoadStore :
    result (armLoadStore h ins) p = Armator.armLoadStore h p ins := by
  simp [Trace.armLoadStore, Armator.armLoadStore, ↓result_bind, ↓result_ite]

@[simp] theorem result_transfererMot (l : Word) (reg_num : RegNum) (adresse value : Word) :
    result (transfererMot h l reg_num adresse value) p =
      (((Armator.transfererMot h p l reg_num adresse value).1,
          (Armator.transfererMot h p l reg_num adresse value).2.1),
        (Armator.transfererMot h p l reg_num adresse value).2.2) := by
  simp only [Trace.transfererMot, Armator.transfererMot, ↓result_bind, ↓result_ite, result_pure,
    result_armReadRegister, result_armReadWord, result_armWriteRegister, result_armWriteWord]
  split <;> rfl

@[simp] theorem result_transferer (l u : Word) (list_reg : Half) (regs : List RegNum)
    (value adresse : Word) :
    result (transferer h l u list_reg regs value adresse) p =
      (((Armator.transferer h l u list_reg regs p value adresse).1,
          (Armator.transferer h l u list_reg regs p value adresse).2.2),
        (Armator.transferer h l u list_reg regs p value adresse).2.1) := by
  induction regs generalizing p value adresse with
  | nil => rfl
  | cons r rs ih =>
      simp only [Trace.transferer, Armator.transferer, ↓result_bind, ↓result_ite, result_pure,
        result_transfererMot, ih]
      split_ifs <;> rfl

@[simp] theorem result_armLoadStoreMultiple :
    result (armLoadStoreMultiple h ins) p = Armator.armLoadStoreMultiple h p ins := by
  simp [Trace.armLoadStoreMultiple, Armator.armLoadStoreMultiple, ↓result_bind, ↓result_ite]

@[simp] theorem result_aiguiller : result (aiguiller h ins) p = Armator.aiguiller h p ins := by
  have hlt := insClass_lt ins
  simp only [Trace.aiguiller, Armator.aiguiller, BitVec.ofNat_eq_ofNat, functionToUse_eq]
  generalize (insClass ins).toNat = n at hlt
  interval_cases n
  · simp only [↓result_ite, result_armMiscellaneous, result_armLoadStore,
      result_armDataProcessingShift]
  · simp only [↓result_ite, result_pure, result_armMiscellaneous,
      result_armDataProcessingImmediateMsr]
  · exact result_armLoadStore h p ins
  · simp only [↓result_ite, result_pure, result_armLoadStore]
  · exact result_armLoadStoreMultiple h p ins
  · exact result_armBranch p ins
  · rfl
  · have hs : (if getBit ins 24 ≠ 0 then SOFTWARE_INTERRUPT else UNDEFINED_INSTRUCTION, p) =
        armCoprocessorOthersSwi p ins := by
      rw [armCoprocessorOthersSwi]
      split <;> rfl
    exact hs

@[simp] theorem result_armExecuteInstruction :
    result (armExecuteInstruction h) p = Armator.armExecuteInstruction h p := by
  rw [Trace.armExecuteInstruction, result_bind, result_armFetch]
  exact result_aiguiller h _ _

@[simp] theorem result_armExceptionReset (exception : Byte) :
    result (armExceptionReset exception) p = Armator.armExceptionReset p exception := by
  simp [Trace.armExceptionReset, Armator.armExceptionReset, ↓result_bind, ↓result_ite]

@[simp] theorem result_armException (exception : Byte) :
    result (armException h exception) p = Armator.armException h p exception := by
  simp [Trace.armException, Armator.armException, ↓result_bind, ↓result_ite]

theorem result_armStep : result (armStep h) p = Armator.armStep h p := by
  simp [Trace.armStep, Armator.armStep, ↓result_bind, ↓result_ite]

end Result

end Trace

end Armator
