import Armator.Architecture.Footprint

namespace Armator

open BitFields

-- The registers that a run may look at, with at least those of every mode.
structure View where
  seen : Slot → Prop
  shared : ∀ i, (∀ mode, Owns mode i) → seen i

namespace View

variable (v : View)

theorem pc : v.seen PC := v.shared PC owns_pc

theorem cpsr : v.seen CPSR := v.shared CPSR owns_cpsr

theorem r0 : v.seen 0 := v.shared 0 fun mode => ⟨0, by simp [bank]⟩

def Covers (p : ArmCore) : Prop := ∀ i, Owns p.mode i → v.seen i

theorem Covers.of_mode {v : View} {p q : ArmCore} (hp : v.Covers p) (hq : q.mode = p.mode) :
    v.Covers q := by
  rw [Covers, hq]
  exact hp

end View

open Classical in
noncomputable def Registers.hide (v : View) (g : Slot → Word) (r : Registers) : Registers :=
  ⟨Cells.hide v.seen g r.registre⟩

noncomputable def ArmCore.hide (v : View) (g : Slot → Word) (p : ArmCore) : ArmCore :=
  { p with reg := p.reg.hide v g }

noncomputable def hideAfter {α : Type} (v : View) (g : Slot → Word) (x : α × ArmCore) :
    α × ArmCore :=
  (x.1, x.2.hide v g)

section Hide

variable {v : View} {p : ArmCore} (g : Slot → Word)

theorem hide_registre (r : Registers) {i : Slot} (hi : v.seen i) :
    (r.hide v g).registre i = r.registre i := if_pos hi

theorem hide_unseen (r : Registers) {i : Slot} (hi : ¬ v.seen i) : (r.hide v g).registre i = g i :=
  if_neg hi

theorem hide_set (r : Registers) {i : Slot} (hi : v.seen i) (value : Word) :
    (r.hide v g).set i value = (r.set i value).hide v g := by
  classical
  refine Registers.ext (funext fun j => ?_)
  change _ = if v.seen j then (r.set i value).registre j else g j
  have hj : (r.hide v g).registre j = if v.seen j then r.registre j else g j := rfl
  rw [Registers.set_registre, Registers.set_registre, hj]
  split
  · rename_i h
    rw [h, if_pos hi]
  · rfl

theorem hide_registersRead (hm : v.Covers p) (reg : RegNum) :
    registersRead (p.reg.hide v g) reg p.mode = registersRead p.reg reg p.mode := by
  classical
  rw [registersRead_bank, registersRead_bank]
  exact Cells.read_hide bank (fun i hi => hm i ⟨reg, hi⟩) 0 g p.reg.registre

theorem hide_registersWrite (hm : v.Covers p) (reg : RegNum) (value : Word) :
    registersWrite (p.reg.hide v g) reg p.mode value =
      (registersWrite p.reg reg p.mode value).hide v g := by
  classical
  rw [registersWrite_bank, registersWrite_bank]
  exact congrArg Registers.mk
    (Cells.write_hide bank (fun i hi => hm i ⟨reg, hi⟩) g p.reg.registre value)

@[simp] theorem hide_cpsr : (p.hide v g).cpsr = p.cpsr := hide_registre g p.reg v.cpsr

@[simp] theorem hide_pc : (p.hide v g).pc = p.pc := hide_registre g p.reg v.pc

theorem hide_getMode (r : Registers) :
    registersGetMode (r.hide v g) = registersGetMode r := by
  rw [registersGetMode, registersGetMode, hide_registre g r v.cpsr]

@[simp] theorem hide_readCpsr : armReadCpsr (p.hide v g) = armReadCpsr p := hide_cpsr g

theorem hide_writeCpsr (value : Word) :
    armWriteCpsr (p.hide v g) value = (armWriteCpsr p value).hide v g :=
  congrArg (fun r => ({ p with reg := r } : ArmCore)) (hide_set g p.reg v.cpsr value)

theorem hide_writePc (value : Word) :
    armWriteRegister (p.hide v g) 15 value = (armWriteRegister p 15 value).hide v g :=
  congrArg (fun r => ({ p with reg := r } : ArmCore)) (hide_set g p.reg v.pc value)

theorem hide_readPc : armReadRegister (p.hide v g) 15 = armReadRegister p 15 :=
  armReadPc_congr _ _ (hide_pc g)

@[simp] theorem hide_condNotRespect (ins : Word) :
    condNotRespect (p.hide v g) ins = condNotRespect p ins := by
  rw [condNotRespect_eq, condNotRespect_eq, hide_cpsr]

@[simp] theorem hide_hasSpsr :
    armCurrentModeHasSpsr (p.hide v g) = armCurrentModeHasSpsr p :=
  congrArg registersModeHasSpsr (hide_getMode g p.reg)

@[simp] theorem hide_privileged :
    armInAPrivilegedMode (p.hide v g) = armInAPrivilegedMode p := by
  have h : registersGetMode (p.hide v g).reg = registersGetMode p.reg := hide_getMode g p.reg
  rw [armInAPrivilegedMode, armInAPrivilegedMode, registersInAPrivilegedMode,
    registersInAPrivilegedMode, h]

theorem hide_fetched : (p.hide v g).fetched = p.fetched.hide v g := by
  have h := hide_set g p.reg v.pc (p.pc + 4)
  rw [ArmCore.fetched, hide_pc]
  exact congrArg (fun r => ({ p with reg := r, cycle_count := p.cycle_count + 1 } : ArmCore)) h

theorem hide_fetchedWord (h : Host) : (p.hide v g).fetchedWord h = p.fetchedWord h := by
  rw [ArmCore.fetchedWord, hide_pc]
  rfl

end Hide

section Registers

variable {v : View} {p : ArmCore} (g : Slot → Word) (hm : v.Covers p)

include hm

theorem hide_readRegister (reg : RegNum) :
    armReadRegister (p.hide v g) reg = armReadRegister p reg := by
  have h := hide_registersRead g hm reg
  have hg : registersGetMode (p.hide v g).reg = p.mode := hide_getMode g p.reg
  rw [armReadRegister, armReadRegister, armReadRegisterInternal, armReadRegisterInternal, hg]
  exact congrArg (fun x => if reg = 15 then (x + 4) &&& 0xFFFFFFFD else x) h

theorem hide_writeRegister (reg : RegNum) (value : Word) :
    armWriteRegister (p.hide v g) reg value = (armWriteRegister p reg value).hide v g := by
  have h := hide_registersWrite g hm reg value
  have hg : registersGetMode (p.hide v g).reg = p.mode := hide_getMode g p.reg
  rw [armWriteRegister, armWriteRegisterInternal, hg]
  exact congrArg (fun r => ({ p with reg := r } : ArmCore)) h

theorem hide_readSpsr : armReadSpsr (p.hide v g) = armReadSpsr p :=
  hide_readRegister g hm 17

theorem hide_writeSpsr (value : Word) :
    armWriteSpsr (p.hide v g) value = (armWriteSpsr p value).hide v g :=
  hide_writeRegister g hm 17 value

end Registers

section LoadStore

variable {v : View} {p : ArmCore} (g : Slot → Word) (h : Host)

theorem hide_writeByte (address : Word) (value : Byte) :
    armWriteByte (p.hide v g) address value = hideAfter v g (armWriteByte p address value) :=
  rfl

theorem hide_writeHalf (address : Word) (value : Half) :
    armWriteHalf h (p.hide v g) address value =
      hideAfter v g (armWriteHalf h p address value) := rfl

theorem hide_writeWord (address value : Word) :
    armWriteWord h (p.hide v g) address value =
      hideAfter v g (armWriteWord h p address value) := rfl

theorem hide_readByte (address : Word) (value : Byte) :
    armReadByte (p.hide v g) address value = armReadByte p address value := rfl

theorem hide_readHalf (address : Word) (value : Half) :
    armReadHalf h (p.hide v g) address value = armReadHalf h p address value := rfl

theorem hide_readWord (address value : Word) :
    armReadWord h (p.hide v g) address value = armReadWord h p address value := rfl

variable (hm : v.Covers p)

include hm

theorem hide_preIndexer (rn : RegNum) (adresse offset u w p_bit : Word) :
    preIndexer (p.hide v g) rn adresse offset u w p_bit =
      hideAfter v g (preIndexer p rn adresse offset u w p_bit) := by
  simp only [preIndexer, hide_writeRegister g hm, hideAfter]
  split_ifs <;> rfl

theorem hide_postIndexer (rn : RegNum) (adresse offset u w p_bit : Word) :
    postIndexer (p.hide v g) rn adresse offset u w p_bit =
      hideAfter v g (postIndexer p rn adresse offset u w p_bit) := by
  simp only [postIndexer, hide_writeRegister g hm, hideAfter]
  split_ifs <;> rfl

theorem hide_chargerWordByte (rn rd : RegNum) (b adresse value : Word) :
    chargerWordByte h (p.hide v g) rn rd b adresse value =
      hideAfter v g (chargerWordByte h p rn rd b adresse value) := by
  simp only [chargerWordByte, hide_writeRegister g hm, hide_readByte, hide_readWord, hideAfter]
  split_ifs <;> rfl

theorem hide_rangerWordByte (rn rd : RegNum) (b adresse value : Word) :
    rangerWordByte h (p.hide v g) rn rd b adresse value =
      hideAfter v g (rangerWordByte h p rn rd b adresse value) := by
  simp only [rangerWordByte, hide_readRegister g hm, hide_writeByte, hide_writeWord, hideAfter]
  split_ifs <;> rfl

theorem hide_rangerHalf (rd : RegNum) (adresse : Word) :
    rangerHalf h (p.hide v g) rd adresse = hideAfter v g (rangerHalf h p rd adresse) := by
  rw [rangerHalf, rangerHalf, hide_readRegister g hm, hide_writeHalf]

theorem hide_chargerHalf (rd : RegNum) (adresse : Word) :
    chargerHalf h (p.hide v g) rd adresse = hideAfter v g (chargerHalf h p rd adresse) := by
  simp only [chargerHalf, hide_writeRegister g hm, hide_readHalf, hideAfter]

theorem hide_offsetWordByte (ins : Word) :
    offsetWordByte h (p.hide v g) ins = offsetWordByte h p ins := by
  simp only [offsetWordByte, hide_readRegister g hm]

theorem hide_offsetHalf (ins : Word) : offsetHalf (p.hide v g) ins = offsetHalf p ins := by
  simp only [offsetHalf, hide_readRegister g hm]

omit hm in
theorem hide_terminer (acces : Int × ArmCore) (ha : v.Covers acces.2) (rn : RegNum)
    (adresse offset u w p_bit : Word) :
    terminer (hideAfter v g acces) rn adresse offset u w p_bit =
      hideAfter v g (terminer acces rn adresse offset u w p_bit) := by
  have hpost := hide_postIndexer g ha rn adresse offset u w p_bit
  unfold terminer
  change (if acces.1 = -1 then (DATA_ABORT, acces.2.hide v g) else _) = _
  split
  · rfl
  · exact hpost

theorem hide_armLoadStoreWordByte (ins : Word) (rn rd : RegNum) (hrn : rn.val < 16)
    (hrd : rd.val < 16) (u p_bit w l adresse value : Word) :
    armLoadStoreWordByte h (p.hide v g) ins rn rd u p_bit w l adresse value =
      hideAfter v g (armLoadStoreWordByte h p ins rn rd u p_bit w l adresse value) := by
  have hpre := hide_preIndexer g hm rn adresse (offsetWordByte h p ins) u w p_bit
  have hw := (preIndexer_writes p rn hrn adresse (offsetWordByte h p ins) u w p_bit).mode
  simp only [armLoadStoreWordByte, hide_offsetWordByte g h hm, hpre]
  generalize preIndexer p rn adresse (offsetWordByte h p ins) u w p_bit = a at hw
  have ha : v.Covers a.2 := hm.of_mode hw
  split
  · rfl
  · simp only [hideAfter, hide_chargerWordByte g h ha, hide_rangerWordByte g h ha]
    split
    · exact hide_terminer g _ (ha.of_mode (chargerWordByte_writes h a.2 rn rd hrd _ _ _).mode) ..
    · exact hide_terminer g _ (ha.of_mode (rangerWordByte_writes h a.2 rn rd _ _ _).mode) ..

theorem hide_armLoadStoreHalf (ins : Word) (rn rd : RegNum) (hrn : rn.val < 16)
    (hrd : rd.val < 16) (u p_bit w l adresse : Word) :
    armLoadStoreHalf h (p.hide v g) ins rn rd u p_bit w l adresse =
      hideAfter v g (armLoadStoreHalf h p ins rn rd u p_bit w l adresse) := by
  have hpre := hide_preIndexer g hm rn adresse (offsetHalf p ins) u w p_bit
  have hw := (preIndexer_writes p rn hrn adresse (offsetHalf p ins) u w p_bit).mode
  simp only [armLoadStoreHalf, hide_offsetHalf g hm, hpre]
  generalize preIndexer p rn adresse (offsetHalf p ins) u w p_bit = a at hw
  have ha : v.Covers a.2 := hm.of_mode hw
  split
  · rfl
  · split
    · simp only [hideAfter, hide_rangerHalf g h ha, hide_chargerHalf g h ha]
      split
      · exact hide_terminer g _ (ha.of_mode (armWriteHalf_writes h a.2 _ _).mode) ..
      · have hc : v.Covers (chargerHalf h a.2 rd a.1).2 :=
          ha.of_mode (armWriteRegister_mode a.2 rd _ (ne_of_val_lt hrd).1)
        exact hide_terminer g (chargerHalf h a.2 rd a.1) hc ..
      · rfl
    · rfl

theorem hide_armLoadStore (ins : Word) :
    armLoadStore h (p.hide v g) ins = hideAfter v g (armLoadStore h p ins) := by
  have hrn := regNum_getBits_lt ins 19 16 rfl
  have hrd := regNum_getBits_lt ins 15 12 rfl
  simp only [armLoadStore, hide_condNotRespect, hide_readRegister g hm,
    hide_armLoadStoreWordByte g h hm ins _ _ hrn hrd, hide_armLoadStoreHalf g h hm ins _ _ hrn hrd]
  split_ifs <;> rfl

theorem hide_transfererMot (l : Word) (reg_num : RegNum) (adresse value : Word) :
    transfererMot h (p.hide v g) l reg_num adresse value =
      ((transfererMot h p l reg_num adresse value).1,
        hideAfter v g (transfererMot h p l reg_num adresse value).2) := by
  simp only [transfererMot, hide_readWord, hide_writeRegister g hm, hide_readRegister g hm,
    hide_writeWord, hideAfter]
  split_ifs <;> rfl

theorem hide_transferer (l u : Word) (list_reg : Half) (regs : List RegNum)
    (hregs : ∀ r ∈ regs, r.val < 16) (value adresse : Word) :
    transferer h l u list_reg regs (p.hide v g) value adresse =
      ((transferer h l u list_reg regs p value adresse).1,
        (transferer h l u list_reg regs p value adresse).2.1.hide v g,
        (transferer h l u list_reg regs p value adresse).2.2) := by
  induction regs generalizing p value adresse with
  | nil => rfl
  | cons r rs ih =>
      have hr := hregs r List.mem_cons_self
      have hrs : ∀ x ∈ rs, x.val < 16 := fun x hx => hregs x (List.mem_cons_of_mem _ hx)
      have hw := hm.of_mode (transfererMot_writes h p l r hr adresse value).mode
      simp only [transferer, hide_transfererMot g h hm, hideAfter, ih hw hrs, ih hm hrs]
      split_ifs <;> rfl

theorem hide_armLoadStoreMultiple (ins : Word) :
    armLoadStoreMultiple h (p.hide v g) ins = hideAfter v g (armLoadStoreMultiple h p ins) := by
  have hregs : ∀ r ∈ (List.range 15).map (Fin.ofNat 18), r.val < 16 := by decide
  unfold armLoadStoreMultiple
  dsimp only
  rw [hide_condNotRespect, hide_readRegister g hm]
  generalize (if getBit ins 24 ≠ 0 then _ else armReadRegister p (regNum (getBits ins 19 16))) = a
  have ht := transferer_writes h p (getBit ins 20) (getBit ins 23) ((getBits ins 15 0).setWidth 16)
    _ hregs h.value a
  simp only [hide_transferer g h hm _ _ _ _ hregs, hide_writeRegister g (hm.of_mode ht.mode)]
  split_ifs <;> rfl

end LoadStore

section Execute

variable {v : View} {p : ArmCore} (g : Slot → Word) (h : Host) (ins : Word)

theorem hide_armExceptionReset (e : Byte) :
    armExceptionReset (p.hide v g) e = hideAfter v g (armExceptionReset p e) := by
  simp only [armExceptionReset, hide_writeCpsr, hide_writePc, hideAfter]
  split_ifs <;> rfl

theorem hide_readR0 : armReadRegister (p.hide v g) 0 = armReadRegister p 0 :=
  hide_registre g p.reg v.r0

theorem hide_putchar (value : Word) :
    putchar (p.hide v g) value = (putchar p value).hide v g := by
  rw [putchar, putchar]
  rfl

theorem hide_armException (e : Byte) :
    armException h (p.hide v g) e = hideAfter v g (armException h p e) := by
  simp only [armException, hide_readPc, hide_readR0, hide_readWord, hide_armExceptionReset,
    hide_putchar, hideAfter]
  split_ifs <;> rfl

variable (hm : v.Covers p)

include hm

theorem hide_updateFlags (temp : BitVec 64) (bit_S : Word) (rd_num : RegNum) :
    updateFlags temp (p.hide v g) bit_S rd_num =
      hideAfter v g (updateFlags temp p bit_S rd_num) := by
  simp only [updateFlags, hide_hasSpsr, hide_readSpsr g hm, hide_readCpsr, hide_writeCpsr,
    ← apply_ite (ArmCore.hide v g), hideAfter]
  split_ifs <;> rfl

theorem hide_effectuerOperation (opeCode : Nat) (rn operande2 : Word) :
    effectuerOperation opeCode rn operande2 (p.hide v g) ins =
      hideAfter v g (effectuerOperation opeCode rn operande2 p ins) := by
  have hrd := (ne_of_val_lt (regNum_getBits_lt ins 15 12 rfl)).1
  have hw (x : Word) := hm.of_mode (armWriteRegister_mode p (regNum (getBits ins 15 12)) x hrd)
  unfold effectuerOperation
  simp only [hide_readCpsr, hide_writeRegister g hm, hide_updateFlags g (hw _),
    hide_updateFlags g hm]
  split <;> rfl

theorem hide_executeDataProcessing :
    executeDataProcessing h (p.hide v g) ins =
      hideAfter v g (executeDataProcessing h p ins) := by
  simp only [executeDataProcessing, operande2, hide_readRegister g hm,
    hide_effectuerOperation g ins hm]

theorem hide_armBranch : armBranch (p.hide v g) ins = hideAfter v g (armBranch p ins) := by
  have hlink : ∀ c : Prop, [Decidable c] → ∀ x,
      v.Covers (if c then armWriteRegister p 14 x else p) := by
    intro c _ x
    split
    · exact hm.of_mode (armWriteRegister_mode p 14 x (by decide))
    · exact hm
  simp only [armBranch, hide_condNotRespect, hide_readPc, hide_writeRegister g hm,
    ← apply_ite (ArmCore.hide v g), hide_readRegister g (hlink _ _),
    hide_writeRegister g (hlink _ _), hide_writePc, hideAfter]
  split_ifs <;> rfl

theorem hide_fonctionMSR :
    fonctionMSR h (p.hide v g) ins = hideAfter v g (fonctionMSR h p ins) := by
  have ho : msrOperand h (p.hide v g) ins = msrOperand h p ins := by
    simp only [msrOperand, hide_readRegister g hm]
  simp only [fonctionMSR, ho, hide_readCpsr, hide_writeCpsr, hide_privileged, hide_hasSpsr,
    hide_readSpsr g hm, hide_writeSpsr g hm, hideAfter]
  split_ifs <;> rfl

theorem hide_execute (k : Kind) :
    k.execute h (p.hide v g) ins = hideAfter v g (k.execute h p ins) := by
  cases k with
  | miscellaneous =>
      simp only [Kind.execute, hide_fonctionMSR g h ins hm]
      split_ifs <;> rfl
  | dataProcessing => exact hide_executeDataProcessing g h ins hm
  | transfer => exact hide_armLoadStore g h hm ins
  | blockTransfer => exact hide_armLoadStoreMultiple g h hm ins
  | branch => exact hide_armBranch g ins hm
  | interrupt => rfl
  | undefined => rfl

theorem hide_aiguiller :
    aiguiller h (p.hide v g) ins = hideAfter v g (aiguiller h p ins) := by
  have hc := hide_condNotRespect g ins (p := p) (v := v)
  rcases aiguiller_cases h p ins with ⟨h0, he⟩ | ⟨hk, he⟩ | ⟨h0, he⟩
  · rw [he, aiguiller_accepted h _ ins (hc.trans h0), hide_execute g h ins hm]
  · rw [he, aiguiller_branch h _ ins hk, hide_armBranch g ins hm]
  · by_cases hb : kindOf ins = .branch
    · rw [aiguiller_branch h _ ins hb, aiguiller_branch h _ ins hb, hide_armBranch g ins hm]
    · rw [he, aiguiller_refused h _ ins (by rwa [hc]) fun hk => absurd hk hb]
      rfl

theorem hide_armStep : armStep h (p.hide v g) = hideAfter v g (armStep h p) := by
  have hf : v.Covers p.fetched := hm.of_mode (fetched_mode p)
  have hex : armExecuteInstruction h (p.hide v g) =
      hideAfter v g (armExecuteInstruction h p) := by
    rw [armExecuteInstruction_eq, hide_fetched, hide_fetchedWord, hide_aiguiller g h _ hf]
    rfl
  unfold armStep
  rw [hex]
  generalize armExecuteInstruction h p = x
  simp only [hideAfter, hide_armException]
  split_ifs <;> rfl

end Execute

end Armator
