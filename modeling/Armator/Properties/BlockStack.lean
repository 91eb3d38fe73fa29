import Armator.Architecture.BlockMove
import Armator.Simulator.Create

namespace Armator

open BitFields

inductive StackPair where
  | decreaseBefore
  | increaseAfter
  | increaseBefore
  | decreaseAfter
deriving DecidableEq, Repr

def StackPair.store : StackPair → Bool × Bool
  | .decreaseBefore => (true, false)
  | .increaseAfter => (false, true)
  | .increaseBefore => (true, true)
  | .decreaseAfter => (false, false)

def StackPair.load : StackPair → Bool × Bool
  | .decreaseBefore => (false, true)
  | .increaseAfter => (true, false)
  | .increaseBefore => (false, false)
  | .decreaseAfter => (true, true)

structure IsBlock (ins : Word) (l : Bool) (pu : Bool × Bool) (rn : RegNum) (list : Half) :
    Prop where
  opcode : insClass ins = 4
  p_bit : bit ins 24 = pu.1
  u : bit ins 23 = pu.2
  s : bit ins 22 = false
  w : bit ins 21 = true
  l : bit ins 20 = l
  base : rnNum ins = rn
  list : listReg ins = list

structure StackTransfer (p : ArmCore) (pair : StackPair) (stm ldm : Word) (rn : RegNum)
    (list : Half) : Prop where
  store : IsBlock stm false pair.store rn list
  load : IsBlock ldm true pair.load rn list
  mode : p.mode ∈ armModes
  nonempty : list ≠ 0
  low : bit list 15 = false
  base : rn ≠ 15
  base_out : bit list rn = false

def overwrite (p : ArmCore) (list : Half) (values : RegNum → Word) : ArmCore :=
  p.writeRegs ((listedRegs list).map fun r => (r, values r))

def stackMove (pair : StackPair) (list : Half) : Word :=
  BitVec.ofNat 32 (listedRegs list).length * (if pair.store.2 then 4 else -4)

def StackDiscipline (h : Host) (p : ArmCore) (pair : StackPair) (stm ldm : Word) (rn : RegNum)
    (list : Half) : Prop :=
  let q := (armLoadStoreMultiple h p stm).2
  armReadRegister q rn = armReadRegister p rn + stackMove pair list ∧
    ∀ values : RegNum → Word,
      let s := (armLoadStoreMultiple h (overwrite q list values) ldm).2
      (∀ r ∈ listedRegs list, armReadRegister s r = armReadRegister p r) ∧
        armReadRegister s rn = armReadRegister p rn

section Base

variable (h : Host)

theorem transfererMot_keeps (p : ArmCore) (l : Word) (r rn : RegNum) (adresse value : Word)
    (h16 : r ≠ 16) (hr : r ≠ rn) :
    armReadRegister (transfererMot h p l r adresse value).2.2 rn = armReadRegister p rn := by
  unfold transfererMot
  split
  · exact armReadRegister_write_other p r _ rn h16 hr
  · rfl

theorem transferer_keeps (l u : Word) (list_reg : Half) (rn : RegNum)
    (hrn : bit list_reg rn = false) (regs : List RegNum) (h16 : ∀ r ∈ regs, r ≠ 16)
    (p : ArmCore) (value a : Word) :
    armReadRegister (transferer h l u list_reg regs p value a).2.1 rn = armReadRegister p rn := by
  induction regs generalizing p value a with
  | nil => rfl
  | cons r rs ih =>
      have hrs : ∀ x ∈ rs, x ≠ 16 := fun x hx => h16 x (List.mem_cons_of_mem _ hx)
      cases hr : bit list_reg r with
      | false =>
          rw [transferer_unlisted h l u list_reg r rs p value a hr]
          exact ih hrs p value a
      | true =>
          have hne : r ≠ rn := by
            rintro rfl
            rw [hr] at hrn
            cases hrn
          have hb := (getBit_ne_zero list_reg r).mpr hr
          have hone := transfererMot_keeps h p l r rn a value (h16 r List.mem_cons_self) hne
          rw [transferer, if_pos hb]
          dsimp only
          split
          · exact hone
          · rw [ih hrs]
            exact hone

theorem armLoadStoreMultiple_base (p : ArmCore) (ins : Word) (hm : p.mode ∈ armModes)
    (h15 : rnNum ins ≠ 15) (hout : bit (listReg ins) (rnNum ins) = false) :
    armReadRegister (armLoadStoreMultiple h p ins).2 (rnNum ins) = baseValue p ins ∨
      armReadRegister (armLoadStoreMultiple h p ins).2 (rnNum ins) = endAddress p ins := by
  obtain ⟨h16, h17⟩ := ne_of_val_lt (rnNum_lt ins)
  by_cases hc : condNotRespect p ins = 0
  · by_cases hr : blockRefused ins
    · rw [armLoadStoreMultiple_refused h p ins hc hr]
      exact Or.inl rfl
    · have hkeep : armReadRegister (blockTransfer h p ins).2.1 (rnNum ins) = baseValue p ins :=
        transferer_keeps h _ _ _ _ hout lowRegs (by decide) _ _ _
      have hmode : (blockTransfer h p ins).2.1.mode = p.mode :=
        (transferer_writes h p _ _ _ lowRegs (by decide) _ _).mode
      rw [armLoadStoreMultiple_transfer h p ins hc hr]
      split
      · exact Or.inl hkeep
      · split
        · exact Or.inl hkeep
        · split
          · rename_i hz _ _
            have hi : BlockInside p ins := by
              by_contra hi
              rw [blockTransfer_code, if_neg hi] at hz
              exact hz (by decide)
            refine Or.inr ?_
            rw [armReadRegister_write_same _ _ _ h16 h15, blockTransfer_address h p ins hi]
            rw [hmode]
            exact bank_isSome _ _ hm h17
          · exact Or.inl hkeep
  · rw [armLoadStoreMultiple, if_pos hc]
    exact Or.inl rfl

end Base

theorem overwrite_keeps (p : ArmCore) (list : Half) (values : RegNum → Word) (rn : RegNum)
    (hrn : bit list rn = false) :
    armReadRegister (overwrite p list values) rn = armReadRegister p rn ∧
      (overwrite p list values).mode = p.mode := by
  have hlisted : ∀ kv ∈ (listedRegs list).map fun r => (r, values r),
      kv.1.val < 15 ∧ bit list kv.1 = true := by
    rw [List.forall_mem_map]
    exact fun r hr => (mem_listedRegs list r).mp hr
  have h16 : ∀ kv ∈ (listedRegs list).map fun r => (r, values r), kv.1 ≠ 16 := by
    intro kv hkv
    have hlt := (hlisted kv hkv).1
    exact (ne_of_val_lt (by omega)).1
  refine ⟨writeRegs_keeps p rn _ h16 ?_, writeRegs_mode p _ h16⟩
  rintro kv hkv rfl
  rw [(hlisted kv hkv).2] at hrn
  cases hrn

namespace IsBlock

variable {ins : Word} {l : Bool} {pu : Bool × Bool} {rn : RegNum} {list : Half}

theorem endAddress_eq (hb : IsBlock ins l pu rn list) (p : ArmCore) :
    endAddress p ins = armReadRegister p rn + (if pu.1 then (if pu.2 then 4 else -4) else 0) +
      BitVec.ofNat 32 (listedRegs list).length * (if pu.2 then 4 else -4) := by
  rw [endAddress, startAddress, blockPas_eq, blockCount_eq, hb.u, hb.list, baseValue, hb.base,
    hb.p_bit]
  cases pu.1 with
  | true => rfl
  | false => simp

theorem base_after (hb : IsBlock ins l pu rn list) (h : Host) (p : ArmCore)
    (hm : p.mode ∈ armModes) (h15 : rn ≠ 15) (hout : bit list rn = false) :
    armReadRegister (armLoadStoreMultiple h p ins).2 rn = armReadRegister p rn ∨
      armReadRegister (armLoadStoreMultiple h p ins).2 rn = endAddress p ins := by
  have hbase := armLoadStoreMultiple_base h p ins hm (by rw [hb.base]; exact h15)
    (by rw [hb.list, hb.base]; exact hout)
  rw [baseValue, hb.base] at hbase
  exact hbase

end IsBlock

theorem stack_never (h : Host) (p : ArmCore) (pair : StackPair) (stm ldm : Word) (rn : RegNum)
    (list : Half) (hs : StackTransfer p pair stm ldm rn list) :
    ¬ StackDiscipline h p pair stm ldm rn list := by
  rintro ⟨hmove, hrest⟩
  obtain ⟨hpos, hle⟩ := listedRegs_length list hs.nonempty hs.low
  have hstore := hs.store.base_after h p hs.mode hs.base hs.base_out
  rw [hs.store.endAddress_eq] at hstore
  have hmode := (armLoadStoreMultiple_writes h p stm).mode
  have hover := overwrite_keeps (armLoadStoreMultiple h p stm).2 list (fun _ => 0) rn hs.base_out
  have hload := hs.load.base_after h (overwrite (armLoadStoreMultiple h p stm).2 list fun _ => 0)
    (by rw [hover.2, hmode]; exact hs.mode) hs.base hs.base_out
  have hback := (hrest fun _ => 0).2
  rw [hs.load.endAddress_eq, hover.1, hmove] at hload
  rw [hback] at hload
  rw [hmove] at hstore
  unfold stackMove at hstore hload
  have ht := listed_bytes (listedRegs list).length (by omega)
  generalize armReadRegister p rn = b at hstore hload
  generalize (listedRegs list).length = m at hpos hle ht hstore hload
  -- A store that counts before it writes is four bytes off, and so is the load of the other pairs.
  cases pair with
  | decreaseBefore =>
      simp only [StackPair.store, if_true, Bool.false_eq_true, if_false, BitVec.mul_neg] at hstore
      generalize BitVec.ofNat 32 m * 4 = t at ht hstore
      bv_omega
  | increaseAfter =>
      simp only [StackPair.store, StackPair.load, if_true, Bool.false_eq_true, if_false,
        BitVec.mul_neg] at hload
      generalize BitVec.ofNat 32 m * 4 = t at ht hload
      bv_omega
  | increaseBefore =>
      simp only [StackPair.store, if_true] at hstore
      generalize BitVec.ofNat 32 m * 4 = t at ht hstore
      bv_omega
  | decreaseAfter =>
      simp only [StackPair.store, StackPair.load, if_true, Bool.false_eq_true, if_false,
        BitVec.mul_neg] at hload
      generalize BitVec.ofNat 32 m * 4 = t at ht hload
      bv_omega

-- STMDB R13!, {R0} and LDMIA R13!, {R0}, the stack at the top of memory.
theorem push_moves_eight :
    StackTransfer (afterReset [0, 0, 0, 0]) .decreaseBefore 0xE92D0001 0xE8BD0001 13 1 ∧
      ¬ StackDiscipline Host.blank (afterReset [0, 0, 0, 0]) .decreaseBefore 0xE92D0001
        0xE8BD0001 13 1 := by
  refine ⟨⟨⟨by decide, by decide, by decide, by decide, by decide, by decide, by decide,
    by decide⟩, ⟨by decide, by decide, by decide, by decide, by decide, by decide, by decide,
    by decide⟩, by decide, by decide, by decide, by decide, by decide⟩, ?_⟩
  rintro ⟨hmove, _⟩
  exact absurd hmove (by decide)

theorem increase_after_unbalanced :
    ¬ StackDiscipline Host.blank (afterReset [0, 0, 0, 0]) .increaseAfter 0xE8A10001
      0xE9310001 1 1 :=
  stack_never Host.blank (afterReset [0, 0, 0, 0]) .increaseAfter 0xE8A10001 0xE9310001 1 1
    ⟨⟨by decide, by decide, by decide, by decide, by decide, by decide, by decide, by decide⟩,
      ⟨by decide, by decide, by decide, by decide, by decide, by decide, by decide, by decide⟩,
      by decide, by decide, by decide, by decide, by decide⟩

end Armator
