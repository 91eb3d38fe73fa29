import Armator.Architecture.FlagUpdate
import Armator.Simulator.LoadStore

namespace Armator

open BitFields

inductive DataWrites : ArmCore → ArmCore → Prop
  | refl (p : ArmCore) : DataWrites p p
  | reg {p q : ArmCore} (reg : RegNum) (value : Word) (h : reg.val < 16) :
      DataWrites p q → DataWrites p (armWriteRegister q reg value)
  | mem {p q : ArmCore} (m : Memory) : DataWrites p q → DataWrites p { q with mem := m }

namespace DataWrites

variable {p q r : ArmCore}

theorem trans (hpq : DataWrites p q) (hqr : DataWrites q r) : DataWrites p r := by
  induction hqr with
  | refl => exact hpq
  | reg reg value h _ ih => exact ih.reg reg value h
  | mem m _ ih => exact ih.mem m

theorem cpsr (hpq : DataWrites p q) : q.cpsr = p.cpsr := by
  induction hpq with
  | refl => rfl
  | reg reg value h _ ih => rw [armWriteRegister_cpsr _ _ _ (ne_of_val_lt h).1, ih]
  | mem m _ ih => exact ih

theorem mode (hpq : DataWrites p q) : q.mode = p.mode := by
  induction hpq with
  | refl => rfl
  | reg reg value h _ ih => rw [armWriteRegister_mode _ _ _ (ne_of_val_lt h).1, ih]
  | mem m _ ih => exact ih

theorem console (hpq : DataWrites p q) : q.console = p.console := by
  induction hpq with
  | refl => rfl
  | reg reg value h _ ih => exact ih
  | mem m _ ih => exact ih

theorem cycle_count (hpq : DataWrites p q) : q.cycle_count = p.cycle_count := by
  induction hpq with
  | refl => rfl
  | reg reg value h _ ih => exact ih
  | mem m _ ih => exact ih

end DataWrites

section LoadStore

variable (h : Host) (p : ArmCore)

theorem armWriteByte_writes (address : Word) (value : Byte) :
    DataWrites p (armWriteByte p address value).2 := .mem _ (.refl p)

theorem armWriteHalf_writes (address : Word) (value : Half) :
    DataWrites p (armWriteHalf h p address value).2 := .mem _ (.refl p)

theorem armWriteWord_writes (address value : Word) :
    DataWrites p (armWriteWord h p address value).2 := .mem _ (.refl p)

theorem preIndexer_writes (rn : RegNum) (hrn : rn.val < 16) (adresse offset u w p_bit : Word) :
    DataWrites p (preIndexer p rn adresse offset u w p_bit).2 := by
  unfold preIndexer
  split
  · dsimp only
    split
    · exact .reg rn _ hrn (.refl p)
    · exact .refl p
  · exact .refl p

theorem postIndexer_writes (rn : RegNum) (hrn : rn.val < 16) (adresse offset u w p_bit : Word) :
    DataWrites p (postIndexer p rn adresse offset u w p_bit).2 := by
  unfold postIndexer
  split
  · split
    · exact .refl p
    · exact .reg rn _ hrn (.refl p)
  · exact .refl p

theorem terminer_writes (acces : Int × ArmCore) (rn : RegNum) (hrn : rn.val < 16)
    (adresse offset u w p_bit : Word) (ha : DataWrites p acces.2) :
    DataWrites p (terminer acces rn adresse offset u w p_bit).2 := by
  unfold terminer
  split
  · exact ha
  · exact ha.trans (postIndexer_writes _ rn hrn _ _ _ _ _)

theorem chargerWordByte_writes (rn rd : RegNum) (hrd : rd.val < 16) (b adresse value : Word) :
    DataWrites p (chargerWordByte h p rn rd b adresse value).2 := by
  unfold chargerWordByte
  split <;> exact .reg rd _ hrd (.refl p)

theorem rangerWordByte_writes (rn rd : RegNum) (b adresse value : Word) :
    DataWrites p (rangerWordByte h p rn rd b adresse value).2 := by
  unfold rangerWordByte
  dsimp only
  split
  · exact armWriteByte_writes p _ _
  · exact armWriteWord_writes h p _ _

theorem armLoadStoreWordByte_writes (ins : Word) (rn rd : RegNum) (hrn : rn.val < 16)
    (hrd : rd.val < 16) (u p_bit w l adresse value : Word) :
    DataWrites p (armLoadStoreWordByte h p ins rn rd u p_bit w l adresse value).2 := by
  unfold armLoadStoreWordByte
  dsimp only
  split
  · exact .refl p
  · apply terminer_writes _ _ _ hrn
    apply (preIndexer_writes p rn hrn adresse (offsetWordByte h p ins) u w p_bit).trans
    split
    · exact chargerWordByte_writes h _ rn rd hrd _ _ _
    · exact rangerWordByte_writes h _ rn rd _ _ _

theorem armLoadStoreHalf_writes (ins : Word) (rn rd : RegNum) (hrn : rn.val < 16)
    (hrd : rd.val < 16) (u p_bit w l adresse : Word) :
    DataWrites p (armLoadStoreHalf h p ins rn rd u p_bit w l adresse).2 := by
  have hpre := preIndexer_writes p rn hrn adresse (offsetHalf p ins) u w p_bit
  unfold armLoadStoreHalf
  split
  · exact .refl p
  · split
    · dsimp only
      split
      · exact terminer_writes p _ _ hrn _ _ _ _ _ (hpre.trans (armWriteHalf_writes h _ _ _))
      · exact terminer_writes p _ _ hrn _ _ _ _ _ (hpre.reg rd _ hrd)
      · exact hpre
    · exact .refl p

theorem armLoadStore_writes (ins : Word) : DataWrites p (armLoadStore h p ins).2 := by
  have hrn := regNum_getBits_lt ins 19 16 rfl
  have hrd := regNum_getBits_lt ins 15 12 rfl
  unfold armLoadStore
  dsimp only
  split
  · exact .refl p
  · split
    · exact armLoadStoreWordByte_writes h p ins _ _ hrn hrd _ _ _ _ _ _
    · exact armLoadStoreHalf_writes h p ins _ _ hrn hrd _ _ _ _ _

theorem transfererMot_writes (l : Word) (reg_num : RegNum) (hr : reg_num.val < 16)
    (adresse value : Word) : DataWrites p (transfererMot h p l reg_num adresse value).2.2 := by
  unfold transfererMot
  split
  · exact .reg reg_num _ hr (.refl p)
  · exact armWriteWord_writes h p _ _

theorem transferer_writes (l u : Word) (list_reg : Half) (regs : List RegNum)
    (hregs : ∀ r ∈ regs, r.val < 16) (value adresse : Word) :
    DataWrites p (transferer h l u list_reg regs p value adresse).2.1 := by
  induction regs generalizing p value adresse with
  | nil => exact .refl p
  | cons r rs ih =>
      have hr := hregs r List.mem_cons_self
      have hrs : ∀ x ∈ rs, x.val < 16 := fun x hx => hregs x (List.mem_cons_of_mem _ hx)
      unfold transferer
      split
      · have hone := transfererMot_writes h p l r hr adresse value
        dsimp only
        split
        · exact hone
        · exact hone.trans (ih _ hrs _ _)
      · exact ih p hrs value adresse

theorem armLoadStoreMultiple_writes (ins : Word) : DataWrites p (armLoadStoreMultiple h p ins).2 := by
  have hrn := regNum_getBits_lt ins 19 16 rfl
  unfold armLoadStoreMultiple
  dsimp only
  split
  · exact .refl p
  · generalize (if getBit ins 24 ≠ 0 then _ else armReadRegister p (regNum (getBits ins 19 16))) = a
    have ht := transferer_writes h p (getBit ins 20) (getBit ins 23) ((getBits ins 15 0).setWidth 16)
      ((List.range 15).map (Fin.ofNat 18)) (by decide) h.value a
    split
    · exact .refl p
    · split
      · split
        · exact ht
        · split
          · exact ht
          · split
            · exact ht.reg _ _ hrn
            · exact ht
      · exact .refl p

end LoadStore

end Armator
