import Armator.Architecture.MultipleTransfer
import Armator.Simulator.Create

namespace Armator

open BitFields

-- A store and a load of one list, without write-back, in one addressing mode.
structure SaveRestore (p : ArmCore) (stm ldm : Word) : Prop where
  store : MultipleTransfer p stm
  load : MultipleTransfer p ldm
  stm_l : bit stm 20 = false
  ldm_l : bit ldm 20 = true
  stm_w : bit stm 21 = false
  ldm_w : bit ldm 21 = false
  p_bit : bit ldm 24 = bit stm 24
  u : bit ldm 23 = bit stm 23
  base : rnNum ldm = rnNum stm
  list : listReg ldm = listReg stm

structure Saved (h : Host) (p : ArmCore) (stm : Word) (r : Int × ArmCore) : Prop where
  code : r.1 = 0
  registers : r.2.reg = p.reg
  size : r.2.mem.size = p.mem.size
  words : ∀ k : Fin (listed stm).length, r.2.mem.word h.ENDIANESS (wordAddress p stm k) =
    armReadRegister p ((listed stm).get (placed stm k))
  bytes : ∀ b : Word, ¬ TargetByte p stm b → r.2.mem.data b = p.mem.data b

structure Restored (p : ArmCore) (stm : Word) (mem : Memory) (r : Int × ArmCore) : Prop where
  code : r.1 = 0
  registers : ∀ reg ∈ listed stm, armReadRegister r.2 reg = armReadRegister p reg
  memory : r.2.mem = mem

def disturbed (p : ArmCore) (stm : Word) (values : RegNum → Word) : ArmCore :=
  p.writeRegs (((listed stm).filter fun r => r ≠ rnNum stm).map fun r => (r, values r))

def LoadUndoesStore (h h' : Host) (p : ArmCore) (stm ldm : Word) : Prop :=
  Saved h p stm (armLoadStoreMultiple h p stm) ∧
    ∀ values : RegNum → Word,
      Restored p stm (armLoadStoreMultiple h p stm).2.mem
        (armLoadStoreMultiple h' (disturbed (armLoadStoreMultiple h p stm).2 stm values) ldm)

section Disturbed

variable (p : ArmCore) (stm : Word) (values : RegNum → Word)

theorem disturbed_regs : ∀ kv ∈ ((listed stm).filter fun r => r ≠ rnNum stm).map
    fun r => (r, values r), kv.1 ≠ 16 ∧ kv.1 ≠ rnNum stm := by
  rw [List.forall_mem_map]
  intro r hr
  obtain ⟨hlisted, hne⟩ := List.mem_filter.mp hr
  have hlt := ((mem_listedRegs _ r).mp hlisted).1
  exact ⟨(ne_of_val_lt (a := r) (by omega)).1, of_decide_eq_true hne⟩

theorem disturbed_mode : (disturbed p stm values).mode = p.mode :=
  writeRegs_mode p _ fun kv hkv => (disturbed_regs stm values kv hkv).1

theorem disturbed_base : armReadRegister (disturbed p stm values) (rnNum stm) = baseValue p stm :=
  writeRegs_keeps p (rnNum stm) _ (fun kv hkv => (disturbed_regs stm values kv hkv).1)
    fun kv hkv => (disturbed_regs stm values kv hkv).2

theorem disturbed_mem : (disturbed p stm values).mem = p.mem := by
  rw [disturbed, writeRegs_eq p _ fun kv hkv => (disturbed_regs stm values kv hkv).1]

theorem disturbed_cpsr : (disturbed p stm values).cpsr = p.cpsr := by
  rw [disturbed, writeRegs_eq p _ fun kv hkv => (disturbed_regs stm values kv hkv).1]
  refine Cells.writeAll_frame bank p.reg.registre _ CPSR ?_
  rw [List.forall_mem_map]
  exact fun kv hkv hb => (disturbed_regs stm values kv hkv).1 ((bank_eq_cpsr _ _).mp hb)

end Disturbed

namespace SaveRestore

variable {p : ArmCore} {stm ldm : Word}

theorem stored (hs : SaveRestore p stm ldm) (h : Host) :
    blockWritten h p stm = p.storePlan h.ENDIANESS (blockPlan p stm) := by
  rw [blockWritten, if_neg (by rw [hs.stm_w]; decide), blockMoved,
    if_neg (by rw [hs.stm_l]; decide)]

theorem saved (hs : SaveRestore p stm ldm) (h : Host) (h5 : condField stm ≠ 5) :
    Saved h p stm (armLoadStoreMultiple h p stm) := by
  have hbytes (b : Word) (hb : ¬ TargetByte p stm b) := hs.store.moved_data h b hb
  have hmoved : blockMoved h p stm = p.storePlan h.ENDIANESS (blockPlan p stm) :=
    if_neg (by rw [hs.stm_l]; decide)
  have hplan (k : Fin (listed stm).length) :
      ((listed stm).get (placed stm k), wordAddress p stm k) ∈ blockPlan p stm :=
    (mem_blockPlan_placed _).mpr ⟨k, rfl⟩
  have hwords (k : Fin (listed stm).length) := storePlan_word h.ENDIANESS p stm _ (hplan k)
  rw [hmoved] at hbytes
  rw [hs.store.result h h5, hs.stored h]
  exact {
    code := rfl
    registers := rfl
    size := rfl
    words := hwords
    bytes := hbytes }

theorem load_at (hs : SaveRestore p stm ldm) (q : ArmCore) (hm : q.mode = p.mode)
    (hc : q.cpsr = p.cpsr) (hbase : armReadRegister q (rnNum stm) = baseValue p stm)
    (hsize : q.mem.size = p.mem.size) :
    blockPlan q ldm = blockPlan p stm ∧ MultipleTransfer q ldm := by
  have hb : baseValue q ldm = baseValue p stm := by
    rw [baseValue, hs.base]
    exact hbase
  have hb' : baseValue q ldm = baseValue p ldm := by
    rw [hb, baseValue, baseValue, hs.base]
  have hfirst : firstAddress q ldm = firstAddress p ldm := by
    rw [firstAddress, firstAddress, hb']
  constructor
  · rw [blockPlan, blockPlan, startAddress, startAddress, blockPas_eq, blockPas_eq, hs.list,
      hs.p_bit, hs.u, hb]
  · exact {
      mode := by rw [hm]; exact hs.load.mode
      opcode := hs.load.opcode
      s := hs.load.s
      passed := by
        have hp := hs.load.passed
        rw [Passed, ← hc] at hp
        exact hp
      base := hs.load.base
      nonempty := hs.load.nonempty
      low := hs.load.low
      base_out := hs.load.base_out
      inside := by rw [hfirst, hsize]; exact hs.load.inside
      no_wrap := by rw [hfirst]; exact hs.load.no_wrap }

theorem load_disturbed (hs : SaveRestore p stm ldm) (h : Host) (h5 : condField stm ≠ 5)
    (values : RegNum → Word) :
    blockPlan (disturbed (armLoadStoreMultiple h p stm).2 stm values) ldm = blockPlan p stm ∧
      MultipleTransfer (disturbed (armLoadStoreMultiple h p stm).2 stm values) ldm := by
  have hreg := (hs.saved h h5).registers
  have hsize := (hs.saved h h5).size
  generalize (armLoadStoreMultiple h p stm).2 = q at hreg hsize
  refine hs.load_at _ ?_ ?_ ?_ ?_
  · rw [disturbed_mode, ArmCore.mode, hreg]
    rfl
  · rw [disturbed_cpsr, ArmCore.cpsr, hreg]
    rfl
  · rw [disturbed_base, baseValue, armReadRegister, armReadRegisterInternal, hreg]
    rfl
  · rw [disturbed_mem]
    exact hsize

theorem restored (hs : SaveRestore p stm ldm) (h h' : Host) (hbe : h'.ENDIANESS = h.ENDIANESS)
    (h5 : condField stm ≠ 5) (h5' : condField ldm ≠ 5) (values : RegNum → Word) :
    Restored p stm (armLoadStoreMultiple h p stm).2.mem
      (armLoadStoreMultiple h' (disturbed (armLoadStoreMultiple h p stm).2 stm values) ldm) := by
  obtain ⟨hplan, hload⟩ := hs.load_disturbed h h5 values
  have hmem := disturbed_mem (armLoadStoreMultiple h p stm).2 stm values
  have hstm : (armLoadStoreMultiple h p stm).2 = p.storePlan h.ENDIANESS (blockPlan p stm) := by
    rw [hs.store.result h h5, hs.stored h]
  generalize disturbed (armLoadStoreMultiple h p stm).2 stm values = q at hplan hload hmem
  have hwritten : blockWritten h' q ldm = q.loadPlan h.ENDIANESS (blockPlan q ldm) := by
    rw [blockWritten, if_neg (by rw [hs.ldm_w]; decide), blockMoved, if_pos hs.ldm_l, hbe]
  rw [hload.result h' h5', hwritten]
  refine ⟨rfl, fun reg hreg => ?_, ?_⟩
  · obtain ⟨k, hk⟩ := List.mem_iff_get.mp hreg
    have hx : (reg, wordAddress p stm (placed stm k)) ∈ blockPlan p stm := by
      rw [mem_blockPlan_placed]
      exact ⟨placed stm k, by rw [placed_placed, hk]⟩
    have hread := loadPlan_read h.ENDIANESS q ldm hload.mode _ (by rw [hplan]; exact hx)
    have hword := storePlan_word h.ENDIANESS p stm _ hx
    rw [hread, hmem, hstm]
    exact hword
  · rw [loadPlan_mem, hmem]

end SaveRestore

theorem load_undoes_store_iff (h h' : Host) (hbe : h'.ENDIANESS = h.ENDIANESS) (p : ArmCore)
    (stm ldm : Word) (hs : SaveRestore p stm ldm) :
    LoadUndoesStore h h' p stm ldm ↔ condField stm ≠ 5 ∧ condField ldm ≠ 5 := by
  constructor
  · rintro ⟨hsaved, hrestored⟩
    have h5 := hs.store.not_never h hsaved.code
    have hload := (hs.load_disturbed h h5 fun _ => 0).2
    exact ⟨h5, hload.not_never h' (hrestored fun _ => 0).code⟩
  · rintro ⟨h5, h5'⟩
    exact ⟨hs.saved h h5, hs.restored h h' hbe h5 h5'⟩

-- STMIA R1, {R1, R2} and LDMIA R1, {R1, R2} with 4 in R1.
theorem load_undoes_store_base_listed :
    LoadUndoesStore Host.blank Host.blank (armWriteRegister (afterReset [0, 0, 0]) 1 4)
      0xE8810006 0xE8910006 :=
  (load_undoes_store_iff Host.blank Host.blank rfl (armWriteRegister (afterReset [0, 0, 0]) 1 4)
    0xE8810006 0xE8910006
    ⟨⟨by decide, by decide, by decide, by decide, by decide, by decide, by decide, by decide,
        by decide, by decide⟩,
      ⟨by decide, by decide, by decide, by decide, by decide, by decide, by decide, by decide,
        by decide, by decide⟩,
      by decide, by decide, by decide, by decide, by decide, by decide, by decide, by decide⟩).mpr
    (by decide)

-- STMPL R1, {R2} and LDMPL R1, {R2} with N clear: the condition holds and is refused.
theorem load_undoes_store_plus :
    SaveRestore (afterReset [0]) 0x58810004 0x58910004 ∧
      ¬ LoadUndoesStore Host.blank Host.blank (afterReset [0]) 0x58810004 0x58910004 := by
  refine ⟨⟨⟨by decide, by decide, by decide, by decide, by decide, by decide, by decide, by decide,
        by decide, by decide⟩,
      ⟨by decide, by decide, by decide, by decide, by decide, by decide, by decide, by decide,
        by decide, by decide⟩,
      by decide, by decide, by decide, by decide, by decide, by decide, by decide, by decide⟩, ?_⟩
  rintro ⟨hsaved, -⟩
  exact absurd hsaved.code (by decide)

end Armator
