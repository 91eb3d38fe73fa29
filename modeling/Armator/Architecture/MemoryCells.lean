import Armator.Library.ByteLanes
import Armator.Library.Cells
import Armator.Simulator.Core

namespace Armator

open BitFields ByteLanes

def laneIndex (n : Nat) (be : Bool) (i : Nat) : Nat := if be then n - 1 - i else i

theorem laneIndex_lt (n : Nat) (be : Bool) (i : Nat) (hi : i < n) : laneIndex n be i < n := by
  unfold laneIndex
  split <;> omega

theorem laneIndex_laneIndex (n : Nat) (be : Bool) (i : Nat) (hi : i < n) :
    laneIndex n be (laneIndex n be i) = i := by
  unfold laneIndex
  split <;> omega

def cells {w : Nat} (n : Nat) (be : Bool) (address : Word) (value : BitVec w) :
    List (Word × Byte) :=
  (List.range n).map fun i => (address + BitVec.ofNat 32 i, lane value (laneIndex n be i))

namespace Memory

def word (mem : Memory) (be : Bool) (address : Word) : Word :=
  join fun i => mem.data (address + BitVec.ofNat 32 (laneIndex 4 be i))

def holds {w : Nat} (mem : Memory) (n : Nat) (be : Bool) (address : Word) (value : BitVec w) :
    Prop :=
  ∀ i < n, mem.data (address + BitVec.ofNat 32 i) = lane value (laneIndex n be i)

def writeCells (mem : Memory) (cs : List (Word × Byte)) : Memory :=
  { mem with data := Cells.writeAll some mem.data cs }

end Memory

theorem getBits_lane (value : Word) (h l i : Nat) (hl : l = 8 * i) (hh : l + 8 ≤ h + 1) :
    (getBits value h l).setWidth 8 = lane value i := by
  apply bit_ext
  intro k hk
  have hlt : k < h - l + 1 := by omega
  rw [bit_setWidth _ _ _ hk, bit_getBits, bit_lane _ _ _ hk, hl]
  subst hl
  simp [hlt]

theorem memoryWriteWord_cells (mem : Memory) (address value : Word) (be : Bool)
    (h : ¬ mem.horsPlage address) :
    memoryWriteWord mem address value be = (0, mem.writeCells (cells 4 be address value)) := by
  rw [memoryWriteWord, if_neg h]
  cases be with
  | false =>
      simp only [List.range, List.range.loop, List.foldl, cells, List.map, laneIndex,
        Bool.false_eq_true, if_false, Memory.set, Memory.writeCells, Cells.writeAll_cons,
        Cells.writeAll_nil]
      rw [getBits_lane value _ _ 0 rfl (by decide), getBits_lane value _ _ 1 rfl (by decide),
        getBits_lane value _ _ 2 rfl (by decide), getBits_lane value _ _ 3 rfl (by decide)]
      rfl
  | true =>
      simp only [List.range, List.range.loop, List.foldl, cells, List.map, laneIndex,
        if_true, Memory.set, Memory.writeCells, Cells.writeAll_cons, Cells.writeAll_nil]
      rw [getBits_lane value _ _ 3 rfl (by decide), getBits_lane value _ _ 2 rfl (by decide),
        getBits_lane value _ _ 1 rfl (by decide), getBits_lane value _ _ 0 rfl (by decide)]
      rfl

theorem lane_setWidth (value : Half) (i : Nat) : lane (value.setWidth 32 : Word) i = lane value i := by
  apply BitVec.eq_of_toNat_eq
  rw [lane_toNat, lane_toNat, BitVec.toNat_setWidth,
    Nat.mod_eq_of_lt (Nat.lt_trans value.isLt (by decide))]

theorem memoryWriteHalf_cells (mem : Memory) (address : Word) (value : Half) (be : Bool)
    (h : ¬ mem.horsPlage address) :
    memoryWriteHalf mem address value be = (0, mem.writeCells (cells 2 be address value)) := by
  rw [memoryWriteHalf, if_neg h]
  cases be with
  | false =>
      simp only [List.range, List.range.loop, List.foldl, cells, List.map, laneIndex,
        Bool.false_eq_true, if_false, Memory.set, Memory.writeCells, Cells.writeAll_cons,
        Cells.writeAll_nil]
      rw [getBits_lane _ _ _ 0 rfl (by decide), getBits_lane _ _ _ 1 rfl (by decide),
        lane_setWidth, lane_setWidth]
      rfl
  | true =>
      simp only [List.range, List.range.loop, List.foldl, cells, List.map, laneIndex,
        if_true, Memory.set, Memory.writeCells, Cells.writeAll_cons, Cells.writeAll_nil]
      rw [getBits_lane _ _ _ 1 rfl (by decide), getBits_lane _ _ _ 0 rfl (by decide),
        lane_setWidth, lane_setWidth]
      rfl

theorem lane_reverse4 (x : Word) (i : Nat) (hi : i < 4) : lane (reverse4 x) i = lane x (3 - i) := by
  have hm : (0xFF : Word) = ~~~((BitVec.allOnes 32 >>> 8) <<< 8) := by decide
  apply bit_ext
  intro k hk
  have hi32 : 8 * i + k < 32 := by omega
  rw [bit_lane _ _ _ hk, bit_lane _ _ _ hk, reverse4, hm, bit_or, bit_or, bit_or,
    bit_shiftLeft _ _ _ hi32, bit_shiftLeft _ _ _ hi32, bit_shiftLeft _ _ _ hi32]
  simp only [bit_low_mask, bit_ushiftRight]
  interval_cases i
  · have h1 : ¬ 24 ≤ k := by omega
    have h2 : ¬ 16 ≤ k := by omega
    have h3 : ¬ 8 ≤ k := by omega
    simp [h1, h2, h3, hk]
  · have h1 : ¬ 24 ≤ 8 + k := by omega
    have h2 : ¬ 16 ≤ 8 + k := by omega
    simp [h1, h2, hk]
  · have h1 : ¬ 24 ≤ 16 + k := by omega
    have h2 : 16 + k - 8 = 8 + k := by omega
    have h3 : ¬ 16 + k < 8 := by omega
    simp [h1, h2, h3, hk]
  · have h1 : 24 + k - 8 = 16 + k := by omega
    have h2 : 24 + k - 16 = 8 + k := by omega
    have h3 : ¬ 16 + k < 8 := by omega
    have h4 : ¬ 24 + k < 8 := by omega
    simp [h1, h2, h3, h4, hk]

theorem word_big_endian (d : Nat → Byte) :
    (List.range 4).foldl (fun (tmp : Word) i => tmp + (d i).setWidth 32 <<< ((3 - i) * 8)) 0 =
      join fun i => d (3 - i) := by
  have h0 := (d 0).isLt
  have h1 := (d 1).isLt
  have h2 := (d 2).isLt
  have h3 := (d 3).isLt
  apply BitVec.eq_of_toNat_eq
  rw [join_toNat]
  simp only [Nat.reduceSub, List.range, List.range.loop, List.foldl, BitVec.toNat_add,
    BitVec.toNat_shiftLeft, BitVec.toNat_setWidth, Nat.shiftLeft_eq, BitVec.ofNat_eq_ofNat,
    BitVec.toNat_ofNat]
  omega

theorem memoryReadWord_word (mem : Memory) (address value : Word) (be : Bool)
    (h : ¬ mem.horsPlage address) :
    memoryReadWord mem address value be = (0, mem.word be address) := by
  rw [memoryReadWord, if_neg h]
  dsimp only
  rw [word_big_endian fun i => mem.data (address + BitVec.ofNat 32 i), Memory.word]
  cases be with
  | true => rfl
  | false =>
      congr 1
      apply lane_ext (show 32 ≤ 8 * 4 by decide)
      intro i hi
      have hi' : 3 - i < 4 := by omega
      have hii : 3 - (3 - i) = i := by omega
      simp only [Bool.false_eq_true, if_false]
      rw [lane_reverse4 _ i hi, lane_join _ _ hi', lane_join _ _ hi, hii]
      rfl

theorem word_eq_iff (mem : Memory) (be : Bool) (address value : Word) :
    mem.word be address = value ↔ mem.holds 4 be address value := by
  rw [Memory.word, join_eq_iff]
  constructor <;>
  · intro h i hi
    have hl := h (laneIndex 4 be i) (laneIndex_lt 4 be i hi)
    rwa [laneIndex_laneIndex 4 be i hi] at hl

section Cells

variable {w : Nat} (mem : Memory) (n : Nat) (be : Bool) (address : Word) (value : BitVec w)

theorem holds_iff_cells :
    mem.holds n be address value ↔ ∀ c ∈ cells n be address value, mem.data c.1 = c.2 := by
  simp [Memory.holds, cells]

theorem cells_apart (hn : n < 2 ^ 32) : Cells.Apart some (cells n be address value) := by
  unfold Cells.Apart cells
  rw [List.pairwise_map]
  apply List.Pairwise.imp_of_mem _ List.pairwise_lt_range
  intro i j hi hj hij he
  have hin := List.mem_range.mp hi
  have hjn := List.mem_range.mp hj
  have ha : BitVec.ofNat 32 i = BitVec.ofNat 32 j :=
    (BitVec.add_right_inj address).mp (Option.some.inj he)
  have ht := congrArg BitVec.toNat ha
  rw [BitVec.toNat_ofNat, BitVec.toNat_ofNat, Nat.mod_eq_of_lt (by omega),
    Nat.mod_eq_of_lt (by omega)] at ht
  omega

theorem memory_data_eq_iff (data : Word → Byte) :
    ({ mem with data := data } : Memory) = mem ↔ data = mem.data := by
  constructor
  · intro he
    rw [← he]
  · rintro rfl
    rfl

theorem writeCells_eq_self_iff (hn : n < 2 ^ 32) :
    mem.writeCells (cells n be address value) = mem ↔ mem.holds n be address value := by
  rw [Memory.writeCells, memory_data_eq_iff, holds_iff_cells,
    Cells.writeAll_eq_self_iff some _ _ (cells_apart n be address value hn)]
  simp only [Cells.write_eq_self_iff, Option.some.injEq, forall_eq']

theorem writeCells_holds (hn : n < 2 ^ 32) :
    (mem.writeCells (cells n be address value)).holds n be address value := by
  rw [holds_iff_cells]
  intro c hc
  exact Cells.writeAll_at some mem.data _ (cells_apart n be address value hn) c hc c.1 rfl

end Cells

theorem memoryWriteWord_eq_self_iff (mem : Memory) (address value : Word) (be : Bool)
    (h : ¬ mem.horsPlage address) :
    (memoryWriteWord mem address value be).2 = mem ↔ mem.word be address = value := by
  rw [memoryWriteWord_cells _ _ _ _ h, word_eq_iff]
  exact writeCells_eq_self_iff mem 4 be address value (by decide)

theorem memoryWriteHalf_eq_self_iff (mem : Memory) (address : Word) (value : Half) (be : Bool)
    (h : ¬ mem.horsPlage address) :
    (memoryWriteHalf mem address value be).2 = mem ↔ mem.holds 2 be address value := by
  rw [memoryWriteHalf_cells _ _ _ _ h]
  exact writeCells_eq_self_iff mem 2 be address value (by decide)

theorem memoryWriteByte_eq_self_iff (mem : Memory) (address : Word) (value : Byte)
    (h : ¬ mem.horsPlage address) :
    (memoryWriteByte mem address value).2 = mem ↔ mem.data address = value := by
  rw [memoryWriteByte, if_neg h, Memory.set, memory_data_eq_iff, Function.update_eq_self_iff]
  exact eq_comm

theorem word_write_same (mem : Memory) (address value : Word) (be : Bool)
    (h : ¬ mem.horsPlage address) :
    (memoryWriteWord mem address value be).2.word be address = value := by
  rw [word_eq_iff, memoryWriteWord_cells _ _ _ _ h]
  exact writeCells_holds mem 4 be address value (by decide)

theorem memoryWriteWord_inj (mem : Memory) (address u v : Word) (be : Bool)
    (h : ¬ mem.horsPlage address) :
    (memoryWriteWord mem address u be).2 = (memoryWriteWord mem address v be).2 ↔ u = v := by
  constructor
  · intro he
    have hr := word_write_same mem address u be h
    rw [he, word_write_same mem address v be h] at hr
    exact hr.symm
  · rintro rfl
    rfl

theorem memoryWriteByte_inj (mem : Memory) (address : Word) (u v : Byte)
    (h : ¬ mem.horsPlage address) :
    (memoryWriteByte mem address u).2 = (memoryWriteByte mem address v).2 ↔ u = v := by
  constructor
  · intro he
    rw [memoryWriteByte, if_neg h, memoryWriteByte, if_neg h] at he
    have hd := congrArg (fun m : Memory => m.data address) he
    simpa [Memory.set] using hd
  · rintro rfl
    rfl

end Armator
