import Armator.Architecture.MemoryCells

namespace Armator

open BitFields ByteLanes

inductive Width where
  | byte
  | half
  | word
deriving DecidableEq, Repr

namespace Width

def bytes : Width → Nat
  | .byte => 1
  | .half => 2
  | .word => 4

abbrev Value (w : Width) := BitVec (8 * w.bytes)

theorem bytes_pos (w : Width) : 0 < w.bytes := by
  cases w <;> decide

theorem bytes_lt (w : Width) : w.bytes < 2 ^ 32 := by
  cases w <;> decide

end Width

theorem add_ofNat_zero (a : Word) : a + BitVec.ofNat 32 0 = a := BitVec.add_zero a

section Access

variable (mem : Memory) (address : Word) (be : Bool)

def memoryRead : (w : Width) → w.Value → Int × w.Value
  | .byte, value => memoryReadByte mem address value
  | .half, value => memoryReadHalf mem address value be
  | .word, value => memoryReadWord mem address value be

def memoryWrite : (w : Width) → w.Value → Int × Memory
  | .byte, value => memoryWriteByte mem address value
  | .half, value => memoryWriteHalf mem address value be
  | .word, value => memoryWriteWord mem address value be

def Memory.valueAt (w : Width) : w.Value :=
  glue (8 * w.bytes) w.bytes fun i =>
    mem.data (address + BitVec.ofNat 32 (laneIndex w.bytes be i))

theorem lane_valueAt (w : Width) (i : Nat) (hi : i < w.bytes) :
    lane (mem.valueAt address be w) i =
      mem.data (address + BitVec.ofNat 32 (laneIndex w.bytes be i)) :=
  lane_glue w.bytes _ i hi (Nat.le_refl _)

theorem memoryRead_outside (w : Width) (value : w.Value) (h : mem.horsPlage address) :
    memoryRead mem address be w value = (-1, value) := by
  cases w <;> exact if_pos h

theorem memoryWrite_outside (w : Width) (value : w.Value) (h : mem.horsPlage address) :
    memoryWrite mem address be w value = (-1, mem) := by
  cases w <;> exact if_pos h

theorem half_big_endian (d : Nat → Byte) :
    ((d 1).setWidth 16 + (d 0).setWidth 16 <<< 8 : Half) = glue 16 2 fun i => d (1 - i) := by
  have h0 := (d 0).isLt
  have h1 := (d 1).isLt
  apply lane_ext (show 16 ≤ 8 * 2 by decide)
  intro i hi
  rw [lane_glue 2 _ i hi (by decide)]
  apply BitVec.eq_of_toNat_eq
  rw [lane_toNat]
  simp only [BitVec.toNat_add, BitVec.toNat_shiftLeft, BitVec.toNat_setWidth, Nat.shiftLeft_eq]
  interval_cases i <;> simp only [Nat.sub_zero, Nat.sub_self] <;> omega

theorem lane_reverse2 (x : Half) (i : Nat) (hi : i < 2) : lane (reverse2 x) i = lane x (1 - i) := by
  have hm : (0xFF : Half) = ~~~((BitVec.allOnes 16 >>> 8) <<< 8) := by decide
  apply bit_ext
  intro k hk
  have hi16 : 8 * i + k < 16 := by omega
  rw [bit_lane _ _ _ hk, bit_lane _ _ _ hk, reverse2, hm, bit_or, bit_shiftLeft _ _ _ hi16]
  simp only [bit_low_mask, bit_ushiftRight]
  interval_cases i
  · have h1 : ¬ 8 ≤ k := by omega
    simp [h1, hk]
  · have h1 : ¬ 8 + k < 8 := by omega
    simp [h1, hk]

theorem memoryReadHalf_inside (value : Half) (h : ¬ mem.horsPlage address) :
    memoryReadHalf mem address value be = (0, mem.valueAt address be .half) := by
  rw [memoryReadHalf, if_neg h]
  have hd := half_big_endian fun i => mem.data (address + BitVec.ofNat 32 i)
  dsimp only at hd ⊢
  rw [add_ofNat_zero] at hd
  rw [show (address + 1 : Word) = address + BitVec.ofNat 32 1 from rfl, hd]
  cases be with
  | true => rfl
  | false =>
      congr 1
      apply lane_ext (show 16 ≤ 8 * 2 by decide)
      intro i hi
      have hi' : 1 - i < 2 := by omega
      have hii : 1 - (1 - i) = i := by omega
      simp only [Bool.false_eq_true, if_false]
      rw [lane_reverse2 _ i hi, lane_glue 2 _ _ hi' (by decide), hii]
      exact (lane_valueAt mem address false .half i hi).symm

theorem word_eq_valueAt : mem.word be address = mem.valueAt address be .word := by
  apply lane_ext (show 32 ≤ 8 * 4 by decide)
  intro i hi
  rw [Memory.word, lane_join _ _ hi]
  exact (lane_valueAt mem address be .word i hi).symm

theorem lane_byte (value : Byte) : lane value 0 = value := by
  rw [lane, Nat.mul_zero, BitVec.ushiftRight_zero, BitVec.setWidth_eq]

theorem byte_eq_valueAt : mem.data address = mem.valueAt address be .byte := by
  have hl := lane_valueAt mem address be .byte 0 (by decide)
  have h0 : laneIndex Width.byte.bytes be 0 = 0 := by cases be <;> rfl
  rw [h0, add_ofNat_zero] at hl
  rw [← hl]
  exact lane_byte _

theorem memoryWriteByte_inside (value : Byte) (h : ¬ mem.horsPlage address) :
    memoryWriteByte mem address value = (0, mem.writeCells (cells 1 be address value)) := by
  rw [memoryWriteByte, if_neg h]
  simp only [Memory.writeCells, cells, List.range, List.range.loop, List.map, Cells.writeAll_cons,
    Cells.writeAll_nil, laneIndex, Nat.sub_self, ite_self, add_ofNat_zero, lane_byte]
  rfl

theorem memoryRead_inside (w : Width) (value : w.Value) (h : ¬ mem.horsPlage address) :
    memoryRead mem address be w value = (0, mem.valueAt address be w) := by
  cases w with
  | byte =>
      rw [← byte_eq_valueAt]
      exact if_neg h
  | half => exact memoryReadHalf_inside mem address be value h
  | word =>
      rw [← word_eq_valueAt]
      exact memoryReadWord_word mem address value be h

theorem memoryWrite_inside (w : Width) (value : w.Value) (h : ¬ mem.horsPlage address) :
    memoryWrite mem address be w value =
      (0, mem.writeCells (cells w.bytes be address value)) := by
  cases w with
  | byte => exact memoryWriteByte_inside mem address be value h
  | half => exact memoryWriteHalf_cells mem address value be h
  | word => exact memoryWriteWord_cells mem address value be h

theorem valueAt_eq_iff (w : Width) (value : w.Value) :
    mem.valueAt address be w = value ↔ mem.holds w.bytes be address value := by
  rw [Memory.valueAt, glue_eq_iff]
  constructor <;>
  · intro h i hi
    have hl := h (laneIndex w.bytes be i) (laneIndex_lt w.bytes be i hi)
    rwa [laneIndex_laneIndex w.bytes be i hi] at hl

end Access

end Armator
