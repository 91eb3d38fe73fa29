import Armator.Architecture.Widths
import Armator.Simulator.Create

namespace Armator

open ByteLanes

def byteOrder (w : Width) (be : Bool) (value : w.Value) (i : Nat) : Byte :=
  lane value (laneIndex w.bytes be i)

structure RoundTrip (mem : Memory) (address : Word) (be : Bool) (w : Width) (value : w.Value) :
    Prop where
  code : (memoryWrite mem address be w value).1 = 0
  same : ∀ old, memoryRead (memoryWrite mem address be w value).2 address be w old = (0, value)
  opposite : ∀ old, memoryRead (memoryWrite mem address be w value).2 address (!be) w old =
    (0, reverseLanes w.bytes value)
  bytes : ∀ i < w.bytes, ∀ old,
    memoryReadByte (memoryWrite mem address be w value).2 (address + BitVec.ofNat 32 i) old =
      (0, byteOrder w be value i)
  size : (memoryWrite mem address be w value).2.size = mem.size
  frame : ∀ b : Word, b.toNat < address.toNat ∨ address.toNat + w.bytes ≤ b.toNat →
    (memoryWrite mem address be w value).2.data b = mem.data b
  read : ∀ old, memoryRead mem address be w old =
    (0, glue (8 * w.bytes) w.bytes fun i =>
      (memoryReadByte mem (address + BitVec.ofNat 32 (laneIndex w.bytes be i)) 0).2)

section Inside

variable {mem : Memory} {address : Word} {w : Width}

theorem inRange_of_inside (ha : address.toNat + w.bytes ≤ mem.size) : ¬ mem.horsPlage address := by
  have hp := w.bytes_pos
  rw [Memory.horsPlage_iff]
  omega

theorem toNat_add_small (address : Word) (i : Nat) (h : address.toNat + i < 2 ^ 32) :
    (address + BitVec.ofNat 32 i).toNat = address.toNat + i := by
  rw [BitVec.toNat_add, BitVec.toNat_ofNat]
  omega

theorem cell_inRange (hs : mem.size ≤ 2 ^ 32) (ha : address.toNat + w.bytes ≤ mem.size) (i : Nat)
    (hi : i < w.bytes) : ¬ mem.horsPlage (address + BitVec.ofNat 32 i) := by
  rw [Memory.horsPlage_iff, toNat_add_small address i (by omega)]
  omega

theorem laneIndex_not (n : Nat) (be : Bool) (i : Nat) (hi : i < n) :
    laneIndex n (!be) i = laneIndex n be (n - 1 - i) := by
  cases be <;> simp only [laneIndex] <;> simp
  omega

theorem valueAt_opposite (mem : Memory) (address : Word) (be : Bool) (w : Width) :
    mem.valueAt address (!be) w = reverseLanes w.bytes (mem.valueAt address be w) := by
  apply lane_ext (Nat.le_refl (8 * w.bytes))
  intro i hi
  rw [lane_valueAt _ _ _ _ _ hi, reverseLanes, lane_glue _ _ _ hi (Nat.le_refl _),
    lane_valueAt _ _ _ _ _ (by omega), laneIndex_not _ _ _ hi]

theorem writeCells_frame (mem : Memory) (be : Bool) (value : w.Value) (b : Word)
    (hw : address.toNat + w.bytes ≤ 2 ^ 32)
    (hb : b.toNat < address.toNat ∨ address.toNat + w.bytes ≤ b.toNat) :
    (mem.writeCells (cells w.bytes be address value)).data b = mem.data b := by
  apply Cells.writeAll_frame
  intro c hc he
  obtain ⟨i, hi, rfl⟩ := List.mem_map.mp hc
  have hi' := List.mem_range.mp hi
  have ht := congrArg BitVec.toNat (Option.some.inj he)
  rw [toNat_add_small address i (by omega)] at ht
  omega

end Inside

theorem memory_round_trip (mem : Memory) (address : Word) (be : Bool) (w : Width)
    (value : w.Value) (hs : mem.size ≤ 2 ^ 32) (ha : address.toNat + w.bytes ≤ mem.size) :
    RoundTrip mem address be w value := by
  have hin := inRange_of_inside ha
  have hwrite := memoryWrite_inside mem address be w value hin
  have hholds : (mem.writeCells (cells w.bytes be address value)).holds w.bytes be address value :=
    writeCells_holds mem w.bytes be address value w.bytes_lt
  have hvalue := (valueAt_eq_iff _ address be w value).mpr hholds
  have hread (old : w.Value) (e : Bool) :=
    memoryRead_inside (mem.writeCells (cells w.bytes be address value)) address e w old hin
  refine ⟨?_, ?_, ?_, ?_, ?_, ?_, ?_⟩
  · rw [hwrite]
  · intro old
    rw [hwrite, hread, hvalue]
  · intro old
    rw [hwrite, hread, valueAt_opposite, hvalue]
  · intro i hi old
    rw [hwrite]
    exact (if_neg (cell_inRange hs ha i hi)).trans (congrArg (Prod.mk 0) (hholds i hi))
  · rw [hwrite]
    rfl
  · intro b hb
    rw [hwrite]
    exact writeCells_frame mem be value b (by omega) hb
  · intro old
    rw [memoryRead_inside mem address be w old hin, Memory.valueAt]
    congr 1
    apply lane_ext (Nat.le_refl (8 * w.bytes))
    intro i hi
    have hl := laneIndex_lt w.bytes be i hi
    rw [lane_glue _ _ _ hi (Nat.le_refl _), lane_glue _ _ _ hi (Nat.le_refl _), memoryReadByte,
      if_neg (cell_inRange hs ha _ hl)]

theorem half_at_last_address : RoundTrip (Memory.ofWords [0]) 2 true .half 0x1234#16 :=
  memory_round_trip (Memory.ofWords [0]) 2 true .half 0x1234#16 (by decide) (by decide)

end Armator
