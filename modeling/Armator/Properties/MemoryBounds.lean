import Armator.Architecture.Widths
import Armator.Simulator.Create
import Armator.Simulator.Journal

namespace Armator

namespace Journal

def read (j : Journal) (address : Word) (be : Bool) :
    (w : Width) → w.Value → (Int × w.Value) × Journal
  | .byte, value => j.readByte address value
  | .half, value => j.readHalf address value be
  | .word, value => j.readWord address value be

def write (j : Journal) (address : Word) (be : Bool) : (w : Width) → w.Value → Int × Journal
  | .byte, value => j.writeByte address value
  | .half, value => j.writeHalf address value be
  | .word, value => j.writeWord address value be

section Erasure

variable (j : Journal) (address : Word) (be : Bool) (w : Width) (value : w.Value)

theorem read_erased :
    (j.read address be w value).1 = memoryRead j.mem address be w value ∧
      (j.read address be w value).2.mem = j.mem := by
  cases w with
  | byte =>
      simp only [read, readByte, memoryRead, memoryReadByte]
      split <;> exact ⟨rfl, rfl⟩
  | half =>
      simp only [read, readHalf, memoryRead, memoryReadHalf]
      split <;> exact ⟨rfl, rfl⟩
  | word =>
      simp only [read, readWord, memoryRead, memoryReadWord]
      split <;> exact ⟨rfl, rfl⟩

theorem write_erased :
    ((j.write address be w value).1, (j.write address be w value).2.mem) =
      memoryWrite j.mem address be w value := by
  cases w with
  | byte =>
      simp only [write, writeByte, memoryWrite, memoryWriteByte]
      split <;> rfl
  | half =>
      simp only [write, writeHalf, memoryWrite, memoryWriteHalf]
      split
      · rfl
      · cases be <;> rfl
  | word =>
      simp only [write, writeWord, memoryWrite, memoryWriteWord]
      split
      · rfl
      · cases be <;> rfl

def touched (w : Width) (address : Word) : List Word :=
  (List.range w.bytes).map fun i => address + BitVec.ofNat 32 i

theorem mem_read_indices (i : Word) :
    i ∈ (j.read address be w value).2.indices ↔
      i ∈ j.indices ∨ (¬ j.mem.horsPlage address ∧ i ∈ touched w address) := by
  cases w with
  | byte =>
      simp only [read, readByte, touched, Width.bytes, List.range, List.range.loop, List.map,
        add_ofNat_zero, lire]
      split <;> simp_all
  | half =>
      simp only [read, readHalf, touched, Width.bytes, List.range, List.range.loop, List.map,
        add_ofNat_zero, lire]
      split
      · simp_all
      · rename_i hin
        simp only [List.mem_append, List.mem_cons, List.not_mem_nil, or_false, or_assoc, hin,
          not_false_eq_true, true_and]
        exact or_congr_right or_comm
  | word =>
      simp only [read, readWord, touched, Width.bytes, List.range, List.range.loop, List.map,
        List.foldl, add_ofNat_zero, lire]
      split <;> simp_all

theorem mem_write_indices (i : Word) :
    i ∈ (j.write address be w value).2.indices ↔
      i ∈ j.indices ∨ (¬ j.mem.horsPlage address ∧ i ∈ touched w address) := by
  cases w with
  | byte =>
      simp only [write, writeByte, touched, Width.bytes, List.range, List.range.loop, List.map,
        add_ofNat_zero, ecrire]
      split <;> simp_all
  | half =>
      simp only [write, writeHalf, touched, Width.bytes, List.range, List.range.loop, List.map,
        List.foldl, add_ofNat_zero, ecrire]
      split
      · simp_all
      · cases be <;> simp_all
  | word =>
      simp only [write, writeWord, touched, Width.bytes, List.range, List.range.loop, List.map,
        List.foldl, add_ofNat_zero, ecrire]
      split
      · simp_all
      · cases be <;> simp_all

end Erasure

end Journal

def AllBelow (mem : Memory) (address : Word) (w : Width) : Prop :=
  ∀ k < w.bytes, address.toNat + k < mem.size

instance (mem : Memory) (address : Word) (w : Width) : Decidable (AllBelow mem address w) :=
  inferInstanceAs (Decidable (∀ k < w.bytes, _))

structure InBounds (mem : Memory) (address : Word) (be : Bool) (w : Width) : Prop where
  read_code : ∀ old, (memoryRead mem address be w old).1 =
    if AllBelow mem address w then 0 else -1
  write_code : ∀ value, (memoryWrite mem address be w value).1 =
    if AllBelow mem address w then 0 else -1
  kept : ¬ AllBelow mem address w → ∀ value, (memoryWrite mem address be w value).2 = mem
  read_indices : ∀ old, ∀ i ∈ (Journal.read ⟨mem, []⟩ address be w old).2.indices,
    i.toNat < mem.size
  write_indices : ∀ value, ∀ i ∈ (Journal.write ⟨mem, []⟩ address be w value).2.indices,
    i.toNat < mem.size

section Bounds

variable (mem : Memory) (address : Word) (be : Bool) (w : Width)

theorem allBelow_iff : AllBelow mem address w ↔ address.toNat + w.bytes ≤ mem.size := by
  have hp := w.bytes_pos
  constructor
  · intro h
    have hl := h (w.bytes - 1) (by omega)
    omega
  · intro h k hk
    omega

theorem touched_below (ha : AllBelow mem address w) (i : Word)
    (hi : i ∈ Journal.touched w address) : i.toNat < mem.size := by
  obtain ⟨k, hk, rfl⟩ := List.mem_map.mp hi
  have hlt := ha k (List.mem_range.mp hk)
  have hle : (address + BitVec.ofNat 32 k).toNat ≤ address.toNat + k := by
    rw [BitVec.toNat_add, BitVec.toNat_ofNat]
    omega
  omega

theorem inBounds_of_outside (hout : mem.size ≤ address.toNat) : InBounds mem address be w := by
  have hh := (Memory.horsPlage_iff mem address).mpr hout
  have hall : ¬ AllBelow mem address w := by
    intro ha
    have h0 := ha 0 w.bytes_pos
    omega
  refine ⟨fun old => ?_, fun value => ?_, fun _ value => ?_, fun old i hi => ?_,
    fun value i hi => ?_⟩
  · rw [memoryRead_outside mem address be w old hh, if_neg hall]
  · rw [memoryWrite_outside mem address be w value hh, if_neg hall]
  · rw [memoryWrite_outside mem address be w value hh]
  · rcases (Journal.mem_read_indices _ _ _ _ _ i).mp hi with hnil | hin
    · cases hnil
    · exact absurd hh hin.1
  · rcases (Journal.mem_write_indices _ _ _ _ _ i).mp hi with hnil | hin
    · cases hnil
    · exact absurd hh hin.1

theorem inBounds_of_inside (hall : AllBelow mem address w) : InBounds mem address be w := by
  have hh : ¬ mem.horsPlage address := by
    have h0 := hall 0 w.bytes_pos
    rw [Memory.horsPlage_iff]
    omega
  refine ⟨fun old => ?_, fun value => ?_, fun hn => absurd hall hn, fun old i hi => ?_,
    fun value i hi => ?_⟩
  · rw [memoryRead_inside mem address be w old hh, if_pos hall]
  · rw [memoryWrite_inside mem address be w value hh, if_pos hall]
  · rcases (Journal.mem_read_indices _ _ _ _ _ i).mp hi with hnil | hin
    · cases hnil
    · exact touched_below mem address w hall i hin.2
  · rcases (Journal.mem_write_indices _ _ _ _ _ i).mp hi with hnil | hin
    · cases hnil
    · exact touched_below mem address w hall i hin.2

-- Between the two bounds the first byte passes the test and the last one lies outside.
theorem not_inBounds (hlow : ¬ mem.size ≤ address.toNat) (hall : ¬ AllBelow mem address w) :
    ¬ InBounds mem address be w := by
  intro hb
  have hin : ¬ mem.horsPlage address := by
    rw [Memory.horsPlage_iff]
    exact hlow
  have hcode := hb.read_code 0
  rw [memoryRead_inside mem address be w 0 hin, if_neg hall] at hcode
  cases hcode

theorem memory_bounds :
    InBounds mem address be w ↔
      mem.size ≤ address.toNat ∨ address.toNat + w.bytes ≤ mem.size := by
  rw [← allBelow_iff]
  constructor
  · intro hb
    by_contra hn
    obtain ⟨hlow, hall⟩ := not_or.mp hn
    exact not_inBounds mem address be w hlow hall hb
  · rintro (hout | hall)
    · exact inBounds_of_outside mem address be w hout
    · exact inBounds_of_inside mem address be w hall

end Bounds

-- The last byte of a memory of four: half of the halfword lies behind it.
theorem half_at_end_accepted : ¬ InBounds (Memory.ofWords [0]) 3 true .half := by
  intro hb
  exact absurd (hb.read_code 0) (by decide)

end Armator
