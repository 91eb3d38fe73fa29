import Armator.Library.Fallible
import Armator.Library.SortedTable
import Armator.Simulator.Gdb
import Mathlib.Data.Set.Insert

namespace Armator

instance addressOrder (w : Nat) : LinearOrder (BitVec w) where
  le_refl := BitVec.le_refl
  le_trans _ _ _ := BitVec.le_trans
  le_antisymm _ _ := BitVec.le_antisymm
  le_total := BitVec.le_total
  lt_iff_le_not_ge a b := by
    rw [BitVec.not_le]
    exact ⟨fun h => ⟨BitVec.le_of_lt h, h⟩, fun h => h.2⟩
  toDecidableLE := inferInstance
  toDecidableLT := inferInstance

namespace Gdb

open SortedTable

def withTable (g : Gdb) (f : Nat → Word) (n : Nat) : Gdb :=
  { g with breakpoints := f, breakpoints_number := n }

structure Tabled (g : Gdb) : Prop where
  number_le : g.breakpoints_number ≤ MAX_BREAKPOINTS_NUMBER
  increasing : Increasing g.breakpoints g.breakpoints_number

def points (g : Gdb) : Set Word := {a | Holds g.breakpoints g.breakpoints_number a}

def found : Option Nat → Int
  | some i => i
  | none => -1

def position (g : Gdb) (address : Word) : Option Nat :=
  bisect g.breakpoints address (g.breakpoints_number + 1) 0 g.breakpoints_number

theorem found_ne_iff (o : Option Nat) : found o ≠ -1 ↔ o.isSome := by
  cases o with
  | none => decide
  | some i =>
      refine iff_of_true ?_ rfl
      rw [found]
      omega

theorem chercher_eq (g : Gdb) (address : Word) (fuel debut fin : Nat)
    (hfin : fin ≤ MAX_BREAKPOINTS_NUMBER) (hf : fin - debut < fuel) :
    g.chercher address fuel debut fin = .ok (found (bisect g.breakpoints address fuel debut fin)) := by
  induction fuel generalizing debut fin with
  | zero => omega
  | succ fuel ih =>
      rw [chercher, bisect]
      by_cases h : debut < fin
      · rw [if_pos h, if_pos h]
        dsimp only
        rw [lireBreakpoint, if_pos (by omega), Fallible.ok_bind]
        by_cases h1 : address < g.breakpoints ((debut + fin) / 2)
        · rw [if_pos h1, if_pos h1]
          exact ih _ _ (by omega) (by omega)
        · rw [if_neg h1, if_neg h1]
          by_cases h2 : g.breakpoints ((debut + fin) / 2) < address
          · rw [if_pos h2, if_pos h2]
            exact ih _ _ hfin (by omega)
          · rw [if_neg h2, if_neg h2]
            rfl
      · rw [if_neg h, if_neg h]
        rfl

theorem decaler_eq (g : Gdb) (address : Word) (j : Nat) (hj : j < MAX_BREAKPOINTS_NUMBER) :
    g.decaler address j =
      .ok ((slide g.breakpoints address j).2,
        g.withTable (slide g.breakpoints address j).1 g.breakpoints_number) := by
  induction j generalizing g with
  | zero => rfl
  | succ j ih =>
      rw [decaler, slide, lireBreakpoint, if_pos (by omega), Fallible.ok_bind]
      by_cases h : address < g.breakpoints j
      · rw [if_pos h, if_pos h, ecrireBreakpoint, if_pos hj, Fallible.ok_bind, ih _ (by omega)]
        rfl
      · rw [if_neg h, if_neg h]
        rfl

theorem tasser_eq (g : Gdb) (j reste : Nat) (h : j + reste < MAX_BREAKPOINTS_NUMBER) :
    g.tasser j reste = .ok (g.withTable (close g.breakpoints j reste) g.breakpoints_number) := by
  induction reste generalizing g j with
  | zero => rfl
  | succ reste ih =>
      rw [tasser, lireBreakpoint, if_pos (by omega), Fallible.ok_bind, ecrireBreakpoint,
        if_pos (by omega), Fallible.ok_bind, ih _ _ (by omega)]
      rfl

theorem add_full (g : Gdb) (address : Word)
    (hn : g.breakpoints_number = MAX_BREAKPOINTS_NUMBER) :
    g.gdbAddBreakpoint address = .ok (0, g) := by
  rw [gdbAddBreakpoint, if_neg (by omega)]
  rfl

section Tabled

variable {g : Gdb} (ht : g.Tabled) (address : Word)

include ht

theorem find_eq : g.gdbFindBreakpoint address = .ok (found (g.position address)) :=
  chercher_eq g address _ _ _ ht.number_le (by omega)

theorem position_isSome_iff : (g.position address).isSome ↔ address ∈ g.points :=
  bisect_isSome_iff g.breakpoints address _ ht.increasing

theorem found_iff : found (g.position address) ≠ -1 ↔ address ∈ g.points := by
  rw [found_ne_iff, position_isSome_iff ht]

theorem add_present (hn : g.breakpoints_number ≠ MAX_BREAKPOINTS_NUMBER)
    (ha : address ∈ g.points) : g.gdbAddBreakpoint address = .ok (1, g) := by
  have hle := ht.number_le
  rw [gdbAddBreakpoint, if_pos (by omega), find_eq ht, Fallible.ok_bind,
    if_pos ((found_iff ht address).mpr ha)]
  rfl

theorem add_absent (hn : g.breakpoints_number ≠ MAX_BREAKPOINTS_NUMBER)
    (ha : address ∉ g.points) :
    g.gdbAddBreakpoint address =
      .ok (1, g.withTable (insert g.breakpoints g.breakpoints_number address)
        (g.breakpoints_number + 1)) := by
  have hle := ht.number_le
  have hslide := (slide_spec g.breakpoints address g.breakpoints_number).1
  rw [gdbAddBreakpoint, if_pos (by omega), find_eq ht, Fallible.ok_bind,
    if_neg (fun hc => ha ((found_iff ht address).mp hc))]
  dsimp only
  rw [decaler_eq _ _ _ (by omega), Fallible.ok_bind, ecrireBreakpoint]
  dsimp only
  rw [if_pos (by omega)]
  rfl

theorem remove_absent (ha : address ∉ g.points) : g.gdbRemoveBreakpoint address = .ok (0, g) := by
  rw [gdbRemoveBreakpoint, find_eq ht, Fallible.ok_bind,
    if_pos (not_not.mp (fun hc => ha ((found_iff ht address).mp hc)))]
  rfl

theorem remove_present (ha : address ∈ g.points) :
    ∃ i < g.breakpoints_number, g.breakpoints i = address ∧
      g.gdbRemoveBreakpoint address =
        .ok (1, g.withTable (close g.breakpoints i (g.breakpoints_number - 1 - i))
          (g.breakpoints_number - 1)) := by
  have hle := ht.number_le
  have hne := (found_iff ht address).mpr ha
  obtain ⟨i, hi⟩ := Option.isSome_iff_exists.mp ((position_isSome_iff ht address).mpr ha)
  obtain ⟨_, hlt, hx⟩ := bisect_sound _ _ _ _ _ _ hi
  refine ⟨i, hlt, hx, ?_⟩
  rw [gdbRemoveBreakpoint, find_eq ht, Fallible.ok_bind, if_neg hne, hi]
  dsimp only [found, Int.toNat_natCast]
  rw [tasser_eq _ _ _ (by omega)]
  rfl

end Tabled

theorem add_spec (g : Gdb) (ht : g.Tabled) (address : Word) :
    ∃ result g', g.gdbAddBreakpoint address = .ok (result, g') ∧
      g' = g.withTable g'.breakpoints g'.breakpoints_number ∧ g'.Tabled ∧
      (result = 0 ↔ g.breakpoints_number = MAX_BREAKPOINTS_NUMBER) ∧
      g'.points = if result = 0 then g.points else Set.insert address g.points := by
  by_cases hn : g.breakpoints_number = MAX_BREAKPOINTS_NUMBER
  · exact ⟨0, g, add_full g address hn, rfl, ht, iff_of_true rfl hn, (if_pos rfl).symm⟩
  · have h1 : (1 : Int) ≠ 0 := by decide
    by_cases ha : address ∈ g.points
    · refine ⟨1, g, add_present ht address hn ha, rfl, ht, iff_of_false h1 hn, ?_⟩
      rw [if_neg h1]
      exact (Set.insert_eq_of_mem ha).symm
    · refine ⟨1, _, add_absent ht address hn ha, rfl, ⟨?_, ?_⟩, iff_of_false h1 hn, ?_⟩
      · exact Nat.lt_of_le_of_ne ht.number_le hn
      · exact insert_increasing _ _ _ ht.increasing ha
      · rw [if_neg h1]
        ext a
        exact insert_holds g.breakpoints g.breakpoints_number address a

theorem remove_spec (g : Gdb) (ht : g.Tabled) (address : Word) :
    ∃ result g', g.gdbRemoveBreakpoint address = .ok (result, g') ∧
      g' = g.withTable g'.breakpoints g'.breakpoints_number ∧ g'.Tabled ∧
      (result ≠ 0 ↔ address ∈ g.points) ∧ g'.points = g.points \ {address} := by
  by_cases ha : address ∈ g.points
  · obtain ⟨i, hi, hx, he⟩ := remove_present ht address ha
    have hn : g.breakpoints_number = g.breakpoints_number - 1 + 1 := by omega
    have hs := ht.increasing
    rw [hn] at hs
    refine ⟨1, _, he, rfl, ⟨?_, ?_⟩, iff_of_true (by decide) ha, ?_⟩
    · exact Nat.le_trans (Nat.sub_le _ 1) ht.number_le
    · exact close_increasing g.breakpoints _ i hs
    · ext a
      have hc := close_holds g.breakpoints _ i hs (by omega) a
      rw [← hn, hx] at hc
      exact hc
  · refine ⟨0, g, remove_absent ht address ha, rfl, ht, iff_of_false (fun h => h rfl) ha, ?_⟩
    exact (Set.sdiff_singleton_eq_self ha).symm

end Gdb

end Armator
