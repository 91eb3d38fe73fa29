import Armator.Architecture.BreakpointRequests

namespace Armator

inductive Edit where
  | add (address : Word)
  | remove (address : Word)

namespace Edit

def call (g : Gdb) : Edit → Except Fault (Int × Gdb)
  | add address => g.gdbAddBreakpoint address
  | remove address => g.gdbRemoveBreakpoint address

def apply (s : Finset Word) : Edit → Int × Finset Word
  | add address => if s.card = MAX_BREAKPOINTS_NUMBER then (0, s) else (1, insert address s)
  | remove address => if address ∈ s then (1, s.erase address) else (0, s)

def callNext (t : Gdb × List Int) (e : Edit) : Except Fault (Gdb × List Int) := do
  let (result, g) ← e.call t.1
  return (g, t.2 ++ [result])

def applyNext (t : Finset Word × List Int) (e : Edit) : Finset Word × List Int :=
  ((e.apply t.1).2, t.2 ++ [(e.apply t.1).1])

end Edit

namespace Gdb

structure Represents (g : Gdb) (s : Finset Word) : Prop where
  tabled : g.Tabled
  number : g.breakpoints_number = s.card
  mem : ∀ a, a ∈ s ↔ ∃ i < g.breakpoints_number, g.breakpoints i = a

theorem Tabled.represents {g : Gdb} (ht : g.Tabled) {s : Finset Word}
    (hs : ∀ a, a ∈ s ↔ a ∈ g.points) : g.Represents s :=
  ⟨ht, (ht.increasing.card_eq s hs).symm, hs⟩

section Represents

variable {g : Gdb} {s : Finset Word} (h : g.Represents s)

include h

theorem Represents.mem_points (a : Word) : a ∈ g.points ↔ a ∈ s := (h.mem a).symm

theorem Represents.find (a : Word) :
    ∃ i, g.gdbFindBreakpoint a = .ok i ∧
      if a ∈ s then ∃ j < g.breakpoints_number, i = (j : Int) ∧ g.breakpoints j = a else i = -1 := by
  refine ⟨_, find_eq h.tabled a, ?_⟩
  have hiff := position_isSome_iff h.tabled a
  cases hp : g.position a with
  | none =>
      rw [hp] at hiff
      have ha : a ∉ s := fun ha => absurd (hiff.mpr ((h.mem_points a).mpr ha)) (by decide)
      rw [if_neg ha]
      rfl
  | some j =>
      rw [hp] at hiff
      have ha : a ∈ s := (h.mem_points a).mp (hiff.mp rfl)
      obtain ⟨_, hlt, hx⟩ := SortedTable.bisect_sound _ _ _ _ _ _ hp
      rw [if_pos ha]
      exact ⟨j, hlt, rfl, hx⟩

theorem Represents.add (a : Word) :
    ∃ g', g.gdbAddBreakpoint a = .ok (((Edit.add a).apply s).1, g') ∧
      g'.Represents ((Edit.add a).apply s).2 ∧
      (((Edit.add a).apply s).1 = 0 → s.card = MAX_BREAKPOINTS_NUMBER ∧ g' = g) := by
  rw [Edit.apply]
  by_cases hn : s.card = MAX_BREAKPOINTS_NUMBER
  · rw [if_pos hn]
    exact ⟨g, add_full g a (h.number.trans hn), h, fun _ => ⟨hn, rfl⟩⟩
  · rw [if_neg hn]
    have hfree : g.breakpoints_number ≠ MAX_BREAKPOINTS_NUMBER := fun hc => hn (h.number.symm.trans hc)
    obtain ⟨result, g', he, -, ht, hfull, hp⟩ := add_spec g h.tabled a
    have hne : result ≠ 0 := fun hc => hfree (hfull.mp hc)
    rw [if_neg hne] at hp
    have h1 : (1 : Int) ≠ 0 := by decide
    have hone : result = 1 := by
      by_cases ha : a ∈ g.points
      · rw [add_present h.tabled a hfree ha] at he
        cases he
        rfl
      · rw [add_absent h.tabled a hfree ha] at he
        cases he
        rfl
    refine ⟨g', by rw [he, hone], ht.represents fun b => ?_, fun hc => absurd hc h1⟩
    rw [hp]
    exact Finset.mem_insert.trans (or_congr_right (h.mem_points b).symm)

theorem Represents.remove (a : Word) :
    ∃ g', g.gdbRemoveBreakpoint a = .ok (((Edit.remove a).apply s).1, g') ∧
      g'.Represents ((Edit.remove a).apply s).2 := by
  rw [Edit.apply]
  by_cases ha : a ∈ s
  · have hmem := (h.mem_points a).mpr ha
    obtain ⟨result, g', he, -, ht, -, hp⟩ := remove_spec g h.tabled a
    have hone : result = 1 := by
      obtain ⟨i, -, -, hr⟩ := remove_present h.tabled a hmem
      rw [hr] at he
      cases he
      rfl
    rw [if_pos ha]
    refine ⟨g', by rw [he, hone], ht.represents fun b => ?_⟩
    rw [hp]
    exact Finset.mem_erase.trans (and_comm.trans (and_congr_left fun _ => (h.mem_points b).symm))
  · rw [if_neg ha]
    exact ⟨g, remove_absent h.tabled a fun hc => ha ((h.mem_points a).mp hc), h⟩

end Represents

theorem represents_empty {g : Gdb} (h0 : g.breakpoints_number = 0) : g.Represents ∅ := by
  refine ⟨⟨?_, ?_⟩, h0, fun a => ?_⟩
  · rw [h0]
    exact Nat.zero_le _
  · intro i j _ hj
    rw [h0] at hj
    exact absurd hj (Nat.not_lt_zero j)
  · refine iff_of_false (Finset.notMem_empty a) ?_
    rintro ⟨i, hi, -⟩
    rw [h0] at hi
    exact absurd hi (Nat.not_lt_zero i)

theorem Represents.callNext {g : Gdb} {s : Finset Word} (h : g.Represents s) (results : List Int)
    (e : Edit) :
    ∃ t, Edit.callNext (g, results) e = .ok t ∧ t.1.Represents (Edit.applyNext (s, results) e).1 ∧
      t.2 = (Edit.applyNext (s, results) e).2 := by
  have hcall : ∃ g', e.call g = .ok ((e.apply s).1, g') ∧ g'.Represents (e.apply s).2 := by
    cases e with
    | add a =>
        obtain ⟨g', he, hr, -⟩ := h.add a
        exact ⟨g', he, hr⟩
    | remove a => exact h.remove a
  obtain ⟨g', he, hr⟩ := hcall
  refine ⟨(g', results ++ [(e.apply s).1]), ?_, hr, rfl⟩
  rw [Edit.callNext, he]
  rfl

theorem Represents.answered {g : Gdb} {s : Finset Word} (h : g.Represents s) (t : Texte) :
    (g.answered t).Represents s :=
  ⟨h.tabled.answered t, h.number, h.mem⟩

theorem setBreakpoint_add {g g' : Gdb} {result : Int} (c : Call) (data : Texte)
    (h0 : (Request.set c data).type = 0)
    (hadd : g.gdbAddBreakpoint (Request.set c data).address = .ok (result, g')) :
    g.setBreakpoint c data =
      .ok (g'.answered (if result = 0 then texte "E04" else texte "OK")) := by
  rw [Request.type] at h0
  rw [Request.address] at hadd
  rw [setBreakpoint]
  generalize sscanfHhxXX data c.type c.address c.length = t at h0 hadd
  obtain ⟨type, address, length⟩ := t
  dsimp only at h0 hadd ⊢
  rw [if_neg (not_not.mpr h0), hadd, Fallible.ok_bind]
  dsimp only
  by_cases hr : result = 0
  · rw [if_neg (not_not.mpr hr), if_pos hr]
    exact gdbSendData_code g' _ (by decide)
  · rw [if_pos hr, if_neg hr]
    exact gdbSendData_code g' _ (by decide)

end Gdb

end Armator
