import Armator.Architecture.BreakpointSet

namespace Armator

namespace Gdb

structure SortedSet (g : Gdb) (s : Finset Word) : Prop where
  increasing : ∀ i j, i < j → j < g.breakpoints_number → g.breakpoints i < g.breakpoints j
  number : g.breakpoints_number = s.card
  number_le : g.breakpoints_number ≤ MAX_BREAKPOINTS_NUMBER
  entries : ∀ a, a ∈ s ↔ ∃ i < g.breakpoints_number, g.breakpoints i = a
  add : ∀ a, ∃ result g', g.gdbAddBreakpoint a = .ok (result, g') ∧
    (result = 0 → s.card = MAX_BREAKPOINTS_NUMBER ∧ g' = g)
  remove : ∀ a, ∃ result g', g.gdbRemoveBreakpoint a = .ok (result, g') ∧ (result = 1 ↔ a ∈ s)
  find : ∀ a, ∃ i, g.gdbFindBreakpoint a = .ok i ∧
    if a ∈ s then ∃ j < g.breakpoints_number, i = (j : Int) ∧ g.breakpoints j = a else i = -1

theorem Represents.sortedSet {g : Gdb} {s : Finset Word} (h : g.Represents s) : g.SortedSet s where
  increasing := h.tabled.increasing
  number := h.number
  number_le := h.tabled.number_le
  entries := h.mem
  add a := by
    obtain ⟨g', he, -, hz⟩ := h.add a
    exact ⟨_, g', he, hz⟩
  remove a := by
    obtain ⟨g', he, -⟩ := h.remove a
    refine ⟨_, g', he, ?_⟩
    rw [Edit.apply]
    by_cases ha : a ∈ s
    · rw [if_pos ha]
      exact iff_of_true rfl ha
    · rw [if_neg ha]
      exact iff_of_false Int.zero_ne_one ha
  find := h.find

theorem breakpoints_sortedSet (g : Gdb) (h0 : g.breakpoints_number = 0) (es : List Edit) :
    ∃ g', Fallible.run Edit.callNext (g, []) es =
        .ok (g', (es.foldl Edit.applyNext (∅, [])).2) ∧
      g'.SortedSet (es.foldl Edit.applyNext (∅, [])).1 := by
  obtain ⟨⟨g', results⟩, hrun, hr, hres⟩ := Fallible.run_simulates
    (R := fun (t : Gdb × List Int) (u : Finset Word × List Int) => t.1.Represents u.1 ∧ t.2 = u.2)
    (fun t u e h => by
      obtain ⟨t', he, hr⟩ := h.1.callNext t.2 e
      obtain ⟨g, results⟩ := t
      obtain ⟨s, results'⟩ := u
      obtain ⟨-, rfl⟩ := h
      exact ⟨t', he, hr⟩)
    (g, []) (∅, []) es ⟨represents_empty h0, rfl⟩
  dsimp only at hr hres
  rw [hres] at hrun
  exact ⟨g', hrun, hr.sortedSet⟩

theorem breakpoints_sortedSet_gdbInitData :
    ∃ g', Fallible.run Edit.callNext
          (gdbInitData (afterReset []) (fun _ => 0) (fun _ => 0), [])
        [.add 8, .add 4, .remove 8, .remove 8] = .ok (g', [1, 1, 1, 0]) ∧ g'.SortedSet {4} :=
  breakpoints_sortedSet (gdbInitData (afterReset []) (fun _ => 0) (fun _ => 0)) rfl
    [.add 8, .add 4, .remove 8, .remove 8]

end Gdb

end Armator
