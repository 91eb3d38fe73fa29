import Armator.Architecture.DebugTable

namespace Armator

open OrderedTable Placed

namespace Debug

def Holds (t : Debug) (name : Texte) (i : Nat) : Prop :=
  i < t.nb_debugged_files ∧ ∃ s, t.debugged_files i = some s ∧ strcmp s name = .eq

structure FileTable (t : Debug) (names : List Texte) : Prop where
  number_le : t.nb_debugged_files ≤ MAX_FILES_NUMBER
  ordered : ∀ i j, i < j → j < t.nb_debugged_files →
    ∃ s u, t.debugged_files i = some s ∧ t.debugged_files j = some u ∧ (strcmp s u).isLE = true
  search : ∀ name, ∃ result, t.isDebugged name = .ok result ∧ (result = 1 ↔ ∃ i, t.Holds name i)
  complete : names.length ≤ MAX_FILES_NUMBER →
    (slice t.debugged_files 0 t.nb_debugged_files).Perm (names.map some)

-- Every access on the way stayed inside the array, else there is no last table.
def DebuggedFiles (cells : Nat → Option Texte) (names : List Texte) : Prop :=
  ∃ t, Fallible.run addDebugTo ⟨cells, 0⟩ names = .ok t ∧ t.FileTable names

theorem Lists.holds_iff {t : Debug} {l : List Texte} (h : t.Lists l) (name : Texte) :
    (∃ i, t.Holds name i) ↔ ∃ s ∈ l, strcmp s name = .eq := by
  constructor
  · rintro ⟨i, hi, s, hs, he⟩
    rw [h.number] at hi
    obtain rfl := Option.some.inj ((h.cell ⟨i, hi⟩).symm.trans hs)
    exact ⟨_, List.get_mem l ⟨i, hi⟩, he⟩
  · rintro ⟨s, hs, he⟩
    obtain ⟨i, rfl⟩ := List.get_of_mem hs
    exact ⟨i, i.isLt.trans_eq h.number.symm, _, h.cell i, he⟩

theorem Lists.fileTable {t : Debug} {l : List Texte} (h : t.Lists l) (hl : Sorted strcmp l)
    (names : List Texte) (hperm : l.Perm (names.take MAX_FILES_NUMBER)) : t.FileTable names where
  number_le := h.number.trans_le h.room
  ordered i j hij hj := by
    rw [h.number] at hj
    exact ⟨_, _, h.cell ⟨i, Nat.lt_trans hij hj⟩, h.cell ⟨j, hj⟩,
      hl.get_le strcmp ⟨i, Nat.lt_trans hij hj⟩ ⟨j, hj⟩ (Nat.le_of_lt hij)⟩
  search name := by
    obtain ⟨result, hrun, hresult⟩ := h.isDebugged hl name
    exact ⟨result, hrun, hresult.trans (h.holds_iff name).symm⟩
  complete hlen := by
    rw [List.take_of_length_le hlen] at hperm
    rw [h.number, h.cells]
    exact hperm.map some

-- Each name behind the first ones finds a full table, and is above all of its entries.
def Above (names : List Texte) : Prop :=
  ∀ name ∈ names.drop MAX_FILES_NUMBER, ∀ s ∈ names.take MAX_FILES_NUMBER, strcmp s name = .lt

instance : DecidablePred Above := fun names =>
  inferInstanceAs (Decidable (∀ name ∈ names.drop MAX_FILES_NUMBER,
    ∀ s ∈ names.take MAX_FILES_NUMBER, strcmp s name = .lt))

theorem run_addDebugTo (cells : Nat → Option Texte) (names : List Texte) :
    ∃ t l, t.Lists l ∧ Sorted strcmp l ∧ l.Perm (names.take MAX_FILES_NUMBER) ∧
      Fallible.run addDebugTo ⟨cells, 0⟩ names =
        if Above names then .ok t else .error .debordement := by
  have hlen := List.length_take_le MAX_FILES_NUMBER names
  obtain ⟨t, hrun, ht⟩ := (lists_empty cells).run_room (names.take MAX_FILES_NUMBER)
    (by rw [List.length_nil, Nat.zero_add]; exact hlen)
  have hperm := foldl_insert_perm strcmp (names.take MAX_FILES_NUMBER) []
  rw [List.append_nil] at hperm
  refine ⟨t, _, ht, sorted_foldl_insert strcmp _ [] List.Pairwise.nil, hperm, ?_⟩
  rw [← List.take_append_drop MAX_FILES_NUMBER names, Fallible.run_append, hrun, Fallible.ok_bind,
    List.take_append_drop]
  rcases Nat.lt_or_ge names.length MAX_FILES_NUMBER with hlt | hge
  · have hdrop := List.drop_of_length_le (Nat.le_of_lt hlt)
    rw [if_pos (by rw [Above, hdrop]; exact List.forall_mem_nil _), hdrop]
    rfl
  · rw [ht.run_full _ (hperm.length_eq.trans (List.length_take_of_le hge))]
    refine if_congr (forall₂_congr fun name _ => ?_) rfl rfl
    exact forall_congr' fun s => imp_congr_left hperm.mem_iff

theorem debuggedFiles_iff (cells : Nat → Option Texte) (names : List Texte) :
    DebuggedFiles cells names ↔ Above names := by
  obtain ⟨t, l, ht, hl, hperm, hrun⟩ := run_addDebugTo cells names
  rw [DebuggedFiles, hrun]
  constructor
  · rintro ⟨t', he, -⟩
    by_contra hc
    rw [if_neg hc] at he
    cases he
  · intro hc
    exact ⟨t, if_pos hc, ht.fileTable hl names hperm⟩

-- The name goes before its equals, and pushes the last of them out of the array.
theorem one_name_too_many :
    ¬ DebuggedFiles (fun _ => none) (List.replicate 65 (texte "debug.c")) := by
  obtain ⟨t, l, -, -, -, hrun⟩ := run_addDebugTo (fun _ => none) (List.replicate 65 (texte "debug.c"))
  rintro ⟨t', he, -⟩
  rw [hrun, if_neg (by decide)] at he
  cases he

end Debug

end Armator
