import Armator.Library.OrderedTable
import Armator.Library.Placed
import Armator.Simulator.Debug

namespace Armator

open OrderedTable Placed

namespace Debug

structure Lists (t : Debug) (l : List Texte) : Prop where
  number : t.nb_debugged_files = l.length
  room : l.length ≤ MAX_FILES_NUMBER
  cells : slice t.debugged_files 0 l.length = l.map some

section Access

variable (t : Debug)

theorem lire_inside (i : Nat) (hi : i < MAX_FILES_NUMBER) : t.lire i = .ok (t.debugged_files i) := by
  rw [lire, if_pos (by omega), Int.toNat_natCast]

theorem ecrire_inside (i : Nat) (hi : i < MAX_FILES_NUMBER) (x : Option Texte) :
    t.ecrire i x = .ok { t with debugged_files := Function.update t.debugged_files i x } := by
  rw [ecrire, if_pos (by omega), Int.toNat_natCast]

theorem decaler_eq (i k : Nat) (hk : i + k < MAX_FILES_NUMBER) :
    t.decaler i k = .ok { t with debugged_files := raise t.debugged_files i k } := by
  induction k generalizing t with
  | zero => rfl
  | succ k ih =>
      have hlire := t.lire_inside (i + k) (by omega)
      have hecrire := t.ecrire_inside (i + k + 1) (by omega) (t.debugged_files (i + k))
      push_cast at hlire hecrire
      rw [decaler, hlire, Fallible.ok_bind, hecrire, Fallible.ok_bind, ih _ (by omega), raise]

-- The first name to move goes to the cell behind the array.
theorem decaler_full (i k : Nat) (hk : i + k + 1 = MAX_FILES_NUMBER) :
    t.decaler i (k + 1) = .error .debordement := by
  have hlire := t.lire_inside (i + k) (by omega)
  push_cast at hlire
  rw [decaler, hlire, Fallible.ok_bind, ecrire, if_neg (by omega)]
  rfl

end Access

section Lists

variable {t : Debug} {l : List Texte} (h : t.Lists l)

include h

theorem Lists.cell (i : Fin l.length) : t.debugged_files i = some (l.get i) := by
  have hcell := congrArg (fun s => s[i.val]?) h.cells
  simpa [slice] using hcell

theorem Lists.comparer (i : Fin l.length) (name : Texte) :
    t.comparer (i : Nat) name = .ok (strcmp (l.get i) name) := by
  rw [Debug.comparer, t.lire_inside i (Nat.lt_of_lt_of_le i.isLt h.room), h.cell]
  rfl

theorem Lists.chercherPlace (name : Texte) (s : List Texte) (i : Nat) (hs : l.drop i = s) :
    t.chercherPlace name i s.length = .ok (i + rank strcmp name s) := by
  induction s generalizing i with
  | nil => rfl
  | cons a s ih =>
      have hi : i < l.length := by
        by_contra hc
        rw [List.drop_of_length_le (Nat.not_lt.mp hc)] at hs
        cases hs
      rw [List.drop_eq_getElem_cons hi] at hs
      obtain ⟨rfl, htail⟩ := List.cons.inj hs
      have hcompare : t.comparer (i : Nat) name = .ok (strcmp l[i] name) := h.comparer ⟨i, hi⟩ name
      rw [List.length_cons, Debug.chercherPlace, if_pos (Nat.lt_of_lt_of_le hi h.room), hcompare,
        Fallible.ok_bind, rank_cons]
      by_cases hlt : strcmp l[i] name = .lt
      · rw [if_pos hlt, if_pos hlt, ih (i + 1) htail, Nat.add_assoc, Nat.add_comm 1]
      · rw [if_neg hlt, if_neg hlt]
        rfl

theorem Lists.rank (name : Texte) :
    t.chercherPlace name 0 t.nb_debugged_files = .ok (rank strcmp name l) := by
  rw [h.number, h.chercherPlace name l 0 rfl, Nat.zero_add]

theorem Lists.inserted (name : Texte) (hn : l.length < MAX_FILES_NUMBER) :
    ∃ t', t.addDebugTo name = .ok t' ∧ t'.Lists (insert strcmp l name) := by
  have hle := rank_le strcmp name l
  have hlen : OrderedTable.rank strcmp name l + (l.length - OrderedTable.rank strcmp name l) =
      l.length := by
    omega
  rw [addDebugTo, h.rank, Fallible.ok_bind, if_neg (by omega), h.number,
    t.decaler_eq _ _ (by omega), Fallible.ok_bind]
  generalize hi : OrderedTable.rank strcmp name l = i at hle hlen
  rw [ecrire_inside _ i (by omega), Fallible.ok_bind]
  refine ⟨_, rfl, ?_, ?_, ?_⟩
  · rw [insert_length, ← h.number]
  · rw [insert_length]
    exact hn
  · have hcells := h.cells
    rw [← hlen, slice_add, Nat.zero_add] at hcells
    obtain ⟨hlow, hhigh⟩ := List.append_inj (hcells.trans
      ((congrArg (List.map some) (List.take_append_drop i l)).symm.trans List.map_append))
      (by rw [length_slice, List.length_map, List.length_take_of_le hle])
    rw [insert_length, insert_eq, hi, List.map_append, List.map_cons, ← hlow, ← hhigh,
      ← slice_update_raise, ← Nat.add_assoc, hlen]

theorem Lists.refused (name : Texte) (hn : l.length = MAX_FILES_NUMBER)
    (hall : ∀ s ∈ l, strcmp s name = .lt) : t.addDebugTo name = .ok t := by
  have hend := (rank_eq_length_iff strcmp name l).mpr hall
  rw [addDebugTo, h.rank, Fallible.ok_bind, if_pos (by omega)]
  rfl

theorem Lists.overflows (name : Texte) (hn : l.length = MAX_FILES_NUMBER)
    (hall : ¬ ∀ s ∈ l, strcmp s name = .lt) : t.addDebugTo name = .error .debordement := by
  have hle := rank_le strcmp name l
  have hne := mt (rank_eq_length_iff strcmp name l).mp hall
  obtain ⟨k, hk⟩ : ∃ k, l.length - OrderedTable.rank strcmp name l = k + 1 :=
    ⟨l.length - OrderedTable.rank strcmp name l - 1, by omega⟩
  rw [addDebugTo, h.rank, Fallible.ok_bind, if_neg (by omega), h.number, hk,
    t.decaler_full _ k (by omega)]
  rfl

theorem Lists.chercher (name : Texte) (fuel : Nat) (debut fin : Int) (h0 : 0 ≤ debut)
    (hn : fin < l.length) (hf : fin - debut + 1 < fuel) (hpos : 0 < fuel) :
    t.chercher name fuel debut fin =
      .ok (if probe (outcome strcmp l name) fuel debut fin then 1 else 0) := by
  have hcompare (i : Nat) (hi : i < l.length) :
      t.comparer i name = .ok (outcome strcmp l name i) :=
    (h.comparer ⟨i, hi⟩ name).trans (congrArg Except.ok (outcome_get strcmp l name ⟨i, hi⟩).symm)
  induction fuel generalizing debut fin with
  | zero => omega
  | succ fuel ih =>
      rw [Debug.chercher, probe]
      by_cases hlt : debut < fin
      · obtain ⟨m, hm⟩ : ∃ m : Nat, (debut + fin) / 2 = m := ⟨((debut + fin) / 2).toNat, by omega⟩
        rw [if_pos hlt, if_pos hlt, hm, Int.toNat_natCast]
        dsimp only
        rw [hcompare m (by omega), Fallible.ok_bind]
        cases hx : outcome strcmp l name m with
        | lt => exact ih _ _ (by omega) hn (by omega) (by omega)
        | gt => exact ih _ _ h0 (by omega) (by omega) (by omega)
        | eq => rfl
      · rw [if_neg hlt, if_neg hlt]
        by_cases he : debut = fin
        · obtain ⟨m, rfl⟩ : ∃ m : Nat, debut = m := ⟨debut.toNat, by omega⟩
          rw [if_pos he, hcompare m (by omega), Fallible.ok_bind, Int.toNat_natCast]
          by_cases hx : outcome strcmp l name m = .eq
          · rw [if_pos hx]
            simp only [hx, he, decide_true, Bool.and_self, if_true]
            rfl
          · rw [if_neg hx]
            simp only [hx, decide_false, Bool.and_false, Bool.false_eq_true, if_false]
            rfl
        · rw [if_neg he]
          simp only [he, decide_false, Bool.false_and, Bool.false_eq_true, if_false]
          rfl

theorem Lists.isDebugged (hl : Sorted strcmp l) (name : Texte) :
    ∃ result, t.isDebugged name = .ok result ∧ (result = 1 ↔ ∃ s ∈ l, strcmp s name = .eq) := by
  refine ⟨if probe (outcome strcmp l name) (l.length + 1) 0 (l.length - 1) then 1 else 0, ?_, ?_⟩
  · rw [Debug.isDebugged, h.number]
    exact h.chercher name _ _ _ (Int.le_refl 0) (by omega) (by omega) (by omega)
  · rw [← hl.probe_iff strcmp name (l.length + 1) (by omega)]
    cases probe (outcome strcmp l name) (l.length + 1) 0 (l.length - 1) with
    | true => exact iff_of_true rfl rfl
    | false => exact iff_of_false Int.zero_ne_one Bool.false_ne_true

theorem Lists.run_room (names : List Texte) (hn : l.length + names.length ≤ MAX_FILES_NUMBER) :
    ∃ t', Fallible.run addDebugTo t names = .ok t' ∧ t'.Lists (names.foldl (insert strcmp) l) := by
  induction names generalizing t l with
  | nil => exact ⟨t, rfl, h⟩
  | cons name names ih =>
      rw [List.length_cons] at hn
      obtain ⟨u, hadd, hu⟩ := h.inserted name (by omega)
      obtain ⟨t', hrun, ht⟩ := ih hu (by rw [insert_length]; omega)
      exact ⟨t', (Fallible.run_cons_eq_ok t t' name names).mpr ⟨u, hadd, hrun⟩, ht⟩

-- A full table stays as it is until a name comes whose place is inside it.
theorem Lists.run_full (names : List Texte) (hn : l.length = MAX_FILES_NUMBER) :
    Fallible.run addDebugTo t names =
      if ∀ name ∈ names, ∀ s ∈ l, strcmp s name = .lt then .ok t else .error .debordement := by
  induction names with
  | nil => rfl
  | cons name names ih =>
      by_cases hall : ∀ s ∈ l, strcmp s name = .lt
      · have hiff := List.forall_mem_cons (p := fun name => ∀ s ∈ l, strcmp s name = .lt)
          (a := name) (l := names)
        rw [if_congr (hiff.trans (and_iff_right hall)) rfl rfl, ← ih, Fallible.run,
          h.refused name hn hall, Fallible.ok_bind]
      · rw [if_neg (fun hc => hall (hc name List.mem_cons_self)), Fallible.run,
          h.overflows name hn hall]
        rfl

end Lists

theorem lists_empty (cells : Nat → Option Texte) : (Debug.mk cells 0).Lists [] where
  number := rfl
  room := Nat.zero_le _
  cells := rfl

end Debug

end Armator
