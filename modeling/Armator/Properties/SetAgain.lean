import Armator.Architecture.BreakpointSet
import Armator.Architecture.HandlerAnswers
import Armator.Architecture.Numerals

namespace Armator

namespace Gdb

def SetAgain (g : Gdb) (c : Call) (data : Texte) : Prop :=
  ∃ g', g.setBreakpoint c data = .ok g' ∧ g'.sortie = g.sortie ++ frame (texte "OK") ∧
    g'.breakpoints = g.breakpoints ∧ g'.breakpoints_number = g.breakpoints_number

theorem setAgain_iff_of_tabled {g : Gdb} (ht : g.Tabled) (c : Call) (data : Texte)
    (h0 : (Request.set c data).type = 0) (ha : (Request.set c data).address ∈ g.points) :
    g.SetAgain c data ↔ g.breakpoints_number < MAX_BREAKPOINTS_NUMBER := by
  have hle := ht.number_le
  by_cases hn : g.breakpoints_number = MAX_BREAKPOINTS_NUMBER
  · rw [SetAgain, setBreakpoint_add c data h0 (add_full g _ hn), if_pos rfl]
    refine iff_of_false ?_ (by omega)
    rintro ⟨g', he, hr, -⟩
    cases he
    exact absurd ((answered_ok_iff g _ (by decide)).mp hr) (by decide)
  · rw [SetAgain, setBreakpoint_add c data h0 (add_present ht _ hn ha), if_neg (by decide)]
    exact iff_of_true ⟨_, rfl, rfl, rfl, rfl⟩ (by omega)

end Gdb

def askedText (a : Word) : Texte :=
  texte "0" ++ octet ',' :: (hex8 a ++ octet ',' :: (texte "4" ++ []))

def asked (i : Nat) : Request := .set Call.blank (askedText (BitVec.ofNat 32 i))

theorem asked_read (i : Nat) : (asked i).type = 0 ∧ (asked i).address = BitVec.ofNat 32 i := by
  have hzero : Numeral (texte "0") := by decide
  have hfour : Numeral (texte "4") := by decide
  have hends : Ends [] := fun _ hc => absurd hc (by simp)
  have htext : sscanfHhxXX (askedText (BitVec.ofNat 32 i)) 0 0 0 = (0, BitVec.ofNat 32 i, 4) := by
    rw [askedText, sscanfHhxXX_numeral hzero, sscanfXX_numerals (numeral_hex8 _) hfour hends]
    exact congrArg (fun a => ((0 : Byte), a, (4 : Word))) (strtoul_hex8 _)
  exact ⟨congrArg Prod.fst htext, congrArg (fun t => t.2.1) htext⟩

def firstAddresses (n : Nat) : Finset Word := (Finset.range n).image (BitVec.ofNat 32)

theorem card_firstAddresses (n : Nat) (hn : n ≤ MAX_BREAKPOINTS_NUMBER) :
    (firstAddresses n).card = n := by
  have hmax : MAX_BREAKPOINTS_NUMBER = 1024 := rfl
  rw [firstAddresses, Finset.card_image_of_injOn, Finset.card_range]
  intro i hi j hj he
  have hi' := Finset.mem_range.mp (Finset.mem_coe.mp hi)
  have hj' := Finset.mem_range.mp (Finset.mem_coe.mp hj)
  replace he := congrArg BitVec.toNat he
  rw [BitVec.toNat_ofNat, BitVec.toNat_ofNat] at he
  omega

theorem asked_history (arm : ArmCore) (n : Nat) (hn : n ≤ MAX_BREAKPOINTS_NUMBER) :
    ∃ g, Request.history (Gdb.gdbInitData arm (fun _ => 0) (fun _ => 0), ∅)
        ((List.range n).map asked) = .ok (g, ↑(firstAddresses n)) ∧
      g.Represents (firstAddresses n) := by
  induction n with
  | zero => exact ⟨_, by rw [firstAddresses, Finset.range_zero, Finset.image_empty,
      Finset.coe_empty]; rfl, Gdb.represents_empty rfl⟩
  | succ n ih =>
      obtain ⟨g, hrun, hg⟩ := ih (Nat.le_of_succ_le hn)
      obtain ⟨h0, ha⟩ := asked_read n
      have hcard : (firstAddresses n).card ≠ MAX_BREAKPOINTS_NUMBER := by
        rw [card_firstAddresses n (Nat.le_of_succ_le hn)]
        exact Nat.ne_of_lt hn
      have hset : firstAddresses (n + 1) = insert (BitVec.ofNat 32 n) (firstAddresses n) := by
        rw [firstAddresses, Finset.range_add_one, Finset.image_insert]
        rfl
      obtain ⟨g', hadd, hg', -⟩ := hg.add (asked n).address
      rw [Edit.apply, if_neg hcard, ha, ← hset] at hg'
      rw [Edit.apply, if_neg hcard] at hadd
      have hreply : (g'.answered (texte "OK")).sortie = g.sortie ++ frame (texte "OK") := by
        rw [← Gdb.gdbAddBreakpoint_sortie hadd]
        rfl
      have hstep := Gdb.setBreakpoint_add Call.blank _ h0 hadd
      rw [if_neg Int.one_ne_zero] at hstep
      refine ⟨g'.answered (texte "OK"), ?_, hg'.answered _⟩
      rw [List.range_succ, List.map_append, Request.history, List.map_singleton,
        Fallible.run_concat]
      rw [Request.history] at hrun
      rw [hrun, Fallible.ok_bind, Request.track, asked]
      dsimp only [Request.handle]
      have heffect : (Request.set Call.blank (askedText (BitVec.ofNat 32 n))).effect
          ↑(firstAddresses n) = Set.insert (BitVec.ofNat 32 n) ↑(firstAddresses n) :=
        congrArg (fun a => Set.insert a _) ha
      rw [hstep, Fallible.ok_bind, if_pos hreply, heffect, hset, Finset.coe_insert]
      rfl

theorem firstAddresses_zero_mem (n : Nat) : (asked 0).address ∈ firstAddresses (n + 1) := by
  rw [(asked_read 0).2, firstAddresses]
  exact Finset.mem_image_of_mem _ (Finset.mem_range.mpr (Nat.zero_lt_succ n))

namespace Gdb

theorem setAgain_iff (arm : ArmCore) (packet : Nat → Byte) (breakpoints : Nat → Word)
    (rs : List Request) (g : Gdb) (s : Set Word)
    (hrun : Request.history (gdbInitData arm packet breakpoints, ∅) rs = .ok (g, s))
    (c : Call) (data : Texte) (h0 : (Request.set c data).type = 0)
    (ha : (Request.set c data).address ∈ s) :
    g.SetAgain c data ↔ g.breakpoints_number < MAX_BREAKPOINTS_NUMBER := by
  obtain ⟨t, hr, htr⟩ := Request.history_tracked (gdbInitData arm packet breakpoints, ∅) rs
    ⟨gdbInitData_tabled _ _ _, gdbInitData_points _ _ _⟩
  cases hr.symm.trans hrun
  refine setAgain_iff_of_tabled htr.tabled c data h0 ?_
  rw [htr.points]
  exact ha

theorem setAgain_iff_one : ∃ g s,
    Request.history (gdbInitData (afterReset []) (fun _ => 0) (fun _ => 0), ∅)
        ((List.range 1).map asked) = .ok (g, s) ∧
      (g.SetAgain Call.blank (askedText 0) ↔ g.breakpoints_number < MAX_BREAKPOINTS_NUMBER) := by
  obtain ⟨g, hrun, -⟩ := asked_history (afterReset []) 1 (by decide)
  exact ⟨g, _, hrun, setAgain_iff _ _ _ _ g _ hrun Call.blank (askedText 0) (asked_read 0).1
    (Finset.mem_coe.mpr (firstAddresses_zero_mem 0))⟩

theorem setAgain_full : ∃ g s,
    Request.history (gdbInitData (afterReset []) (fun _ => 0) (fun _ => 0), ∅)
        ((List.range 1024).map asked) = .ok (g, s) ∧
      (asked 0).type = 0 ∧ (asked 0).address ∈ s ∧ ¬ g.SetAgain Call.blank (askedText 0) := by
  obtain ⟨g, hrun, hg⟩ := asked_history (afterReset []) 1024 (Nat.le_refl _)
  have hmem := firstAddresses_zero_mem 1023
  refine ⟨g, _, hrun, (asked_read 0).1, Finset.mem_coe.mpr hmem, fun hagain => ?_⟩
  have hlt := (setAgain_iff_of_tabled hg.tabled Call.blank (askedText 0) (asked_read 0).1
    ((hg.mem_points _).mpr hmem)).mp hagain
  rw [hg.number, card_firstAddresses 1024 (Nat.le_refl _)] at hlt
  exact absurd hlt (by decide)

end Gdb

end Armator
