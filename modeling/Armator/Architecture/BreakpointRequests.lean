import Armator.Architecture.HandlerReplies

namespace Armator

inductive Request where
  | set (call : Call) (data : Texte)
  | remove (call : Call) (data : Texte)

namespace Request

def type : Request → Byte
  | set c data => (sscanfHhxXX data c.type c.address c.length).1
  | remove c data => (sscanfHhxXX data c.type c.address c.length).1

def address : Request → Word
  | set c data => (sscanfHhxXX data c.type c.address c.length).2.1
  | remove c data => (sscanfHhxXX data c.type c.address c.length).2.1

def handle (g : Gdb) : Request → Except Fault Gdb
  | set c data => g.setBreakpoint c data
  | remove c data => g.removeBreakpoint c data

def effect (r : Request) (s : Set Word) : Set Word :=
  match r with
  | set _ _ => Set.insert r.address s
  | remove _ _ => s \ {r.address}

-- The debugger beside the set that a client keeps from the answers to its requests.
def track (s : Gdb × Set Word) (r : Request) : Except Fault (Gdb × Set Word) := do
  let g ← r.handle s.1
  return (g, if g.sortie = s.1.sortie ++ frame (texte "OK") then r.effect s.2 else s.2)

def history (s : Gdb × Set Word) (rs : List Request) : Except Fault (Gdb × Set Word) :=
  Fallible.run track s rs

end Request

namespace Gdb

theorem answered_points (g : Gdb) (s : Texte) : (g.answered s).points = g.points := rfl

theorem Tabled.answered {g : Gdb} (ht : g.Tabled) (s : Texte) : (g.answered s).Tabled :=
  ⟨ht.number_le, ht.increasing⟩

theorem gdbSendData_code (g : Gdb) (s : Texte) (hs : s ∈ ["OK", "E03", "E04", "E05"].map texte) :
    g.gdbSendData s = .ok (g.answered s) := by
  have hall : ∀ s ∈ ["OK", "E03", "E04", "E05"].map texte,
      Payload s ∧ s.length + 4 < MAX_PACKET_SIZE := by
    decide
  exact gdbSendData_payload g s (hall s hs).1 (hall s hs).2

theorem answered_ok_iff (g : Gdb) (s : Texte) (hs : s ∈ ["OK", "E03", "E04", "E05"].map texte) :
    (g.answered s).sortie = g.sortie ++ frame (texte "OK") ↔ s = texte "OK" := by
  have hall : ∀ s ∈ ["OK", "E03", "E04", "E05"].map texte,
      frame s = frame (texte "OK") ↔ s = texte "OK" := by
    decide
  rw [answered_sortie_iff]
  exact hall s hs

structure Requested (g : Gdb) (r : Request) (g' : Gdb) : Prop where
  machine : g'.arm = g.arm ∧ g'.target_exception = g.target_exception ∧ g'.ferme = g.ferme
  tabled : g'.Tabled
  points : g'.points =
    if g'.sortie = g.sortie ++ frame (texte "OK") then r.effect g.points else g.points

theorem Requested.of_answer {g g₁ : Gdb} {r : Request} (s : Texte)
    (hs : s ∈ ["OK", "E03", "E04", "E05"].map texte)
    (hg : g₁ = g.withTable g₁.breakpoints g₁.breakpoints_number) (ht : g₁.Tabled)
    (hp : g₁.points = if s = texte "OK" then r.effect g.points else g.points) :
    ∃ g', g₁.gdbSendData s = .ok g' ∧ g.Requested r g' := by
  refine ⟨_, gdbSendData_code g₁ s hs, ⟨?_, ht.answered s, ?_⟩⟩
  · rw [hg]
    exact ⟨rfl, rfl, rfl⟩
  · have hok := answered_ok_iff g₁ s hs
    have hsortie : g₁.sortie = g.sortie := by rw [hg]; rfl
    rw [hsortie] at hok
    rw [answered_points, hp]
    by_cases he : s = texte "OK"
    · rw [if_pos he, if_pos (hok.mpr he)]
    · rw [if_neg he, if_neg (mt hok.mp he)]

theorem Requested.of_edit {g g₁ : Gdb} {r : Request} {result : Int} (refusal : Texte)
    (hs : refusal ∈ ["OK", "E03", "E04", "E05"].map texte) (hne : refusal ≠ texte "OK")
    (hg : g₁ = g.withTable g₁.breakpoints g₁.breakpoints_number) (ht : g₁.Tabled)
    (hp : g₁.points = if result = 0 then g.points else r.effect g.points) :
    ∃ g', (if result ≠ 0 then g₁.gdbSendData (texte "OK") else g₁.gdbSendData refusal) = .ok g' ∧
      g.Requested r g' := by
  by_cases h : result = 0
  · rw [if_pos h] at hp
    rw [if_neg (not_not.mpr h)]
    exact Requested.of_answer refusal hs hg ht (by rw [hp, if_neg hne])
  · rw [if_neg h] at hp
    rw [if_pos h]
    exact Requested.of_answer (texte "OK") (by decide) hg ht (by rw [hp, if_pos rfl])

theorem setBreakpoint_spec (g : Gdb) (ht : g.Tabled) (c : Call) (data : Texte) :
    ∃ g', g.setBreakpoint c data = .ok g' ∧ g.Requested (.set c data) g' := by
  have hr : (Request.set c data).effect g.points =
      Set.insert (Request.set c data).address g.points := rfl
  rw [Request.address] at hr
  rw [setBreakpoint]
  generalize sscanfHhxXX data c.type c.address c.length = t at hr
  obtain ⟨type, address, length⟩ := t
  dsimp only at hr ⊢
  by_cases h0 : type = 0
  · obtain ⟨result, g₁, he, hg, ht₁, _, hp⟩ := add_spec g ht address
    rw [if_neg (not_not.mpr h0), he, Fallible.ok_bind]
    exact Requested.of_edit (texte "E04") (by decide) (by decide) hg ht₁ (by rw [hp, hr])
  · rw [if_pos h0]
    exact Requested.of_answer (texte "E03") (by decide) rfl ht (by rw [if_neg (by decide)])

theorem removeBreakpoint_spec (g : Gdb) (ht : g.Tabled) (c : Call) (data : Texte) :
    ∃ g', g.removeBreakpoint c data = .ok g' ∧ g.Requested (.remove c data) g' := by
  have hr : (Request.remove c data).effect g.points =
      g.points \ {(Request.remove c data).address} := rfl
  rw [Request.address] at hr
  rw [removeBreakpoint]
  generalize sscanfHhxXX data c.type c.address c.length = t at hr
  obtain ⟨type, address, length⟩ := t
  dsimp only at hr ⊢
  by_cases h0 : type = 0
  · obtain ⟨result, g₁, he, hg, ht₁, hin, hp⟩ := remove_spec g ht address
    rw [if_neg (not_not.mpr h0), he, Fallible.ok_bind]
    refine Requested.of_edit (texte "E05") (by decide) (by decide) hg ht₁ ?_
    split
    · rename_i h
      have hout : address ∉ g.points := fun ha => hin.mpr ha h
      rw [hp, Set.sdiff_singleton_eq_self hout]
    · rw [hp, hr]
  · rw [if_pos h0]
    exact Requested.of_answer (texte "E03") (by decide) rfl ht (by rw [if_neg (by decide)])

theorem gdbInitData_tabled (arm : ArmCore) (packet : Nat → Byte) (breakpoints : Nat → Word) :
    (gdbInitData arm packet breakpoints).Tabled :=
  ⟨Nat.zero_le _, fun _ j _ hj => absurd hj (Nat.not_lt_zero j)⟩

theorem gdbInitData_points (arm : ArmCore) (packet : Nat → Byte) (breakpoints : Nat → Word) :
    (gdbInitData arm packet breakpoints).points = ∅ := by
  refine Set.eq_empty_iff_forall_notMem.mpr fun a ha => ?_
  obtain ⟨i, hi, _⟩ := ha
  exact Nat.not_lt_zero i hi

end Gdb

namespace Request

structure Tracked (s : Gdb × Set Word) : Prop where
  tabled : s.1.Tabled
  points : s.1.points = s.2

theorem track_spec (s : Gdb × Set Word) (r : Request) (hs : Tracked s) :
    ∃ s', track s r = .ok s' ∧ Tracked s' := by
  have hr : ∃ g', r.handle s.1 = .ok g' ∧ s.1.Requested r g' := by
    cases r with
    | set c data => exact Gdb.setBreakpoint_spec s.1 hs.tabled c data
    | remove c data => exact Gdb.removeBreakpoint_spec s.1 hs.tabled c data
  obtain ⟨g', he, hreq⟩ := hr
  refine ⟨_, by rw [track, he]; rfl, ⟨hreq.tabled, ?_⟩⟩
  rw [hreq.points, hs.points]

theorem history_tracked (s : Gdb × Set Word) (rs : List Request) (hs : Tracked s) :
    ∃ s', history s rs = .ok s' ∧ Tracked s' :=
  Fallible.run_total (fun s r => track_spec s r) s rs hs

end Request

end Armator
