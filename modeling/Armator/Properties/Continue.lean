import Armator.Architecture.BreakpointRequests
import Armator.Architecture.CoreFrames
import Armator.Library.DoWhile

namespace Armator

open DoWhile Placed

def Call.later (c : Call) (n : Nat) : Call := { c with hosts := fun i => c.hosts (n + i) }

def machineStep (h : Host) (x : Int × ArmCore) : Int × ArmCore := armStep h x.2

def stopped (s : Set Word) (x : Int × ArmCore) : Prop := x.2.pc ∈ s ∨ x.1 ≠ 0

namespace Gdb

def withMachine (g : Gdb) (x : Int × ArmCore) : Gdb :=
  { g with arm := x.2, target_exception := x.1 }

def machine (g : Gdb) : Int × ArmCore := (g.target_exception, g.arm)

def steps (c : Call) (data : Texte) (g : Gdb) : Nat → Except Fault Gdb
  | 0 => .ok g
  | n + 1 => steps c data g n >>= fun t => t.step (c.later n) data

-- `s` is the state after the last of `n` commands `s`, `t` the state before it.
structure LastStep (g : Gdb) (c : Call) (data : Texte) (n : Nat) (t s : Gdb) (reply : Texte) :
    Prop where
  before : g.steps c data (n - 1) = .ok t
  last : t.step (c.later (n - 1)) data = .ok s
  machine : s.machine = iterate machineStep c.hosts g.machine n
  sent : s.sortie = t.sortie ++ reply
  reason : reply = frame (stopReason s.target_exception)

structure ContinuesAs (g : Gdb) (c : Call) (data : Texte) (n : Nat) (s : Gdb) (reply : Texte) :
    Prop where
  ends : ∀ fuel, n ≤ fuel →
    g.cont { c with fuel := fuel } data = .ok { s with sortie := g.sortie ++ reply }
  goesOn : ∀ fuel, fuel < n → g.cont { c with fuel := fuel } data = .error .sansFin

theorem Tabled.withMachine {g : Gdb} (ht : g.Tabled) (x : Int × ArmCore) :
    (g.withMachine x).Tabled :=
  ⟨ht.number_le, ht.increasing⟩

theorem continuer_stop_iff (g : Gdb) (ht : g.Tabled) :
    (if found (g.position g.arm.pc) ≠ -1 then 1 else g.target_exception) = 0 ↔
      ¬ stopped g.points g.machine := by
  by_cases h : found (g.position g.arm.pc) ≠ -1
  · rw [if_pos h]
    exact iff_of_false (by decide) (not_not.mpr (Or.inl ((found_iff ht _).mp h)))
  · rw [if_neg h]
    have hp : g.machine.2.pc ∉ g.points := fun hc => h ((found_iff ht _).mpr hc)
    rw [stopped, or_iff_right hp, not_not]
    exact Iff.rfl

theorem continuer_eq (s : Set Word) [DecidablePred (stopped s)] (g : Gdb) (ht : g.Tabled)
    (hp : g.points = s) (hosts : Nat → Host) (fuel : Nat) :
    g.continuer hosts fuel =
      match loop machineStep (stopped s) hosts g.machine fuel with
      | some x => (g.withMachine x).gdbSendStopReason
      | none => .error .sansFin := by
  induction fuel generalizing g hosts with
  | zero => rfl
  | succ fuel ih =>
      have hstep : singleStep (hosts 0) g = g.withMachine (machineStep (hosts 0) g.machine) := rfl
      have ht' := ht.withMachine (machineStep (hosts 0) g.machine)
      rw [continuer, loop, hstep]
      generalize machineStep (hosts 0) g.machine = x at ht'
      have hpc : registersRead (g.withMachine x).arm.reg 15
          (registersGetMode (g.withMachine x).arm.reg) = (g.withMachine x).arm.pc := rfl
      have hiff : _ ↔ ¬ stopped g.points x := continuer_stop_iff (g.withMachine x) ht'
      dsimp only
      rw [hpc, find_eq ht', Fallible.ok_bind]
      rw [hp] at hiff
      by_cases hs : stopped s x
      · rw [if_pos hs, if_neg (fun hc => hiff.mp hc hs)]
      · rw [if_neg hs, if_pos (hiff.mpr hs)]
        exact ih (g.withMachine x) ht' hp (shift hosts)

theorem place_reply (f : Nat → Byte) (e : Int) (u : Texte) (hu : u.length = 8) :
    place (place f 0 (frame (stopReason e) ++ [0])) 0 u = place f 0 u := by
  refine place_place f 0 0 _ u (Nat.le_refl 0) ?_
  rw [List.length_append, length_frame, (stopReason_payload e).2, hu]
  exact Nat.le_refl _

-- The replies of the steps before it leave nothing that the reply of the last step does not cover.
theorem steps_eq (g : Gdb) (c : Call) (data : Texte) (n : Nat) :
    ∃ t, g.steps c data n = .ok t ∧
      t = { g.withMachine (iterate machineStep c.hosts g.machine n) with
        packet := t.packet, len := t.len, sortie := t.sortie } ∧
      ∀ u : Texte, u.length = 8 → place t.packet 0 u = place g.packet 0 u := by
  induction n with
  | zero => exact ⟨g, rfl, rfl, fun u _ => rfl⟩
  | succ n ih =>
      obtain ⟨t, he, hm, hp⟩ := ih
      have hstep : singleStep ((c.later n).hosts 0) t =
          t.withMachine (iterate machineStep c.hosts g.machine (n + 1)) := by
        have hx : t.machine = iterate machineStep c.hosts g.machine n := by rw [hm]; rfl
        rw [iterate, ← hx]
        rfl
      refine ⟨_, by rw [steps, he, Fallible.ok_bind, step, gdbSendStopReason_eq], ?_, ?_⟩
      · rw [hstep, hm]
        rfl
      · intro u hu
        rw [hstep]
        exact (place_reply t.packet _ u hu).trans (hp u hu)

theorem cont_eq_steps (g : Gdb) (ht : g.Tabled) (c : Call) (data : Texte) (n : Nat)
    (hn : IsLeast (stopping machineStep (stopped g.points) c.hosts g.machine) n) :
    ∃ t s reply, g.LastStep c data n t s reply ∧ g.ContinuesAs c data n s reply := by
  classical
  obtain ⟨m, rfl⟩ : ∃ m, n = m + 1 := ⟨n - 1, by have := hn.1.1; omega⟩
  obtain ⟨t, he, hm, hp⟩ := steps_eq g c data m
  generalize hx : iterate machineStep c.hosts g.machine (m + 1) = x
  have hstep : t.step (c.later m) data =
      .ok ((t.withMachine x).answered (stopReason x.1)) := by
    have ht : t.machine = iterate machineStep c.hosts g.machine m := by rw [hm]; rfl
    rw [step, gdbSendStopReason_eq, ← hx, iterate, ← ht]
    rfl
  have hlen : (frame (stopReason x.1) ++ [0]).length = 8 := by
    rw [List.length_append, length_frame, (stopReason_payload x.1).2]
    rfl
  refine ⟨t, _, frame (stopReason x.1), ⟨he, hstep, hx.symm, rfl, rfl⟩,
    ⟨fun fuel hf => ?_, fun fuel hf => ?_⟩⟩
  · rw [cont, continuer_eq g.points g ht rfl, loop_eq_some hn hf, hx]
    dsimp only
    rw [gdbSendStopReason_eq, hm]
    congr 1
    rw [answered, answered]
    dsimp only [withMachine]
    rw [hp _ hlen]
  · rw [cont, continuer_eq g.points g ht rfl, loop_eq_none hn hf]

end Gdb

theorem continue_is_repeated_steps (arm : ArmCore) (packet : Nat → Byte)
    (breakpoints : Nat → Word) (rs : List Request) :
    ∃ g s, Request.history (Gdb.gdbInitData arm packet breakpoints, ∅) rs = .ok (g, s) ∧
      ∀ (x : Int × ArmCore) (c : Call) (data : Texte),
        (stopping machineStep (stopped s) c.hosts x).Nonempty →
          ∃ n, IsLeast (stopping machineStep (stopped s) c.hosts x) n ∧
            ∃ t u reply, (g.withMachine x).LastStep c data n t u reply ∧
              (g.withMachine x).ContinuesAs c data n u reply := by
  obtain ⟨⟨g, s⟩, hrun, ht, hp⟩ := Request.history_tracked (Gdb.gdbInitData arm packet breakpoints, ∅) rs
    ⟨Gdb.gdbInitData_tabled arm packet breakpoints, Gdb.gdbInitData_points arm packet breakpoints⟩
  refine ⟨g, s, hrun, fun x c data hs => ?_⟩
  obtain ⟨n, hn⟩ := exists_isLeast hs
  refine ⟨n, hn, Gdb.cont_eq_steps (g.withMachine x) (ht.withMachine x) c data n ?_⟩
  have hq : (g.withMachine x).points = s := hp
  rw [hq]
  exact hn

-- A breakpoint at 16, then MOV R0, R0 and SWI 0x123456: the second step ends the simulation.
theorem continue_to_the_end :
    ∃ g s, Request.history (Gdb.gdbInitData (afterReset []) (fun _ => 0) fun _ => 0, ∅)
        [.set Call.blank (texte "0,10,4")] = .ok (g, s) ∧
      ∃ n, IsLeast (stopping machineStep (stopped s) Call.blank.hosts
          (0, afterReset [0xE1A00000, 0xEF123456])) n ∧
        ∃ t u reply, (g.withMachine (0, afterReset [0xE1A00000, 0xEF123456])).LastStep
            Call.blank [] n t u reply ∧
          (g.withMachine (0, afterReset [0xE1A00000, 0xEF123456])).ContinuesAs
            Call.blank [] n u reply := by
  obtain ⟨g, s, hrun, hall⟩ := continue_is_repeated_steps (afterReset []) (fun _ => 0)
    (fun _ => 0) [.set Call.blank (texte "0,10,4")]
  refine ⟨g, s, hrun, hall _ Call.blank [] ⟨2, by decide, Or.inr ?_⟩⟩
  have hcode : (armStep Host.blank (armStep Host.blank
      (afterReset [0xE1A00000, 0xEF123456])).2).1 = END_SIMULATION := by decide
  exact fun h0 => absurd (hcode.symm.trans h0) (by decide)

end Armator
