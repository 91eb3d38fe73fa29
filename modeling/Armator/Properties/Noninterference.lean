import Armator.Architecture.Hidden
import Armator.Properties.Confinement

namespace Armator

open DoWhile

-- The registers that the mode of some of the first `n` steps sees.
def Seen (hosts : Nat → Host) (p : ArmCore) (n : Nat) (i : Slot) : Prop :=
  ∃ k < n, Owns (p.after hosts k).mode i

-- Two machines that can differ in the registers that are not seen alone.
structure Alike (seen : Slot → Prop) (p q : ArmCore) : Prop where
  registre : ∀ i, seen i → q.reg.registre i = p.reg.registre i
  mem : q.mem = p.mem
  cycle_count : q.cycle_count = p.cycle_count
  console : q.console = p.console

theorem alike_hide (v : View) (g : Slot → Word) (p : ArmCore) : Alike v.seen p (p.hide v g) :=
  ⟨fun _ hi => hide_registre g p.reg hi, rfl, rfl, rfl⟩

theorem Alike.eq_hide {v : View} {p q : ArmCore} (h : Alike v.seen p q) :
    q = p.hide v q.reg.registre := by
  obtain ⟨cycles, reg, mem, console⟩ := q
  obtain ⟨hreg, rfl, rfl, rfl⟩ := h
  have hr : reg = p.reg.hide v reg.registre := by
    refine Registers.ext (funext fun i => ?_)
    by_cases hi : v.seen i
    · rw [hide_registre _ _ hi]
      exact hreg i hi
    · rw [hide_unseen _ _ hi]
  rw [ArmCore.hide, ← hr]

theorem iterate_hide (v : View) (g : Slot → Word) (hosts : Nat → Host) (p : ArmCore) (n : Nat)
    (hv : ∀ k < n, v.Covers (p.after hosts k)) :
    iterate machineStep hosts (0, p.hide v g) n =
      hideAfter v g (iterate machineStep hosts (0, p) n) := by
  induction n with
  | zero => rfl
  | succ n ih =>
      rw [iterate, ih fun k hk => hv k (Nat.lt_succ_of_lt hk)]
      exact hide_armStep g (hosts n) (hv n (Nat.lt_succ_self n))

theorem noninterference (hosts : Nat → Host) (p q : ArmCore) (n : Nat)
    (hpq : Alike (Seen hosts p n) p q) (k : Nat) (hk : k ≤ n) :
    (iterate machineStep hosts (0, q) k).1 = (iterate machineStep hosts (0, p) k).1 ∧
      Alike (Seen hosts p n) (p.after hosts k) (q.after hosts k) := by
  cases n with
  | zero =>
      obtain rfl := Nat.le_zero.mp hk
      exact ⟨rfl, hpq⟩
  | succ n =>
      let v : View := ⟨Seen hosts p (n + 1), fun i hi => ⟨0, Nat.succ_pos n, hi _⟩⟩
      have hq : q = p.hide v q.reg.registre := Alike.eq_hide (v := v) hpq
      have hrun := iterate_hide v q.reg.registre hosts p k
        fun j hj i hi => ⟨j, Nat.lt_of_lt_of_le hj hk, hi⟩
      rw [← hq] at hrun
      rw [ArmCore.after, ArmCore.after, hrun]
      exact ⟨rfl, alike_hide v _ _⟩

def ArmCore.putR13_svc (p : ArmCore) (value : Word) : ArmCore :=
  { p with reg := p.reg.set R13_svc value }

-- Another R13 of the supervisor, while a user program counts.
theorem noninterference_svc :
    (iterate machineStep (fun _ => Host.blank)
        (0, (userProgram [0xE2800001, 0xE2800001]).putR13_svc 7) 2).1 =
      (iterate machineStep (fun _ => Host.blank) (0, userProgram [0xE2800001, 0xE2800001]) 2).1 ∧
      Alike (Seen (fun _ => Host.blank) (userProgram [0xE2800001, 0xE2800001]) 2)
        ((userProgram [0xE2800001, 0xE2800001]).after (fun _ => Host.blank) 2)
        (((userProgram [0xE2800001, 0xE2800001]).putR13_svc 7).after (fun _ => Host.blank) 2) := by
  have hpq : Alike (Seen (fun _ => Host.blank) (userProgram [0xE2800001, 0xE2800001]) 2)
      (userProgram [0xE2800001, 0xE2800001])
      ((userProgram [0xE2800001, 0xE2800001]).putR13_svc 7) := by
    refine ⟨fun i ⟨k, hk, ho⟩ => ?_, rfl, rfl, rfl⟩
    have hne : i ≠ R13_svc := by
      rintro rfl
      interval_cases k
      · exact absurd ho (by decide)
      · exact absurd ho (by decide)
    exact (Registers.set_registre _ _ _ _).trans (if_neg hne)
  exact noninterference (fun _ => Host.blank) _ _ 2 hpq 2 (Nat.le_refl 2)

end Armator
