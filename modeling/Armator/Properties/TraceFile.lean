import Armator.Architecture.TraceReplay
import Armator.Properties.Confinement

namespace Armator

open DoWhile Recorded

namespace Trace

def executer (hosts : Nat → Host) : Nat → Calcul Int
  | 0 => return 0
  | n + 1 => do
      let _ ← executer hosts n
      armStep (hosts n)

theorem result_executer (hosts : Nat → Host) (p : ArmCore) (n : Nat) :
    result (executer hosts n) p = iterate machineStep hosts (0, p) n := by
  induction n with
  | zero => rfl
  | succ n ih => rw [executer, result_bind, ih, iterate, machineStep, result_armStep]

theorem tells_executer {be : Bool} {hosts : Nat → Host} (hbe : ∀ k, (hosts k).ENDIANESS = be)
    (n : Nat) : Tells be (executer hosts n) := by
  induction n with
  | zero => exact .pure 0
  | succ n ih => exact .bind ih fun _ => tells_armStep (hbe n)

def Appel.ligne : Appel → Ligne
  | .register cycle type reg mode value => .register cycle type reg (armGetModeName mode) value
  | .memory cycle type size cause address value => .memory cycle type size cause address value

-- The mode of a name, and one without a name where a line shows none.
def modeNomme : Option String → Byte
  | none => 0
  | some name => (armModes.find? fun mode => armGetModeName mode = some name).getD 0

def Ligne.appel : Ligne → Appel
  | .register cycle type reg mode_name value => .register cycle type reg (modeNomme mode_name) value
  | .memory cycle type size cause address value => .memory cycle type size cause address value

theorem bank_unnamed (reg : RegNum) {mode : Byte} (h : mode ∉ armModes) :
    bank (reg, mode) = if reg = 13 ∨ reg = 14 ∨ reg = 17 then none
      else some (reg.castLE regNum_le_slot) := by
  rcases mode_cases mode with hm | ⟨_, hp, h1, h2, h3, h4, h5, h6, h7⟩
  · exact absurd hm h
  · by_cases h17 : reg = 17
    · simp [bank, hp, h17]
    · simp [bank, hp, h1, h2, h7, h17]

theorem bank_modeNomme (reg : RegNum) (mode : Byte) :
    bank (reg, modeNomme (armGetModeName mode)) = bank (reg, mode) := by
  rcases mode_cases mode with h | ⟨hm, _, h1, h2, h3, h4, h5, h6, h7⟩
  · rcases (mem_armModes mode).mp h with rfl | rfl | rfl | rfl | rfl | rfl | rfl <;> rfl
  · have hname : armGetModeName mode = none := by
      simp only [armGetModeName, if_neg h1, if_neg h2, if_neg h3, if_neg h4, if_neg h5, if_neg h6,
        if_neg h7]
    have h0 : (0 : Byte) ∉ armModes := by decide
    rw [hname, modeNomme, bank_unnamed reg h0, bank_unnamed reg hm]

theorem registersWrite_named (r : Registers) (reg : RegNum) (mode : Byte) (value : Word) :
    registersWrite r reg (modeNomme (armGetModeName mode)) value = registersWrite r reg mode value := by
  ext i
  rw [registersWrite_registre, registersWrite_registre, bank_modeNomme]

theorem registersRead_named (r : Registers) (reg : RegNum) (mode : Byte) :
    registersRead r reg (modeNomme (armGetModeName mode)) = registersRead r reg mode := by
  rw [registersRead_bank, registersRead_bank, Cells.read, Cells.read, bank_modeNomme]

theorem apply_ligne (be : Bool) (a : Appel) (m : Machine) :
    a.ligne.appel.apply be m = a.apply be m := by
  cases a with
  | register cycle type reg mode value =>
      cases type with
      | WRITE =>
          simp only [Appel.ligne, Ligne.appel, Appel.apply, registersWrite_named]
      | READ =>
          have hshown : shown m.reg reg (modeNomme (armGetModeName mode)) = shown m.reg reg mode := by
            rw [shown, shown, registersRead_named]
          simp only [Appel.ligne, Ligne.appel, Appel.apply, hshown]
  | memory => rfl

def Etat.prints (t : Etat) : Appel → Bool
  | .register .. => t.enabled && decide (t.trace_flags &&& REGISTERS ≠ 0)
  | .memory .. => t.enabled && decide (t.trace_flags &&& MEMORY ≠ 0)

theorem prints_memory {t : Etat} (ht : t.enabled = true) (hmem : t.trace_flags &&& MEMORY ≠ 0)
    (cycle : Word) (type : Acces) (size : Byte) (cause : Cause) (address value : Word) :
    t.prints (.memory cycle type size cause address value) = true := by
  rw [Etat.prints, ht, decide_eq_true hmem]
  rfl

theorem prints_register {t : Etat} (ht : t.enabled = true)
    (hreg : t.trace_flags &&& REGISTERS ≠ 0) (cycle : Word) (type : Acces) (reg : RegNum)
    (mode : Byte) (value : Word) : t.prints (.register cycle type reg mode value) = true := by
  rw [Etat.prints, ht, decide_eq_true hreg]
  rfl

theorem prints_appeler (t : Etat) (a : Appel) : (t.appeler a).prints = t.prints := by
  funext b
  cases a <;> cases b <;> simp only [Etat.appeler, traceRegister, traceMemory] <;> split <;> rfl

theorem appeler_silent {t : Etat} {a : Appel} (h : t.prints a = false) : t.appeler a = t := by
  cases a with
  | register =>
      have hn : ¬ (t.enabled ∧ t.trace_flags &&& REGISTERS ≠ 0) := by simpa [Etat.prints] using h
      exact if_neg hn
  | memory =>
      have hn : ¬ (t.enabled ∧ t.trace_flags &&& MEMORY ≠ 0) := by simpa [Etat.prints] using h
      exact if_neg hn

theorem appeler_line {t : Etat} {a : Appel} (h : t.prints a = true) :
    (t.appeler a).output = t.output ++ [a.ligne] := by
  cases a with
  | register cycle type reg mode value =>
      have hp : t.enabled ∧ t.trace_flags &&& REGISTERS ≠ 0 := by simpa [Etat.prints] using h
      have ht : t.appeler (.register cycle type reg mode value) = _ := if_pos hp
      rw [ht]
      rfl
  | memory cycle type size cause address value =>
      have hp : t.enabled ∧ t.trace_flags &&& MEMORY ≠ 0 := by simpa [Etat.prints] using h
      have ht : t.appeler (.memory cycle type size cause address value) = _ := if_pos hp
      rw [ht]
      rfl

theorem file_lines (t : Etat) (calls : List Appel) :
    (calls.foldl Etat.appeler t).output = t.output ++ (calls.filter t.prints).map Appel.ligne := by
  induction calls generalizing t with
  | nil => exact (List.append_nil _).symm
  | cons a calls ih =>
      have hrest := ih (t.appeler a)
      rw [prints_appeler] at hrest
      rw [List.foldl_cons, hrest]
      cases ha : t.prints a with
      | false => rw [appeler_silent ha, List.filter_cons_of_neg (by simp [ha])]
      | true =>
          rw [appeler_line ha, List.filter_cons_of_pos ha, List.map_cons, List.append_assoc,
            List.singleton_append]

def Appel.memoire (be : Bool) : Appel → Memory → Memory
  | .memory _ .WRITE size _ address value, m => written be m size address value
  | _, m => m

def Appel.registres : Appel → (Slot → Word) → Slot → Word
  | .register _ .WRITE reg mode value, r => Cells.write bank r (reg, mode) value
  | _, r => r

theorem apply_memoire (be : Bool) (a : Appel) (m m' : Machine) (mem : Memory)
    (h : a.apply be m = some m') (hm : m.mem = mem) : m'.mem = a.memoire be mem := by
  subst hm
  cases a with
  | register cycle type reg mode value =>
      cases type <;> cases (Option.ite_none_right_eq_some.mp h).2 <;> rfl
  | memory cycle type size cause address value =>
      cases type <;> cases cause <;> cases (Option.ite_none_right_eq_some.mp h).2 <;> rfl

theorem apply_registres (be : Bool) (a : Appel) (m m' : Machine) (r : Slot → Word)
    (h : a.apply be m = some m') (hr : ∀ i, i ≠ PC → m.reg.registre i = r i) :
    ∀ i, i ≠ PC → m'.reg.registre i = a.registres r i := by
  intro i hi
  cases a with
  | register cycle type reg mode value =>
      cases type with
      | WRITE =>
          cases (Option.ite_none_right_eq_some.mp h).2
          rw [registersWrite_registre, hr i hi]
          exact (Cells.write_apply bank r (reg, mode) value i).symm
      | READ =>
          cases (Option.ite_none_right_eq_some.mp h).2
          exact hr i hi
  | memory cycle type size cause address value =>
      cases type with
      | WRITE =>
          cases (Option.ite_none_right_eq_some.mp h).2
          exact hr i hi
      | READ =>
          cases cause with
          | OTHER_ACCESS =>
              cases (Option.ite_none_right_eq_some.mp h).2
              exact hr i hi
          | OPCODE_FETCH =>
              cases (Option.ite_none_right_eq_some.mp h).2
              rw [Registers.set_registre, if_neg hi]
              exact hr i hi

-- The lines that are missing from a file have no effect that shows in it.
theorem foldl_lines {ρ : Type} (effect : Appel → ρ → ρ) (prints : Appel → Bool)
    (hline : ∀ a r, effect a.ligne.appel r = effect a r)
    (h : ∀ a r, prints a = false → effect a r = r) (calls : List Appel) (r : ρ) :
    ((calls.filter prints).map Appel.ligne).foldl (fun r l => effect l.appel r) r =
      calls.foldl (fun r a => effect a r) r := by
  rw [List.foldl_map, List.foldl_filter]
  congr 1
  funext r a
  rw [hline]
  split
  · rfl
  · exact (h a r (Bool.eq_false_iff.mpr ‹_›)).symm

theorem registres_ligne (a : Appel) (r : Slot → Word) : a.ligne.appel.registres r = a.registres r := by
  cases a with
  | register cycle type reg mode value =>
      cases type with
      | WRITE =>
          change Cells.write bank r (reg, modeNomme (armGetModeName mode)) value = _
          rw [Cells.write, bank_modeNomme]
          rfl
      | READ => rfl
  | memory => rfl

theorem replay_lines (be : Bool) (calls : List Appel) (m : Machine) :
    replay (fun l : Ligne => l.appel.apply be) (calls.map Appel.ligne) m =
      replay (Appel.apply be) calls m := by
  induction calls generalizing m with
  | nil => rfl
  | cons a calls ih =>
      rw [List.map_cons, replay, replay, apply_ligne]
      exact congrArg (Option.bind _) (funext ih)

def Etat.depart (trace_flags : Word) : Etat := ⟨[], 0x12345678, true, trace_flags⟩

def file (hosts : Nat → Host) (t : Etat) (p : ArmCore) (n : Nat) : Etat :=
  (Fait.appels (record (executer hosts n) p)).foldl Etat.appeler t

theorem trace_file (be : Bool) (hosts : Nat → Host) (hbe : ∀ k, (hosts k).ENDIANESS = be)
    (t : Etat) (ht : t.enabled = true) (p : ArmCore) (n : Nat) :
    ∃ ls, (file hosts t p n).output = t.output ++ ls ∧
      (t.trace_flags &&& MEMORY ≠ 0 →
        (p.after hosts n).mem = ls.foldl (fun m l => l.appel.memoire be m) p.mem) ∧
      (t.trace_flags &&& REGISTERS ≠ 0 → ∀ i, i ≠ PC → (p.after hosts n).reg.registre i =
        ls.foldl (fun r l => l.appel.registres r) p.reg.registre i) ∧
      (t.trace_flags &&& MEMORY ≠ 0 → t.trace_flags &&& REGISTERS ≠ 0 →
        replay (fun l : Ligne => l.appel.apply be) ls (machine p) =
          some (machine (p.after hosts n))) := by
  have hreplay : replay (Appel.apply be) (Fait.appels (record (executer hosts n) p)) (machine p) =
      some (machine (p.after hosts n)) := by
    rw [replay_appels, tells_executer hbe n p, result_executer]
    rfl
  refine ⟨_, file_lines t (Fait.appels (record (executer hosts n) p)), fun hmem => ?_, fun hreg i hi => ?_,
    fun hmem hreg => ?_⟩
  · rw [foldl_lines (Appel.memoire be)]
    · exact replay_simulates (R := fun m mem => m.mem = mem) (apply_memoire be) rfl hreplay
    · intro a m
      cases a with
      | register => rfl
      | memory => rfl
    · intro a m ha
      cases a with
      | register => rfl
      | memory =>
          rw [prints_memory ht hmem] at ha
          cases ha
  · rw [foldl_lines Appel.registres]
    · exact replay_simulates
        (R := fun m (r : Slot → Word) => ∀ i, i ≠ PC → m.reg.registre i = r i)
        (apply_registres be) (fun _ _ => rfl) hreplay i hi
    · exact registres_ligne
    · intro a r ha
      cases a with
      | register =>
          rw [prints_register ht hreg] at ha
          cases ha
      | memory => rfl
  · have hall : ∀ a, t.prints a = true := by
      intro a
      cases a with
      | register => exact prints_register ht hreg _ _ _ _ _
      | memory => exact prints_memory ht hmem _ _ _ _ _ _
    rw [List.filter_eq_self.mpr fun a _ => hall a, replay_lines]
    exact hreplay

theorem trace_file_user :
    ∃ ls, (file (fun _ => Host.blank) (Etat.depart 96) (userProgram [0xE2800001, 0xE2800001])
        2).output = ls ∧ ls.length = 12 ∧
      replay (fun l : Ligne => l.appel.apply Host.blank.ENDIANESS) ls
        (machine (userProgram [0xE2800001, 0xE2800001])) =
      some (machine ((userProgram [0xE2800001, 0xE2800001]).after (fun _ => Host.blank) 2)) := by
  obtain ⟨ls, hout, -, -, hall⟩ := trace_file Host.blank.ENDIANESS (fun _ => Host.blank)
    (fun _ => rfl) (Etat.depart 96) rfl (userProgram [0xE2800001, 0xE2800001]) 2
  refine ⟨ls, hout, ?_, hall (by decide) (by decide)⟩
  rw [← List.nil_append ls, ← show _ = [] ++ ls from hout]
  decide +kernel

end Trace

end Armator
