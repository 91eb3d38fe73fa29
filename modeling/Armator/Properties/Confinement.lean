import Armator.Architecture.Footprint
import Armator.Properties.Continue
import Armator.Properties.Privilege
import Armator.Properties.Undefined

namespace Armator

open BitFields DoWhile

def ArmCore.after (p : ArmCore) (hosts : Nat → Host) (n : Nat) : ArmCore :=
  (iterate machineStep hosts (0, p) n).2

theorem bank_isolation (hosts : Nat → Host) (p : ArmCore) (n : Nat) (i : Slot)
    (hi : ∀ k < n, ¬ Owns (p.after hosts k).mode i) :
    (p.after hosts n).reg.registre i = p.reg.registre i := by
  refine iterate_preserves (P := fun x : Int × ArmCore => x.2.reg.registre i = p.reg.registre i) rfl
    fun k hk ih => ?_
  rw [← ih]
  exact armStep_within (hosts k) (p.after hosts k) i (hi k hk)

-- R13 of the supervisor, while a user program counts.
theorem bank_isolation_svc :
    ((userProgram [0xE2800001, 0xE2800001]).after (fun _ => Host.blank) 2).reg.registre R13_svc =
      (userProgram [0xE2800001, 0xE2800001]).reg.registre R13_svc := by
  refine bank_isolation (fun _ => Host.blank) _ 2 R13_svc fun k hk => ?_
  interval_cases k
  · decide
  · decide

def Stores (h : Host) (p : ArmCore) : Prop :=
  condNotRespect p.fetched (p.fetchedWord h) = 0 ∧ Storing (p.fetchedWord h)

theorem memory_footprint (hosts : Nat → Host) (p : ArmCore) (n : Nat) :
    (p.after hosts n).mem.size = p.mem.size ∧
      (∀ b : Word, p.mem.size + 3 ≤ b.toNat → (p.after hosts n).mem.data b = p.mem.data b) ∧
      ((∀ k < n, ¬ Stores (hosts k) (p.after hosts k)) → (p.after hosts n).mem = p.mem) := by
  have hkept : Kept (∃ k < n, Stores (hosts k) (p.after hosts k)) p.mem (p.after hosts n).mem := by
    refine iterate_preserves
      (P := fun x : Int × ArmCore => Kept (∃ k < n, Stores (hosts k) (p.after hosts k)) p.mem x.2.mem)
      (.refl _ _) fun k hk ih => ?_
    exact ih.trans ((armStep_kept (hosts k) (p.after hosts k)).mono fun hs => ⟨k, hk, hs⟩)
  refine ⟨hkept.size, hkept.beyond, fun hn => hkept.same ?_⟩
  rintro ⟨k, hk, hs⟩
  exact hn k hk hs

section User

variable (h : Host) (p : ArmCore)

-- The two ways out of user mode: the write that MSR misplaces, and the reset that a refused
-- data-processing instruction is taken for.
def Escapes : Prop :=
  MsrToCpsr p.fetched (p.fetchedWord h) ∨
    (kindOf (p.fetchedWord h) = .dataProcessing ∧
      condNotRespect p.fetched (p.fetchedWord h) ≠ 0)

theorem execute_control_any (ins : Word) (hm : p.mode = USR) (hc : condNotRespect p ins = 0)
    (hn : ¬ MsrToCpsr p ins) : ControlKept p ((kindOf ins).execute h p ins).2 := by
  by_cases hz : ((kindOf ins).execute h p ins).1 = 0
  · exact execute_control h p ins hm hc hn hz
  · cases hk : kindOf ins with
    | miscellaneous =>
        rw [hk] at hz
        rw [Kind.execute] at hz ⊢
        split at hz
        · rename_i h21
          rw [if_pos h21]
          rcases fonctionMSR_code h p ins with he | he
          · exact absurd he hz
          · rw [he]
            exact .of_cpsr rfl
        · rename_i h21
          rw [if_neg h21]
          exact .of_cpsr rfl
    | dataProcessing =>
        rw [hk] at hz
        rw [Kind.execute] at hz ⊢
        rcases executeDataProcessing_cases h p ins with he | ⟨v, he⟩ | he
        · rw [he] at hz
          exact absurd rfl hz
        · rw [he] at hz
          exact absurd rfl hz
        · rw [he]
          exact .of_cpsr (operationWrite_cpsr _ _ _ p ins)
    | transfer => exact .of_cpsr (armLoadStore_writes h p ins).cpsr
    | blockTransfer => exact .of_cpsr (armLoadStoreMultiple_writes h p ins).cpsr
    | branch => exact armBranch_control p ins
    | interrupt => exact .of_cpsr rfl
    | undefined => exact .of_cpsr rfl

theorem aiguiller_control_any (ins : Word) (hm : p.mode = USR) (hn : ¬ MsrToCpsr p ins) :
    ControlKept p (aiguiller h p ins).2 := by
  rcases aiguiller_cases h p ins with ⟨hc, he⟩ | ⟨_, he⟩ | ⟨_, he⟩
  · rw [he]
    exact execute_control_any h p ins hm hc hn
  · rw [he]
    exact armBranch_control p ins
  · rw [he]
    exact .of_cpsr rfl

theorem answer_ne_reset {r : Int} (hr : isAnswer r) : r ≠ RESET := by
  rcases hr with rfl | rfl | rfl
  · decide
  · decide
  · decide

theorem armExecuteInstruction_reset :
    (armExecuteInstruction h p).1 = RESET ↔
      kindOf (p.fetchedWord h) = .dataProcessing ∧
        condNotRespect p.fetched (p.fetchedWord h) ≠ 0 := by
  rw [armExecuteInstruction_eq]
  generalize p.fetchedWord h = ins
  rcases aiguiller_cases h p.fetched ins with ⟨hc, he⟩ | ⟨hb, he⟩ | ⟨hc, he⟩
  · refine iff_of_false ?_ fun hk => hk.2 hc
    rw [he]
    by_cases hk : kindOf ins = .interrupt
    · have hswi : SOFTWARE_INTERRUPT ≠ RESET := by decide
      rw [hk]
      exact hswi
    · exact answer_ne_reset (execute_answer h p.fetched ins hc hk)
  · refine iff_of_false ?_ fun hk => ?_
    · have hcodes : (0 : Int) ≠ RESET ∧ (-1 : Int) ≠ RESET := by decide
      rw [he]
      rcases armBranch_code p.fetched ins with h0 | h1
      · rw [h0]
        exact hcodes.1
      · rw [h1]
        exact hcodes.2
    · rw [hb] at hk
      cases hk.1
  · have hrefusal : ∀ k : Kind, k.refusal = RESET ↔ k = .dataProcessing := by
      intro k
      cases k <;> decide
    rw [he, and_iff_left hc]
    exact hrefusal _

theorem armStep_cpsr (hr : (armExecuteInstruction h p).1 ≠ RESET) :
    (armStep h p).2.cpsr = (armExecuteInstruction h p).2.cpsr := by
  have hcode := armExecuteInstruction_code h p
  by_cases hz : (armExecuteInstruction h p).1 = 0
  · rw [armStep_of_zero h p hz]
  · rw [armStep_of_ne_zero h p hz]
    generalize (armExecuteInstruction h p).1 = r at hr hcode
    have hbyte : ¬ ((BitVec.ofInt 8 r).toNat : Int) = RESET := by
      simp only [executionCodes, List.mem_cons, List.not_mem_nil, or_false] at hcode
      rcases hcode with rfl | rfl | rfl | rfl | rfl | rfl
      · decide
      · exact absurd rfl hr
      · decide
      · decide
      · decide
      · decide
    have hreset (q : ArmCore) : (armExceptionReset q (BitVec.ofInt 8 r)).2 = q := by
      rw [armExceptionReset, if_neg hbyte]
    rw [armException]
    split
    · dsimp only
      split
      · rfl
      · split
        · rfl
        · rw [hreset]
    · rw [hreset]

theorem mode_of_control {q : ArmCore} (hk : ControlKept p q) : q.mode = p.mode := by
  have hall : ∀ i < 5, i ∈ controlBits := by decide
  exact registersGetMode_congr _ _ fun i hi => hk i (hall i hi)

theorem armStep_confined (hm : p.mode = USR) (hn : ¬ Escapes h p) :
    ControlKept p (armStep h p).2 := by
  have hmf : p.fetched.mode = USR := by rw [fetched_mode, hm]
  have hr : (armExecuteInstruction h p).1 ≠ RESET := fun hr =>
    hn (Or.inr ((armExecuteInstruction_reset h p).mp hr))
  have hexec := aiguiller_control_any h p.fetched (p.fetchedWord h) hmf fun hs => hn (Or.inl hs)
  intro i hi
  rw [armStep_cpsr h p hr, ← fetched_cpsr p]
  exact hexec i hi

theorem armStep_escapes (hm : p.mode = USR) (he : Escapes h p) : (armStep h p).2.mode ≠ USR := by
  have hmf : p.fetched.mode = USR := by rw [fetched_mode, hm]
  rcases he with hs | hr
  · -- The status that MSR writes has no bit 4.
    obtain ⟨hz, hbit⟩ := hs.escapes h hmf
    intro hu
    rw [armStep_of_zero h p hz] at hu
    refine hbit ?_
    rw [← armExecuteInstruction_eq, ← bit_mode _ 4 (by decide), ← bit_mode _ 4 (by decide), hu, hmf]
  · have hcode := (armExecuteInstruction_reset h p).mpr hr
    have hz : (armExecuteInstruction h p).1 ≠ 0 := by
      rw [hcode]
      decide
    rw [armStep_of_ne_zero h p hz, hcode]
    change (armWriteRegister (armWriteCpsr _ (0x1d3 ||| Exception_bit_9)) 15 0).mode ≠ USR
    rw [armWriteRegister_mode _ _ _ (by decide)]
    change BitVec.setWidth 8 (armWriteCpsr _ _).cpsr &&& 0x1f ≠ USR
    rw [armWriteCpsr_cpsr]
    decide

end User

theorem user_confined (hosts : Nat → Host) (p : ArmCore) (hm : p.mode = USR) (n : Nat) :
    ((∀ k ≤ n, (p.after hosts k).mode = USR) ↔
        ∀ k < n, ¬ Escapes (hosts k) (p.after hosts k)) ∧
      ((∀ k < n, ¬ Escapes (hosts k) (p.after hosts k)) →
        ControlKept p (p.after hosts n) ∧ Within USR p (p.after hosts n)) := by
  have hmode : ∀ k ≤ n, (∀ j < n, ¬ Escapes (hosts j) (p.after hosts j)) →
      ControlKept p (p.after hosts k) ∧ Within USR p (p.after hosts k) := by
    intro k hk hnone
    induction k with
    | zero => exact ⟨fun _ _ => rfl, .refl _ _⟩
    | succ k ih =>
        obtain ⟨hctl, hwith⟩ := ih (by omega)
        have hu : (p.after hosts k).mode = USR := by rw [mode_of_control p hctl, hm]
        have hstep := armStep_confined (hosts k) (p.after hosts k) hu (hnone k (by omega))
        have hone := armStep_within (hosts k) (p.after hosts k)
        rw [hu] at hone
        exact ⟨fun i hi => (hstep i hi).trans (hctl i hi), hwith.trans hone⟩
  refine ⟨⟨fun hall k hk he => ?_, fun hnone k hk => ?_⟩, hmode n (Nat.le_refl n)⟩
  · exact armStep_escapes (hosts k) (p.after hosts k) (hall k (by omega)) he (hall (k + 1) hk)
  · rw [mode_of_control p (hmode k hk hnone).1, hm]

theorem user_confined_add :
    ControlKept (userProgram [0xE2800001, 0xE2800001])
        ((userProgram [0xE2800001, 0xE2800001]).after (fun _ => Host.blank) 2) ∧
      Within USR (userProgram [0xE2800001, 0xE2800001])
        ((userProgram [0xE2800001, 0xE2800001]).after (fun _ => Host.blank) 2) := by
  refine (user_confined (fun _ => Host.blank) _ (by decide) 2).2 fun k hk => ?_
  interval_cases k
  · rintro (hs | hr)
    · exact absurd hs.kind (by decide)
    · exact absurd hr.2 (by decide)
  · rintro (hs | hr)
    · exact absurd hs.kind (by decide)
    · exact absurd hr.2 (by decide)

end Armator
