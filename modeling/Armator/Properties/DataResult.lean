import Armator.Architecture.AluSpec
import Armator.Architecture.ArchState
import Armator.Simulator.Create

namespace Armator

open BitFields

structure Computed (op : Nat) (rn operande2 : Word) (p : ArmCore) (ins : Word) (q : ArmCore) :
    Prop where
  result : ¬ isComparison op → ∃ a, archReg (rdNum ins) p.mode = some a ∧
    q.arch a = armResult op rn operande2 (flagsOf p.cpsr).c
  others : ∀ a, a ≠ .cpsr → (isComparison op ∨ archReg (rdNum ins) p.mode ≠ some a) →
    q.arch a = p.arch a
  control : ∀ i < 28, bit q.cpsr i = bit p.cpsr i
  plain : ¬ isComparison op → bit ins 20 = false → q.cpsr = p.cpsr
  mem : q.mem = p.mem

section Write

variable (op : Nat) (rn operande2 : Word) (p : ArmCore) (ins : Word)

theorem operationWrite_mem : (operationWrite op rn operande2 p ins).mem = p.mem := by
  unfold operationWrite
  split <;> rfl

theorem operationWrite_result (hop : op < 16) (hm : p.mode ∈ armModes) (hc : ¬ isComparison op) :
    ∃ a, archReg (rdNum ins) p.mode = some a ∧ a ≠ .cpsr ∧
      (operationWrite op rn operande2 p ins).arch a =
        armResult op rn operande2 (flagsOf p.cpsr).c := by
  obtain ⟨h16, h17⟩ := ne_of_val_lt (rdNum_lt ins)
  obtain ⟨a, ha⟩ := archReg_isSome (rdNum ins) p.mode hm h17
  refine ⟨a, ha, ?_, ?_⟩
  · rintro rfl
    exact archReg_ne_cpsr (rdNum ins) h16 p.mode hm ha
  · rw [operationWrite, if_neg hc, armWriteRegister_arch _ _ _ _ hm, if_pos ha,
      tempOf_setWidth op rn operande2 p.cpsr hop]
    rfl

theorem operationWrite_others (hm : p.mode ∈ armModes) (a : ArchReg)
    (h : isComparison op ∨ archReg (rdNum ins) p.mode ≠ some a) :
    (operationWrite op rn operande2 p ins).arch a = p.arch a := by
  rw [operationWrite]
  split
  · rfl
  · rename_i hc
    rw [armWriteRegister_arch _ _ _ _ hm, if_neg (h.resolve_left hc)]

end Write

theorem data_processing_result (p : ArmCore) (op : Nat) (rn operande2 ins : Word)
    (hm : p.mode ∈ armModes) (hop : op < 16)
    (hd : rdNum ins ≠ 15 ∨ (bit ins 20 = false ∧ ¬ isComparison op)) :
    (effectuerOperation op rn operande2 p ins).1 = 0 ∧
      Computed op rn operande2 p ins (effectuerOperation op rn operande2 p ins).2 := by
  have hcpsr := operationWrite_cpsr op rn operande2 p ins
  have hmem := operationWrite_mem op rn operande2 p ins
  have hothers := operationWrite_others op rn operande2 p ins hm
  have hresult := operationWrite_result op rn operande2 p ins hop hm
  by_cases hs : setsFlags op ins
  · have hd15 : rdNum ins ≠ 15 := by
      rcases hd with hd | ⟨h20, hc⟩
      · exact hd
      · rcases hs with hs | hs
        · exact absurd hs hc
        · rw [h20] at hs
          cases hs
    rw [effectuerOperation_flags op rn operande2 p ins hop hs hd15]
    refine ⟨rfl, ?_, ?_, ?_, ?_, hmem⟩
    · intro hc
      obtain ⟨a, ha, hne, hv⟩ := hresult hc
      exact ⟨a, ha, by rw [armWriteCpsr_arch, if_neg hne, hv]⟩
    · intro a hne h
      rw [armWriteCpsr_arch, if_neg hne, hothers a h]
    · intro i hi
      rw [armWriteCpsr_cpsr, bit_putFlags_low _ _ _ hi]
    · intro hc h20
      rcases hs with hs | hs
      · exact absurd hs hc
      · rw [h20] at hs
        cases hs
  · rw [effectuerOperation_plain op rn operande2 p ins hop hs]
    refine ⟨rfl, ?_, fun a _ h => hothers a h, ?_, fun _ _ => hcpsr, hmem⟩
    · intro hc
      obtain ⟨a, ha, _, hv⟩ := hresult hc
      exact ⟨a, ha, hv⟩
    · intro i _
      rw [hcpsr]

theorem sbcs_result :
    Computed 6 0 1 (afterReset []) 0xE0D10002
      (effectuerOperation 6 0 1 (afterReset []) 0xE0D10002).2 :=
  (data_processing_result (afterReset []) 6 0 1 0xE0D10002 (by decide) (by decide)
    (by decide)).2

end Armator
