import Armator.Architecture.BreakpointRequests
import Armator.Architecture.HandlerAnswers

namespace Armator

namespace Gdb

def Contained (r : Except Fault Gdb) : Prop := Fallible.Meets (· ≠ .debordement) Tabled r

theorem gdbSendData_contained {g : Gdb} (ht : g.Tabled) {s : Texte} (hs : Payload s)
    (hlen : s.length + 4 < MAX_PACKET_SIZE) : Contained (g.gdbSendData s) := by
  rw [gdbSendData_payload g s hs hlen]
  exact .ok (ht.answered s)

theorem gdbSendStopReason_contained {g : Gdb} (ht : g.Tabled) : Contained g.gdbSendStopReason := by
  rw [gdbSendStopReason_eq]
  exact .ok (ht.answered _)

theorem Tabled.singleStep {g : Gdb} (ht : g.Tabled) (h : Host) : (singleStep h g).Tabled :=
  ⟨ht.number_le, ht.increasing⟩

theorem Tabled.withArm {g : Gdb} (ht : g.Tabled) (arm : ArmCore) :
    ({ g with arm := arm } : Gdb).Tabled :=
  ⟨ht.number_le, ht.increasing⟩

section Handlers

variable {g : Gdb} (ht : g.Tabled) (c : Call) (data : Texte)

include ht

theorem continuer_contained (hosts : Nat → Host) (fuel : Nat) :
    Contained (g.continuer hosts fuel) := by
  induction fuel generalizing g hosts with
  | zero => exact .error Fault.noConfusion
  | succ fuel ih =>
      have hs := ht.singleStep (hosts 0)
      rw [continuer]
      dsimp only
      rw [find_eq hs, Fallible.ok_bind]
      generalize (if found _ ≠ -1 then 1 else (singleStep (hosts 0) g).target_exception) = stop
      split
      · exact ih hs _
      · exact gdbSendStopReason_contained hs

theorem query_contained : Contained (g.query c data) :=
  gdbSendData_contained ht (reponse_payload data).1 (reponse_payload data).2

theorem readGeneralRegisters_contained : Contained (g.readGeneralRegisters c data) := by
  rw [readGeneralRegisters_eq]
  exact .ok (ht.answered _)

theorem readSingleRegister_contained : Contained (g.readSingleRegister c data) := by
  rw [readSingleRegister_eq]
  split
  · exact .ok (ht.answered _)
  · exact .error Fault.noConfusion

theorem setThread_contained : Contained (g.setThread c data) := by
  rw [setThread]
  split
  · exact gdbSendData_contained ht (by decide) (by decide)
  · exact gdbSendData_contained ht (by decide) (by decide)

theorem writeGeneralRegisters_contained : Contained (g.writeGeneralRegisters c data) := by
  refine (writeGeneralRegisters_meets c g data).mono ?_ ?_
  · rintro e rfl
    exact Fault.noConfusion
  · rintro g' ⟨arm, rfl⟩
    exact (ht.withArm arm).answered _

theorem writeSingleRegister_contained : Contained (g.writeSingleRegister c data) := by
  refine (writeSingleRegister_meets c g data).mono ?_ ?_
  · rintro e (rfl | rfl) <;> exact Fault.noConfusion
  · rintro g' ⟨arm, rfl⟩
    exact (ht.withArm arm).answered _

theorem writeMemoryBinary_contained : Contained (g.writeMemoryBinary c data) := by
  refine (writeMemoryBinary_meets c g data).mono ?_ ?_
  · rintro e rfl
    exact Fault.noConfusion
  · rintro g' ⟨mem, write_ok, rfl⟩
    exact (ht.withArm _).answered _

theorem setBreakpoint_contained : Contained (g.setBreakpoint c data) := by
  obtain ⟨g', he, hr⟩ := setBreakpoint_spec g ht c data
  rw [he]
  exact .ok hr.tabled

theorem removeBreakpoint_contained : Contained (g.removeBreakpoint c data) := by
  obtain ⟨g', he, hr⟩ := removeBreakpoint_spec g ht c data
  rw [he]
  exact .ok hr.tabled

theorem step_contained : Contained (g.step c data) :=
  gdbSendStopReason_contained (ht.singleStep _)

theorem readMemory_meets :
    Fallible.Meets (fun _ => True) Tabled (g.readMemory c data) := by
  rw [readMemory_eq]
  dsimp only
  split
  · exact .ok (ht.answered _)
  · exact .error trivial

end Handlers

theorem handlers_contained {g : Gdb} (ht : g.Tabled) (c : Call) (data : Texte) :
    ∀ p ∈ handlers, p.1 ≠ octet 'm' → Contained (p.2 c g data) := by
  simp only [handlers, List.forall_mem_cons]
  exact ⟨fun _ => continuer_contained ht _ _,
    fun _ => continuer_contained ht _ _,
    fun _ => .ok ⟨ht.number_le, ht.increasing⟩,
    fun _ => query_contained ht c data,
    fun _ => readGeneralRegisters_contained ht c data,
    fun hm => absurd rfl hm,
    fun _ => readSingleRegister_contained ht c data,
    fun _ => gdbSendStopReason_contained ht,
    fun _ => setThread_contained ht c data,
    fun _ => step_contained ht c data,
    fun _ => step_contained ht c data,
    fun _ => writeGeneralRegisters_contained ht c data,
    fun _ => writeMemoryBinary_contained ht c data,
    fun _ => writeSingleRegister_contained ht c data,
    fun _ => removeBreakpoint_contained ht c data,
    fun _ => setBreakpoint_contained ht c data,
    List.forall_mem_nil _⟩

theorem handler_contained {g : Gdb} (ht : g.Tabled) {b : Byte} {f : Handler}
    (hf : handler b = some f) (hm : b ≠ octet 'm') (c : Call) (data : Texte) :
    Contained (f c g data) :=
  handlers_contained ht c data (b, f) (mem_handlers hf) hm

theorem handler_memory : handler (octet 'm') = some readMemory := rfl

theorem handler_meets {g : Gdb} (ht : g.Tabled) {b : Byte} {f : Handler}
    (hf : handler b = some f) (c : Call) (data : Texte) :
    Fallible.Meets (fun _ => True) Tabled (f c g data) := by
  by_cases hm : b = octet 'm'
  · rw [hm, handler_memory] at hf
    cases hf
    exact readMemory_meets ht c data
  · exact (handler_contained ht hf hm c data).mono (fun _ _ => trivial) fun _ => id

end Gdb

end Armator
