import Armator.Properties.DataResult

namespace Armator

open BitFields

structure Returned (m : PrivateMode) (value : Word) (p q : ArmCore) : Prop where
  pc : q.arch .pc = value
  cpsr : q.arch .cpsr = p.arch (.spsr m)
  others : ∀ a, a ≠ .pc → a ≠ .cpsr → q.arch a = p.arch a
  mem : q.mem = p.mem

theorem exception_return (p : ArmCore) (m : PrivateMode) (op : Nat) (rn operande2 ins : Word)
    (hm : privateMode p.mode = some m) (hop : op < 16) (hc : ¬ isComparison op)
    (hs : bit ins 20 = true) (hd : rdNum ins = 15) :
    (effectuerOperation op rn operande2 p ins).1 = 0 ∧
      Returned m (armResult op rn operande2 (flagsOf p.cpsr).c) p
        (effectuerOperation op rn operande2 p ins).2 := by
  have hmode := privateMode_mem p m hm
  have hpc : archReg (rdNum ins) p.mode = some .pc := by
    rw [hd]
    rfl
  rw [effectuerOperation_spsr op rn operande2 p ins hop (Or.inr hs) hd,
    if_pos (hasSpsr_of_privateMode p m hm)]
  refine ⟨rfl, ?_, ?_, ?_, operationWrite_mem op rn operande2 p ins⟩
  · obtain ⟨a, ha, hne, hv⟩ := operationWrite_result op rn operande2 p ins hop hmode hc
    rw [hpc] at ha
    cases ha
    rw [armWriteCpsr_arch, if_neg hne, hv]
  · rw [armWriteCpsr_arch, if_pos rfl, armReadSpsr_arch p m hm]
  · intro a hne hncpsr
    rw [armWriteCpsr_arch, if_neg hncpsr]
    apply operationWrite_others op rn operande2 p ins hmode a
    rw [hpc]
    exact Or.inr fun he => hne (Option.some.inj he).symm

-- MOVS PC, LR in SVC with a USR status saved.
theorem movs_pc_returns :
    Returned .svc 0x40 (armWriteSpsr (afterReset []) 0x10)
      (effectuerOperation 13 0 0x40 (armWriteSpsr (afterReset []) 0x10) 0xE1B0F00E).2 :=
  (exception_return (armWriteSpsr (afterReset []) 0x10) .svc 13 0 0x40 0xE1B0F00E (by decide)
    (by decide) (by decide) (by decide) (by decide)).2

end Armator
