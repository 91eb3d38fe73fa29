import Armator.Architecture.ArchRegisters
import Armator.Architecture.CoreFrames

namespace Armator

namespace ArmCore

def arch (p : ArmCore) (a : ArchReg) : Word := p.reg.registre a.slot

theorem arch_cpsr (p : ArmCore) : p.arch .cpsr = p.cpsr := rfl

end ArmCore

theorem bank_eq_slot_iff (reg : RegNum) (mode : Byte) (hm : mode ∈ armModes) (a : ArchReg) :
    bank (reg, mode) = some a.slot ↔ archReg reg mode = some a := by
  rw [bank_archReg reg ⟨mode, hm⟩]
  cases archReg reg mode with
  | none => simp
  | some b => simp [ArchReg.slot_inj]

theorem archReg_isSome (reg : RegNum) (mode : Byte) (hm : mode ∈ armModes) (h : reg ≠ 17) :
    ∃ a, archReg reg mode = some a := by
  have hb := bank_isSome reg mode hm h
  rw [bank_archReg reg ⟨mode, hm⟩] at hb
  cases ha : archReg reg mode with
  | none => simp [ha] at hb
  | some a => exact ⟨a, rfl⟩

section Writes

variable (p : ArmCore) (reg : RegNum) (value : Word) (a : ArchReg)

theorem armWriteRegister_arch (hm : p.mode ∈ armModes) :
    (armWriteRegister p reg value).arch a =
      if archReg reg p.mode = some a then value else p.arch a := by
  rw [ArmCore.arch, armWriteRegister, armWriteRegisterInternal, registersWrite_registre]
  simp only [← bank_eq_slot_iff reg p.mode hm a]
  rfl

theorem armWriteCpsr_arch :
    (armWriteCpsr p value).arch a = if a = .cpsr then value else p.arch a := by
  have hs : a.slot = CPSR ↔ a = .cpsr := ArchReg.slot_inj a .cpsr
  rw [ArmCore.arch, armWriteCpsr, registersWriteCpsr, Registers.set_registre]
  simp only [hs]
  rfl

theorem archReg_ne_cpsr (h : reg ≠ 16) (mode : Byte) (hm : mode ∈ armModes) :
    archReg reg mode ≠ some .cpsr := fun hc =>
  h ((bank_eq_cpsr reg mode).mp ((bank_eq_slot_iff reg mode hm .cpsr).mpr hc))

end Writes

section PrivateMode

variable (p : ArmCore) (m : PrivateMode)

theorem privateMode_mem (h : privateMode p.mode = some m) : p.mode ∈ armModes := by
  by_contra hm
  have hall : ∀ mode ∈ [FIQ, IRQ, SVC, ABT, UND], mode ∈ armModes := by decide
  have hne (mode : Byte) (hx : mode ∈ [FIQ, IRQ, SVC, ABT, UND]) : p.mode ≠ mode :=
    fun he => hm (he ▸ hall mode hx)
  simp [privateMode, hne FIQ, hne IRQ, hne SVC, hne ABT, hne UND] at h

theorem archReg_seventeen (mode : Byte) : archReg 17 mode = (privateMode mode).map .spsr := rfl

theorem armReadSpsr_arch (h : privateMode p.mode = some m) : armReadSpsr p = p.arch (.spsr m) := by
  have hm := privateMode_mem p m h
  have hb : bank (17, p.mode) = some (ArchReg.spsr m).slot := by
    rw [bank_eq_slot_iff 17 p.mode hm, archReg_seventeen, h]
    rfl
  have hr : armReadSpsr p = Cells.read bank 0 p.reg.registre (17, p.mode) :=
    registersReadSpsr_bank p.reg p.mode
  rw [hr, Cells.read, hb]
  rfl

theorem hasSpsr_of_privateMode (h : privateMode p.mode = some m) :
    armCurrentModeHasSpsr p = true := by
  have hall : ∀ mode ∈ armModes, (privateMode mode).isSome → registersModeHasSpsr mode = true := by
    decide
  exact hall p.mode (privateMode_mem p m h) (by rw [h]; rfl)

theorem privateMode_of_hasSpsr (hm : p.mode ∈ armModes) (h : armCurrentModeHasSpsr p = true) :
    ∃ m, privateMode p.mode = some m := by
  have hall : ∀ mode ∈ armModes, registersModeHasSpsr mode = true → (privateMode mode).isSome := by
    decide
  exact Option.isSome_iff_exists.mp (hall p.mode hm h)

end PrivateMode

end Armator
