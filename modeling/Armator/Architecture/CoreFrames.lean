import Armator.Architecture.Banks
import Armator.Simulator.DataProcessing

namespace Armator

theorem regNum_val (x : Word) (hx : x.toNat < 18) : (regNum x).val = x.toNat :=
  Nat.mod_eq_of_lt hx

theorem regNum_getBits_lt (ins : Word) (h l : Nat) (hl : h = l + 3) :
    (regNum (getBits ins h l)).val < 16 := by
  have hb : (getBits ins h l).toNat < 16 := by
    rw [getBits_toNat, hl, Nat.add_sub_cancel_left]
    exact Nat.mod_lt _ (by decide)
  rw [regNum_val _ (by omega)]
  exact hb

theorem ne_of_val_lt {a : RegNum} (h : a.val < 16) : a ≠ 16 ∧ a ≠ 17 := by
  constructor <;> rintro rfl <;> exact absurd h (by decide)

section Registers

variable (r : Registers) (reg : RegNum) (mode : Byte) (value : Word)

theorem registersRead_write_same (h : bank (reg, mode) ≠ none) :
    registersRead (registersWrite r reg mode value) reg mode = value := by
  rw [registersWrite_bank, registersRead_bank]
  exact Cells.read_write_same bank 0 r.registre (reg, mode) value h

theorem registersRead_write_other (b : RegNum) (h : reg ≠ b) :
    registersRead (registersWrite r reg mode value) b mode = registersRead r b mode := by
  rw [registersWrite_bank, registersRead_bank, registersRead_bank]
  by_cases hb : bank (reg, mode) = bank (b, mode)
  · have hn := (bank_injective reg b mode hb).resolve_right h
    simp only [Cells.read, ← hb, hn]
  · exact Cells.read_write_other bank 0 r.registre (reg, mode) (b, mode) value hb

theorem registersWrite_registre (i : Slot) :
    (registersWrite r reg mode value).registre i =
      if bank (reg, mode) = some i then value else r.registre i := by
  rw [registersWrite_bank]
  exact Cells.write_apply bank r.registre (reg, mode) value i

theorem registersWrite_eq_self_iff :
    registersWrite r reg mode value = r ↔ ∀ i, bank (reg, mode) = some i → r.registre i = value := by
  rw [registersWrite_bank, ← Cells.write_eq_self_iff bank r.registre (reg, mode) value,
    Registers.ext_iff]

theorem registersWrite_eq_self_iff_read (h : bank (reg, mode) ≠ none) :
    registersWrite r reg mode value = r ↔ registersRead r reg mode = value := by
  rw [registersWrite_eq_self_iff, registersRead_bank, Cells.read]
  cases hb : bank (reg, mode) with
  | none => exact absurd hb h
  | some i => simp

theorem registersWrite_write_eq_self_iff (b : RegNum) (u : Word) (h : reg ≠ b) :
    registersWrite (registersWrite r reg mode value) b mode u = r ↔
      registersWrite r reg mode value = r ∧ registersWrite r b mode u = r := by
  simp only [registersWrite_bank, Registers.ext_iff]
  exact Cells.write_write_eq_self_iff bank r.registre (reg, mode) (b, mode) value u
    (fun hb => (bank_injective reg b mode hb).resolve_right h)

theorem registersWrite_write_same (u : Word) :
    registersWrite (registersWrite r reg mode value) reg mode u = registersWrite r reg mode u := by
  simp only [registersWrite_bank, Cells.write_write_same]

theorem registersWrite_cpsr (h : reg ≠ 16) :
    (registersWrite r reg mode value).registre CPSR = r.registre CPSR := by
  rw [registersWrite_registre, if_neg (fun hb => h ((bank_eq_cpsr reg mode).mp hb))]

theorem registersWrite_pc (h : reg ≠ 15) :
    (registersWrite r reg mode value).registre PC = r.registre PC := by
  rw [registersWrite_registre, if_neg (fun hb => h ((bank_eq_pc reg mode).mp hb))]

theorem registersGetMode_write (h : reg ≠ 16) :
    registersGetMode (registersWrite r reg mode value) = registersGetMode r := by
  unfold registersGetMode
  rw [registersWrite_cpsr r reg mode value h]

end Registers

theorem registersWrite_fifteen (r : Registers) (mode : Byte) (value : Word) :
    registersWrite r 15 mode value = r.set PC value := rfl

theorem registersWrite_sixteen (r : Registers) (mode : Byte) (value : Word) :
    registersWrite r 16 mode value = r.set CPSR value := rfl

theorem Registers.set_registre (r : Registers) (i j : Slot) (value : Word) :
    (r.set i value).registre j = if j = i then value else r.registre j := by
  simp [Registers.set, Function.update_apply]

namespace ArmCore

def mode (p : ArmCore) : Byte := registersGetMode p.reg

def pc (p : ArmCore) : Word := p.reg.registre PC

def cpsr (p : ArmCore) : Word := p.reg.registre CPSR

end ArmCore

section Core

variable (p : ArmCore) (reg : RegNum) (value : Word)

@[simp] theorem armWriteRegister_mem : (armWriteRegister p reg value).mem = p.mem := rfl

@[simp] theorem armWriteRegister_cycle_count :
    (armWriteRegister p reg value).cycle_count = p.cycle_count := rfl

@[simp] theorem armWriteRegister_console : (armWriteRegister p reg value).console = p.console := rfl

@[simp] theorem armWriteCpsr_mem : (armWriteCpsr p value).mem = p.mem := rfl

@[simp] theorem armWriteCpsr_cpsr : (armWriteCpsr p value).cpsr = value := by
  simp [ArmCore.cpsr, armWriteCpsr, registersWriteCpsr, Registers.set]

@[simp] theorem armReadCpsr_eq : armReadCpsr p = p.cpsr := rfl

theorem armWriteCpsr_write (u : Word) :
    armWriteCpsr (armWriteCpsr p value) u = armWriteCpsr p u := by
  simp [armWriteCpsr, registersWriteCpsr, Registers.set]

theorem armWriteRegister_mode (h : reg ≠ 16) : (armWriteRegister p reg value).mode = p.mode :=
  registersGetMode_write p.reg reg (registersGetMode p.reg) value h

theorem armWriteRegister_cpsr (h : reg ≠ 16) : (armWriteRegister p reg value).cpsr = p.cpsr :=
  registersWrite_cpsr p.reg reg (registersGetMode p.reg) value h

theorem armWriteRegister_pc (h : reg ≠ 15) : (armWriteRegister p reg value).pc = p.pc :=
  registersWrite_pc p.reg reg (registersGetMode p.reg) value h

@[simp] theorem armWriteRegister_fifteen_pc : (armWriteRegister p 15 value).pc = value := by
  simp [ArmCore.pc, armWriteRegister, armWriteRegisterInternal, registersWrite_fifteen,
    Registers.set]

theorem armReadRegister_of_ne (h : reg ≠ 15) :
    armReadRegister p reg = registersRead p.reg reg p.mode := by
  simp [armReadRegister, armReadRegisterInternal, h, ArmCore.mode]

theorem armReadRegister_pc : armReadRegister p 15 = (p.pc + 4) &&& 0xFFFFFFFD := rfl

theorem armReadRegister_write_same (h16 : reg ≠ 16) (h15 : reg ≠ 15)
    (hb : bank (reg, p.mode) ≠ none) :
    armReadRegister (armWriteRegister p reg value) reg = value := by
  rw [armReadRegister_of_ne _ _ h15, armWriteRegister_mode _ _ _ h16]
  exact registersRead_write_same p.reg reg p.mode value hb

theorem armReadRegister_write_other (b : RegNum) (h16 : reg ≠ 16) (hb : reg ≠ b) :
    armReadRegister (armWriteRegister p reg value) b = armReadRegister p b := by
  have hm := armWriteRegister_mode p reg value h16
  have hr := registersRead_write_other p.reg reg p.mode value b hb
  unfold ArmCore.mode at hm
  simp only [armReadRegister, armReadRegisterInternal, hm]
  simp only [armWriteRegister, armWriteRegisterInternal]
  unfold ArmCore.mode at hr
  rw [hr]

theorem armWriteRegister_comm (b : RegNum) (u : Word) (hr : reg ≠ 16) (hb : b ≠ 16)
    (h : reg ≠ b) :
    armWriteRegister (armWriteRegister p reg value) b u =
      armWriteRegister (armWriteRegister p b u) reg value := by
  have hm := armWriteRegister_mode p reg value hr
  have hm' := armWriteRegister_mode p b u hb
  have hapart : bank (reg, p.mode) = bank (b, p.mode) → bank (reg, p.mode) = none :=
    fun he => (bank_injective reg b p.mode he).resolve_right h
  have hc := Cells.write_comm bank p.reg.registre (reg, p.mode) (b, p.mode) value u hapart
  unfold ArmCore.mode at hm hm' hc
  unfold armWriteRegister armWriteRegisterInternal at hm hm' ⊢
  dsimp only at hm hm' ⊢
  rw [hm, hm']
  simp only [registersWrite_bank, hc]

theorem armReadRegister_writeCpsr (h16 : reg ≠ 16) (hm : (armWriteCpsr p value).mode = p.mode) :
    armReadRegister (armWriteCpsr p value) reg = armReadRegister p reg := by
  have hr := registersRead_write_other p.reg 16 p.mode value reg (Ne.symm h16)
  rw [registersWrite_sixteen] at hr
  unfold ArmCore.mode at hm hr
  simp only [armReadRegister, armReadRegisterInternal, hm]
  simp only [armWriteCpsr, registersWriteCpsr, hr]

theorem armWriteRegister_eq_self_iff :
    armWriteRegister p reg value = p ↔ registersWrite p.reg reg p.mode value = p.reg := by
  cases p
  simp [armWriteRegister, armWriteRegisterInternal, ArmCore.mode]

theorem armWriteRegister_inj (u v : Word) (h16 : reg ≠ 16) (h15 : reg ≠ 15)
    (hb : bank (reg, p.mode) ≠ none) :
    armWriteRegister p reg u = armWriteRegister p reg v ↔ u = v := by
  constructor
  · intro he
    have hr := armReadRegister_write_same p reg u h16 h15 hb
    rw [he, armReadRegister_write_same p reg v h16 h15 hb] at hr
    exact hr.symm
  · rintro rfl
    rfl

end Core

end Armator
