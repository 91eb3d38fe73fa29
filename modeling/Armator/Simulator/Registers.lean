import Armator.Simulator.Constants
import Mathlib.Logic.Function.Basic

namespace Armator

abbrev Slot := Fin 37

-- 0 to 15 name R0 to PC, 16 the CPSR and 17 the SPSR of the mode.
abbrev RegNum := Fin 18

instance slot_count : NeZero 37 := ⟨by decide⟩

instance regNum_count : NeZero 18 := ⟨by decide⟩

theorem regNum_le_slot : 18 ≤ 37 := by decide

def R8 : Slot := 8
def R9 : Slot := 9
def R10 : Slot := 10
def R11 : Slot := 11
def R12 : Slot := 12
def R13 : Slot := 13
def R14 : Slot := 14
def PC : Slot := 15
def CPSR : Slot := 16
def R13_svc : Slot := 17
def R14_svc : Slot := 18
def SPSR_svc : Slot := 19
def R13_abt : Slot := 20
def R14_abt : Slot := 21
def SPSR_abt : Slot := 22
def R13_und : Slot := 23
def R14_und : Slot := 24
def SPSR_und : Slot := 25
def R13_irq : Slot := 26
def R14_irq : Slot := 27
def SPSR_irq : Slot := 28
def R8_fiq : Slot := 29
def R9_fiq : Slot := 30
def R10_fiq : Slot := 31
def R11_fiq : Slot := 32
def R12_fiq : Slot := 33
def R13_fiq : Slot := 34
def R14_fiq : Slot := 35
def SPSR_fiq : Slot := 36

@[ext] structure Registers where
  registre : Slot → Word

namespace Registers

def set (r : Registers) (i : Slot) (value : Word) : Registers :=
  ⟨Function.update r.registre i value⟩

end Registers

def registersGetMode (r : Registers) : Byte :=
  (r.registre CPSR).setWidth 8 &&& 0x1f

def registersModeHasSpsr (mode : Byte) : Bool :=
  if mode = USR ∨ mode = SYS then false else true

def registersCurrentModeHasSpsr (r : Registers) : Bool :=
  registersModeHasSpsr (registersGetMode r)

def registersInAPrivilegedMode (r : Registers) : Bool :=
  if registersGetMode r = USR then false else true

def registersReadCpsr (r : Registers) : Word := r.registre CPSR

def registersReadSpsr (r : Registers) (mode : Byte) : Word :=
  if registersModeHasSpsr mode then
    if mode = SVC then r.registre SPSR_svc
    else if mode = ABT then r.registre SPSR_abt
    else if mode = UND then r.registre SPSR_und
    else if mode = IRQ then r.registre SPSR_irq
    else if mode = FIQ then r.registre SPSR_fiq
    else 0
  else 0

def registersRead (r : Registers) (reg : RegNum) (mode : Byte) : Word :=
  match reg with
  | 8 => if mode = FIQ then r.registre R8_fiq else r.registre R8
  | 9 => if mode = FIQ then r.registre R9_fiq else r.registre R9
  | 10 => if mode = FIQ then r.registre R10_fiq else r.registre R10
  | 11 => if mode = FIQ then r.registre R11_fiq else r.registre R11
  | 12 => if mode = FIQ then r.registre R12_fiq else r.registre R12
  | 13 =>
      if mode = SVC then r.registre R13_svc
      else if mode = ABT then r.registre R13_abt
      else if mode = UND then r.registre R13_und
      else if mode = IRQ then r.registre R13_irq
      else if mode = FIQ then r.registre R13_fiq
      else if mode = USR ∨ mode = SYS then r.registre R13
      else 0
  | 14 =>
      if mode = SVC then r.registre R14_svc
      else if mode = ABT then r.registre R14_abt
      else if mode = UND then r.registre R14_und
      else if mode = IRQ then r.registre R14_irq
      else if mode = FIQ then r.registre R14_fiq
      else if mode = USR ∨ mode = SYS then r.registre R14
      else 0
  | 17 => registersReadSpsr r mode
  | reg => r.registre (reg.castLE regNum_le_slot)

def registersWriteCpsr (r : Registers) (value : Word) : Registers := r.set CPSR value

def registersWriteSpsr (r : Registers) (mode : Byte) (value : Word) : Registers :=
  if registersModeHasSpsr mode then
    if mode = SVC then r.set SPSR_svc value
    else if mode = ABT then r.set SPSR_abt value
    else if mode = UND then r.set SPSR_und value
    else if mode = IRQ then r.set SPSR_irq value
    else if mode = FIQ then r.set SPSR_fiq value
    else r
  else r

def registersWrite (r : Registers) (reg : RegNum) (mode : Byte) (value : Word) : Registers :=
  match reg with
  | 8 => if mode = FIQ then r.set R8_fiq value else r.set R8 value
  | 9 => if mode = FIQ then r.set R9_fiq value else r.set R9 value
  | 10 => if mode = FIQ then r.set R10_fiq value else r.set R10 value
  | 11 => if mode = FIQ then r.set R11_fiq value else r.set R11 value
  | 12 => if mode = FIQ then r.set R12_fiq value else r.set R12 value
  | 13 =>
      if mode = SVC then r.set R13_svc value
      else if mode = ABT then r.set R13_abt value
      else if mode = UND then r.set R13_und value
      else if mode = IRQ then r.set R13_irq value
      else if mode = FIQ then r.set R13_fiq value
      else if mode = USR ∨ mode = SYS then r.set R13 value
      else r
  | 14 =>
      if mode = SVC then r.set R14_svc value
      else if mode = ABT then r.set R14_abt value
      else if mode = UND then r.set R14_und value
      else if mode = IRQ then r.set R14_irq value
      else if mode = FIQ then r.set R14_fiq value
      else if mode = USR ∨ mode = SYS then r.set R14 value
      else r
  | 17 => registersWriteSpsr r mode value
  | reg => r.set (reg.castLE regNum_le_slot) value

end Armator
