import Armator.Architecture.Banks

namespace Armator

inductive PrivateMode where
  | fiq
  | irq
  | svc
  | abt
  | und
deriving DecidableEq, Repr

-- The registers of the architecture, each once. No owner: the register of USR and SYS.
inductive ArchReg where
  | low (n : Fin 8)
  | high (fiq : Bool) (n : Fin 5)
  | stack (owner : Option PrivateMode)
  | link (owner : Option PrivateMode)
  | pc
  | cpsr
  | spsr (owner : PrivateMode)
deriving DecidableEq, Repr

abbrev ArmMode := { mode : Byte // mode ∈ armModes }

def privateMode (mode : Byte) : Option PrivateMode :=
  if mode = FIQ then some .fiq
  else if mode = IRQ then some .irq
  else if mode = SVC then some .svc
  else if mode = ABT then some .abt
  else if mode = UND then some .und
  else none

def archReg (reg : RegNum) (mode : Byte) : Option ArchReg :=
  if h : reg.val < 8 then some (.low ⟨reg.val, h⟩)
  else if h : reg.val - 8 < 5 then some (.high (mode = FIQ) ⟨reg.val - 8, h⟩)
  else if reg = 13 then some (.stack (privateMode mode))
  else if reg = 14 then some (.link (privateMode mode))
  else if reg = 15 then some .pc
  else if reg = 16 then some .cpsr
  else (privateMode mode).map .spsr

def PrivateMode.bank : PrivateMode → Slot
  | .fiq => R13_fiq
  | .irq => R13_irq
  | .svc => R13_svc
  | .abt => R13_abt
  | .und => R13_und

def ArchReg.slot : ArchReg → Slot
  | .low n => n.castLE (by decide)
  | .high false n => R8 + n.castLE (by decide)
  | .high true n => R8_fiq + n.castLE (by decide)
  | .stack none => R13
  | .stack (some m) => m.bank
  | .link none => R14
  | .link (some m) => m.bank + 1
  | .pc => PC
  | .cpsr => CPSR
  | .spsr m => m.bank + 2

def ArchReg.ofSlot (i : Slot) : ArchReg :=
  if h : i.val < 8 then .low ⟨i.val, h⟩
  else if h : i.val - 8 < 5 then .high false ⟨i.val - 8, h⟩
  else if h : 29 ≤ i.val ∧ i.val - 29 < 5 then .high true ⟨i.val - 29, h.2⟩
  else if i = R13 then .stack none
  else if i = R14 then .link none
  else if i = PC then .pc
  else if i = CPSR then .cpsr
  else
    let owner : PrivateMode :=
      if i < R13_abt then .svc
      else if i < R13_und then .abt
      else if i < R13_irq then .und
      else if i < R8_fiq then .irq
      else .fiq
    if i = owner.bank then .stack (some owner)
    else if i = owner.bank + 1 then .link (some owner)
    else .spsr owner

theorem ArchReg.ofSlot_slot (a : ArchReg) : ArchReg.ofSlot a.slot = a := by
  cases a with
  | low n => revert n; decide
  | high fiq n => revert n; cases fiq <;> decide
  | stack owner =>
      cases owner with
      | none => rfl
      | some m => cases m <;> rfl
  | link owner =>
      cases owner with
      | none => rfl
      | some m => cases m <;> rfl
  | pc => rfl
  | cpsr => rfl
  | spsr m => cases m <;> rfl

theorem ArchReg.slot_inj (a b : ArchReg) : a.slot = b.slot ↔ a = b := by
  constructor
  · intro h
    rw [← ArchReg.ofSlot_slot a, h, ArchReg.ofSlot_slot]
  · rintro rfl
    rfl

def ArchReg.number : ArchReg → RegNum
  | .low n => n.castLE (by decide)
  | .high _ n => 8 + n.castLE (by decide)
  | .stack _ => 13
  | .link _ => 14
  | .pc => 15
  | .cpsr => 16
  | .spsr _ => 17

theorem archReg_number (reg : RegNum) (mode : ArmMode) (a : ArchReg)
    (h : archReg reg mode = some a) : a.number = reg := by
  have hall : ∀ m ∈ armModes, ∀ reg : RegNum, ∀ a ∈ archReg reg m, a.number = reg := by decide
  exact hall mode mode.2 reg a h

theorem bank_archReg (reg : RegNum) (mode : ArmMode) :
    bank (reg, mode) = (archReg reg mode).map ArchReg.slot := by
  have hall : ∀ m ∈ armModes, ∀ reg : RegNum, bank (reg, m) = (archReg reg m).map ArchReg.slot := by
    decide
  exact hall mode mode.2 reg

end Armator
