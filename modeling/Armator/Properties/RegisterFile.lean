import Armator.Architecture.ArchRegisters

namespace Armator

inductive RegisterWrite where
  | register (reg : RegNum) (mode : ArmMode) (value : Word)
  | cpsr (value : Word)
  | spsr (mode : ArmMode) (value : Word)

namespace RegisterWrite

def run (r : Registers) : RegisterWrite → Registers
  | .register reg mode value => registersWrite r reg mode value
  | .cpsr value => registersWriteCpsr r value
  | .spsr mode value => registersWriteSpsr r mode value

def target : RegisterWrite → Option ArchReg
  | .register reg mode _ => archReg reg mode
  | .cpsr _ => some .cpsr
  | .spsr mode _ => archReg 17 mode

def value : RegisterWrite → Word
  | .register _ _ value => value
  | .cpsr value => value
  | .spsr _ value => value

end RegisterWrite

inductive RegisterRead where
  | register (reg : RegNum) (mode : ArmMode)
  | cpsr
  | spsr (mode : ArmMode)

namespace RegisterRead

def run (r : Registers) : RegisterRead → Word
  | .register reg mode => registersRead r reg mode
  | .cpsr => registersReadCpsr r
  | .spsr mode => registersReadSpsr r mode

-- Nothing for an SPSR read in USR or SYS.
def source : RegisterRead → Option ArchReg
  | .register reg mode => archReg reg mode
  | .cpsr => some .cpsr
  | .spsr mode => archReg 17 mode

end RegisterRead

def lastWrite (ws : List RegisterWrite) (a : ArchReg) : Option Word :=
  (ws.reverse.find? fun w => w.target = some a).map RegisterWrite.value

section Slots

variable (r : Registers)

def slotOf : Option ArchReg → Option Slot := Option.map ArchReg.slot

theorem write_slotOf (k : RegNum × Byte) (t : Option ArchReg) (value : Word)
    (h : bank k = slotOf t) :
    Cells.write bank r.registre k value = Cells.write slotOf r.registre t value := by
  unfold Cells.write
  rw [h]

theorem registerWrite_cells (w : RegisterWrite) :
    w.run r = ⟨Cells.write slotOf r.registre w.target w.value⟩ := by
  cases w with
  | register reg mode value =>
      rw [RegisterWrite.run, registersWrite_bank, write_slotOf r _ _ _ (bank_archReg reg mode)]
      rfl
  | cpsr value => rfl
  | spsr mode value =>
      rw [RegisterWrite.run, registersWriteSpsr_bank, write_slotOf r _ _ _ (bank_archReg 17 mode)]
      rfl

theorem registerWrites_cells (ws : List RegisterWrite) :
    ws.foldl RegisterWrite.run r =
      ⟨Cells.writeAll slotOf r.registre (ws.map fun w => (w.target, w.value))⟩ := by
  induction ws generalizing r with
  | nil => rfl
  | cons w ws ih =>
      rw [List.foldl_cons, ih, registerWrite_cells]
      rfl

theorem registerRead_slot (l : RegisterRead) (a : ArchReg) (ha : l.source = some a) :
    l.run r = r.registre a.slot := by
  have hread (k : RegNum × Byte) (h : bank k = some a.slot) :
      Cells.read bank 0 r.registre k = r.registre a.slot := by
    rw [Cells.read, h]
  cases l with
  | register reg mode =>
      rw [RegisterRead.run, registersRead_bank, hread]
      rw [bank_archReg, show archReg reg mode = some a from ha]
      rfl
  | cpsr =>
      cases ha
      rfl
  | spsr mode =>
      rw [RegisterRead.run, registersReadSpsr_bank, hread]
      rw [bank_archReg 17 mode, show archReg 17 mode = some a from ha]
      rfl

theorem last_slotOf (ws : List RegisterWrite) (a : ArchReg) :
    Cells.last slotOf (ws.map fun w => (w.target, w.value)) a.slot = lastWrite ws a := by
  have hkey (t : Option ArchReg) : slotOf t = some a.slot ↔ t = some a := by
    cases t with
    | none => simp [slotOf]
    | some b => simp [slotOf, ArchReg.slot_inj]
  rw [Cells.last, lastWrite, ← List.map_reverse, List.find?_map, Option.map_map]
  simp only [Function.comp_def, hkey]

end Slots

theorem other_register_unchanged (r : Registers) (w : RegisterWrite) (a : ArchReg)
    (l : RegisterRead) (hl : l.source = some a) (hw : w.target ≠ some a) :
    l.run (w.run r) = l.run r := by
  have hs : slotOf w.target ≠ some a.slot := by
    intro he
    apply hw
    cases ht : w.target with
    | none => simp [ht, slotOf] at he
    | some b =>
        rw [ht, slotOf, Option.map_some, Option.some.injEq, ArchReg.slot_inj] at he
        rw [he]
  rw [registerRead_slot _ l a hl, registerRead_slot _ l a hl, registerWrite_cells]
  dsimp only
  rw [Cells.write_apply, if_neg hs]

theorem register_file_refines (r : Registers) (ws : List RegisterWrite) (a : ArchReg)
    (l m : RegisterRead) (hl : l.source = some a) (hm : m.source = some a) :
    l.run (ws.foldl RegisterWrite.run r) = (lastWrite ws a).getD (m.run r) ∧
      ∀ w : RegisterWrite, w.target ≠ some a →
        l.run (w.run (ws.foldl RegisterWrite.run r)) = l.run (ws.foldl RegisterWrite.run r) := by
  refine ⟨?_, fun w hw => other_register_unchanged _ w a l hl hw⟩
  rw [registerRead_slot _ l a hl, registerRead_slot _ m a hm, registerWrites_cells]
  dsimp only
  rw [Cells.writeAll_last, last_slotOf]

-- R13 of FIQ outlives a write of R13 in SYS, and R13 of USR sees it.
theorem stack_banks :
    registersRead (registersWrite (registersWrite ⟨fun _ => 0⟩ 13 FIQ 5) 13 SYS 7) 13 FIQ = 5 ∧
      registersRead (registersWrite (registersWrite ⟨fun _ => 0⟩ 13 FIQ 5) 13 SYS 7) 13 USR = 7 :=
  ⟨(register_file_refines ⟨fun _ => 0⟩
      [.register 13 ⟨FIQ, by decide⟩ 5, .register 13 ⟨SYS, by decide⟩ 7] (.stack (some .fiq))
      (.register 13 ⟨FIQ, by decide⟩) (.register 13 ⟨FIQ, by decide⟩) (by decide) (by decide)).1,
    (register_file_refines ⟨fun _ => 0⟩
      [.register 13 ⟨FIQ, by decide⟩ 5, .register 13 ⟨SYS, by decide⟩ 7] (.stack none)
      (.register 13 ⟨USR, by decide⟩) (.register 13 ⟨SYS, by decide⟩) (by decide) (by decide)).1⟩

end Armator
