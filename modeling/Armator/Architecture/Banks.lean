import Armator.Library.Cells
import Armator.Simulator.Registers
import Mathlib.Tactic.FinCases

namespace Armator

def armModes : List Byte := [USR, FIQ, IRQ, SVC, ABT, UND, SYS]

-- First slot of the R13, R14, SPSR triple that the mode keeps to itself.
def privateBank (mode : Byte) : Option Slot :=
  if mode = SVC then some R13_svc
  else if mode = ABT then some R13_abt
  else if mode = UND then some R13_und
  else if mode = IRQ then some R13_irq
  else if mode = FIQ then some R13_fiq
  else none

def bank (k : RegNum × Byte) : Option Slot :=
  if k.1 = 13 ∨ k.1 = 14 then
    if k.2 = USR ∨ k.2 = SYS then some (k.1.castLE regNum_le_slot)
    else (privateBank k.2).map (fun i => i + k.1.castLE regNum_le_slot - R13)
  else if k.1 = 17 then (privateBank k.2).map (fun i => i + 2)
  else if k.2 = FIQ ∧ 8 ≤ k.1 ∧ k.1 ≤ 12 then some (k.1.castLE regNum_le_slot + R8_fiq - R8)
  else some (k.1.castLE regNum_le_slot)

theorem mem_armModes (mode : Byte) : mode ∈ armModes ↔
    mode = USR ∨ mode = FIQ ∨ mode = IRQ ∨ mode = SVC ∨ mode = ABT ∨ mode = UND ∨ mode = SYS := by
  simp only [armModes, List.mem_cons, List.not_mem_nil, or_false]

theorem mode_cases (mode : Byte) : mode ∈ armModes ∨ (mode ∉ armModes ∧ privateBank mode = none ∧
    mode ≠ USR ∧ mode ≠ FIQ ∧ mode ≠ IRQ ∧ mode ≠ SVC ∧ mode ≠ ABT ∧ mode ≠ UND ∧ mode ≠ SYS) := by
  by_cases h : mode ∈ armModes
  · exact Or.inl h
  · have hm := h
    simp only [mem_armModes, not_or] at hm
    obtain ⟨h1, h2, h3, h4, h5, h6, h7⟩ := hm
    refine Or.inr ⟨h, ?_, h1, h2, h3, h4, h5, h6, h7⟩
    simp only [privateBank, if_neg h2, if_neg h3, if_neg h4, if_neg h5, if_neg h6]

theorem registersReadSpsr_bank (r : Registers) (mode : Byte) :
    registersReadSpsr r mode = Cells.read bank 0 r.registre (17, mode) := by
  rcases mode_cases mode with h | ⟨_, hp, h1, h2, h3, h4, h5, h6, h7⟩
  · rcases (mem_armModes mode).mp h with rfl | rfl | rfl | rfl | rfl | rfl | rfl <;> rfl
  · simp [registersReadSpsr, Cells.read, bank, hp, h2, h3, h4, h5, h6]

theorem registersRead_bank (r : Registers) (reg : RegNum) (mode : Byte) :
    registersRead r reg mode = Cells.read bank 0 r.registre (reg, mode) := by
  rcases mode_cases mode with h | ⟨_, hp, h1, h2, h3, h4, h5, h6, h7⟩
  · rcases (mem_armModes mode).mp h with rfl | rfl | rfl | rfl | rfl | rfl | rfl <;> fin_cases reg <;> rfl
  · fin_cases reg <;>
      simp [registersRead, registersReadSpsr_bank, Cells.read, bank, hp, h1, h2, h3, h4, h5, h6, h7] <;> rfl

theorem registersWriteSpsr_bank (r : Registers) (mode : Byte) (value : Word) :
    registersWriteSpsr r mode value = ⟨Cells.write bank r.registre (17, mode) value⟩ := by
  rcases mode_cases mode with h | ⟨_, hp, h1, h2, h3, h4, h5, h6, h7⟩
  · rcases (mem_armModes mode).mp h with rfl | rfl | rfl | rfl | rfl | rfl | rfl <;> rfl
  · simp [registersWriteSpsr, Cells.write, bank, hp, h2, h3, h4, h5, h6]

theorem registersWrite_bank (r : Registers) (reg : RegNum) (mode : Byte) (value : Word) :
    registersWrite r reg mode value = ⟨Cells.write bank r.registre (reg, mode) value⟩ := by
  rcases mode_cases mode with h | ⟨_, hp, h1, h2, h3, h4, h5, h6, h7⟩
  · rcases (mem_armModes mode).mp h with rfl | rfl | rfl | rfl | rfl | rfl | rfl <;> fin_cases reg <;> rfl
  · fin_cases reg <;>
      simp [registersWrite, registersWriteSpsr_bank, Cells.write, bank, hp, h1, h2, h3, h4, h5, h6, h7] <;> rfl

theorem bank_of_not_mem (reg : RegNum) (mode : Byte) (h : mode ∉ armModes) :
    bank (reg, mode) =
      if reg = 13 ∨ reg = 14 ∨ reg = 17 then none else some (reg.castLE regNum_le_slot) := by
  rcases mode_cases mode with hm | ⟨_, hp, h1, h2, h3, h4, h5, h6, h7⟩
  · exact absurd hm h
  · fin_cases reg <;> simp [bank, hp, h1, h2, h7]

theorem bank_injective (a b : RegNum) (mode : Byte) (h : bank (a, mode) = bank (b, mode)) :
    bank (a, mode) = none ∨ a = b := by
  have hall : ∀ m ∈ armModes, ∀ a b : RegNum,
      bank (a, m) = bank (b, m) → bank (a, m) = none ∨ a = b := by decide
  by_cases hm : mode ∈ armModes
  · exact hall mode hm a b h
  · rw [bank_of_not_mem a mode hm, bank_of_not_mem b mode hm] at h
    rw [bank_of_not_mem a mode hm]
    revert a b
    decide

theorem bank_isSome (reg : RegNum) (mode : Byte) (hm : mode ∈ armModes) (h : reg ≠ 17) :
    bank (reg, mode) ≠ none := by
  have hall : ∀ m ∈ armModes, ∀ reg : RegNum, reg ≠ 17 → bank (reg, m) ≠ none := by decide
  exact hall mode hm reg h

theorem bank_eq_pc (reg : RegNum) (mode : Byte) : bank (reg, mode) = some PC ↔ reg = 15 := by
  have hall : ∀ m ∈ armModes, ∀ reg : RegNum, bank (reg, m) = some PC ↔ reg = 15 := by decide
  by_cases hm : mode ∈ armModes
  · exact hall mode hm reg
  · rw [bank_of_not_mem reg mode hm]
    revert reg
    decide

theorem bank_eq_cpsr (reg : RegNum) (mode : Byte) : bank (reg, mode) = some CPSR ↔ reg = 16 := by
  have hall : ∀ m ∈ armModes, ∀ reg : RegNum, bank (reg, m) = some CPSR ↔ reg = 16 := by decide
  by_cases hm : mode ∈ armModes
  · exact hall mode hm reg
  · rw [bank_of_not_mem reg mode hm]
    revert reg
    decide

end Armator
