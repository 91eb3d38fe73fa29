import Armator.Architecture.Dispatch
import Armator.Architecture.StatusWrite
import Armator.Simulator.Create

namespace Armator

open BitFields

structure IsBX (ins : Word) : Prop where
  opcode : getBits ins 27 4 = 0x12FFF1
  rm_num : regNum (getBits ins 3 0) ≠ 15

def bxRegisters (p : ArmCore) (ins : Word) : Registers :=
  let rm := armReadRegister p (regNum (getBits ins 3 0))
  (p.reg.set CPSR (putBit p.cpsr 5 (bit rm 0))).set PC (rm &&& 0xFFFFFFFE)

def BranchAndExchange (p : ArmCore) (ins : Word) (out : Int × ArmCore) : Prop :=
  out.1 = 0 ∧ out.2.reg = bxRegisters p ins ∧ out.2.mem = p.mem

theorem IsBX.bits {ins : Word} (hb : IsBX ins) :
    bit ins 27 = false ∧ bit ins 26 = false ∧ bit ins 25 = false ∧ bit ins 24 = true ∧
      bit ins 23 = false ∧ bit ins 22 = false ∧ bit ins 21 = true ∧ bit ins 20 = false := by
  have hv (i : Nat) (hi : i < 24) : bit ins (4 + i) = bit (0x12FFF1 : Word) i :=
    bit_of_getBits_eq hb.opcode i hi
  exact ⟨hv 23 (by decide), hv 22 (by decide), hv 21 (by decide), hv 20 (by decide),
    hv 19 (by decide), hv 18 (by decide), hv 17 (by decide), hv 16 (by decide)⟩

-- The test for MSR comes first and takes every BX word.
theorem armMiscellaneous_bx (h : Host) (p : ArmCore) (ins : Word) (hb : IsBX ins) :
    armMiscellaneous h p ins =
      if condNotRespect p ins = 0 then fonctionMSR h p ins else (UNDEFINED_INSTRUCTION, p) := by
  obtain ⟨h27, h26, _, h24, h23, _, h21, h20⟩ := hb.bits
  by_cases hc : condNotRespect p ins = 0
  · rw [if_pos hc, armMiscellaneous_msr h p ins hc h27 h26 h24 h23 h21 h20]
  · rw [if_neg hc, armMiscellaneous, if_neg hc]

theorem armMiscellaneous_bx_code (h : Host) (p : ArmCore) (ins : Word) (hb : IsBX ins) :
    (armMiscellaneous h p ins).1 = 0 ∨ (armMiscellaneous h p ins).1 = DATA_ABORT ∨
      (armMiscellaneous h p ins).1 = UNDEFINED_INSTRUCTION := by
  rw [armMiscellaneous_bx h p ins hb]
  split
  · rcases fonctionMSR_code h p ins with hr | hr
    · exact Or.inl hr
    · exact Or.inr (Or.inl (by rw [hr]))
  · exact Or.inr (Or.inr rfl)

theorem armMiscellaneous_never_exchanges (h : Host) (p : ArmCore) (ins : Word)
    (hm : p.mode ∈ armModes) (hb : IsBX ins) :
    ¬ BranchAndExchange p ins (armMiscellaneous h p ins) := by
  rintro ⟨hcode, hreg, _⟩
  rw [armMiscellaneous_bx h p ins hb] at hcode hreg
  by_cases hc : condNotRespect p ins = 0
  · rw [if_pos hc] at hcode hreg
    have hlow := fonctionMSR_cpsr_bit_four h p ins hb.bits.2.2.2.2.2.1 hcode
    rw [ArmCore.cpsr, hreg, bxRegisters, Registers.set_registre, if_neg (by decide),
      Registers.set_registre, if_pos rfl, bit_putBit _ _ _ _ (by decide), if_neg (by decide),
      cpsr_bit_four p hm] at hlow
    cases hlow
  · rw [if_neg hc] at hcode
    cases hcode

theorem bx_never (h : Host) (p : ArmCore) (ins : Word) (hm : p.mode ∈ armModes)
    (hb : IsBX ins) :
    ¬ BranchAndExchange p ins (armMiscellaneous h p ins) ∧
      (p.fetchedWord h = ins → ¬ BranchAndExchange p.fetched ins (armStep h p)) := by
  refine ⟨armMiscellaneous_never_exchanges h p ins hm hb, ?_⟩
  intro hw hx
  obtain ⟨h27, h26, h25, h24, h23, _, _, h20⟩ := hb.bits
  have hclass : insClass ins = 0 := insClass_of_bits ins 0 h27 h26 h25 (by decide)
  have he : armExecuteInstruction h p = armMiscellaneous h p.fetched ins := by
    rw [armExecuteInstruction_eq, hw, aiguiller_eq, hclass]
    exact if_pos ⟨h24, h23, h20⟩
  by_cases hz : (armExecuteInstruction h p).1 = 0
  · rw [armStep_of_zero h p hz, he] at hx
    exact armMiscellaneous_never_exchanges h p.fetched ins (by rwa [fetched_mode]) hb hx
  · have hx0 := hx.1
    revert hx0
    rcases armMiscellaneous_bx_code h p.fetched ins hb with hr | hr | hr
    · exact absurd (he ▸ hr) hz
    · exact armStep_code_ne_zero h p 2 (by rw [he, hr]; rfl) (by decide) (by decide)
    · exact armStep_code_ne_zero h p 7 (by rw [he, hr]; rfl) (by decide) (by decide)

theorem bx_writes_cpsr :
    IsBX 0xE12FFF10 ∧ (afterReset []).mode ∈ armModes ∧
      ¬ BranchAndExchange (afterReset []) 0xE12FFF10
        (armMiscellaneous Host.blank (afterReset []) 0xE12FFF10) := by
  refine ⟨⟨by decide, by decide⟩, by decide, ?_⟩
  rintro ⟨_, hreg, _⟩
  exact absurd (congrArg (fun r => r.registre CPSR) hreg) (by decide)

theorem bx_r1_never :
    ¬ BranchAndExchange (afterReset [0xE12FFF11]) 0xE12FFF11
        (armMiscellaneous Host.blank (afterReset [0xE12FFF11]) 0xE12FFF11) ∧
      ((afterReset [0xE12FFF11]).fetchedWord Host.blank = 0xE12FFF11 →
        ¬ BranchAndExchange (afterReset [0xE12FFF11]).fetched 0xE12FFF11
          (armStep Host.blank (afterReset [0xE12FFF11]))) :=
  bx_never Host.blank (afterReset [0xE12FFF11]) 0xE12FFF11 (by decide) ⟨by decide, by decide⟩

end Armator
