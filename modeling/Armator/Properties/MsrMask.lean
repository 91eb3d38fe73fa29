import Armator.Architecture.ArchState
import Armator.Architecture.Inert
import Armator.Architecture.Shifter
import Armator.Simulator.Create

namespace Armator

open BitFields

structure MsrRegister (ins : Word) : Prop where
  high : getBits ins 27 23 = 2
  low : getBits ins 21 20 = 2

def msrTarget (p : ArmCore) (ins : Word) : Option ArchReg :=
  if bit ins 22 then (privateMode p.mode).map .spsr else some .cpsr

structure MaskedWrite (target : ArchReg) (mask operand : Word) (p q : ArmCore) : Prop where
  written : q.arch target = (p.arch target &&& ~~~mask) ||| (operand &&& mask)
  others : ∀ a, a ≠ target → q.arch a = p.arch a
  mem : q.mem = p.mem

structure MsrMasked (p : ArmCore) (ins operand : Word) (r : Int × ArmCore) : Prop where
  completed : r.1 = 0 → ∃ target, msrTarget p ins = some target ∧
    MaskedWrite target (msrMask p ins) operand p r.2
  refused : r.1 ≠ 0 → r.2 = p

-- Nothing of the SPSR lies outside the mask; with an empty mask, bit 0 may.
def SpsrCovered (p : ArmCore) (ins : Word) : Prop :=
  bit ins 22 = true ∧ armReadSpsr p &&& ~~~(cNot (msrMask p ins) ||| msrMask p ins) = 0

theorem bit_not (x : Word) (i : Nat) (hi : i < 32) : bit (~~~x) i = !bit x i := by
  simp [bit, hi]

theorem eq_zero_iff_bits (x : Word) : x = 0 ↔ ∀ i < 32, bit x i = false := by
  have hzero (i : Nat) : bit (0 : Word) i = false := bit_zero i
  rw [eq_iff_bits]
  simp only [hzero]

-- `kept` is what `!(mask)` keeps.
theorem merge_bits (x mask operand kept : Word) (i : Nat) (hi : i < 32)
    (hd : bit kept i = true → bit mask i = false) :
    bit ((x &&& kept) ||| (operand &&& mask)) i = bit ((x &&& ~~~mask) ||| (operand &&& mask)) i ↔
      bit (x &&& ~~~(kept ||| mask)) i = false := by
  simp only [bit_or, bit_and, bit_not _ i hi]
  cases hk : bit kept i with
  | false => cases bit x i <;> cases bit mask i <;> simp
  | true =>
      rw [hd hk]
      cases bit x i <;> simp

theorem merge_eq_iff (x mask operand : Word) :
    msrMerge x mask operand = (x &&& ~~~mask) ||| (operand &&& mask) ↔
      x &&& ~~~(cNot mask ||| mask) = 0 := by
  have hd (i : Nat) (hk : bit (cNot mask) i = true) : bit mask i = false := by
    by_cases hm : mask = 0
    · rw [hm]
      exact bit_zero i
    · rw [cNot, if_neg hm] at hk
      exact absurd ((bit_zero i).symm.trans hk) (by decide)
  rw [msrMerge, eq_iff_bits, eq_zero_iff_bits]
  exact forall₂_congr fun i hi => merge_bits x mask operand (cNot mask) i hi (hd i)

section Msr

variable (h : Host) (p : ArmCore) (ins : Word)

theorem msrRegister_operand (hr : MsrRegister ins) :
    msrOperand h p ins = armReadRegister p (rmNum ins) := by
  have h25 : bit ins 25 = false := by
    have hb := bit_of_getBits_eq hr.high 2 (by decide)
    rw [hb]
    decide
  rw [msrOperand, if_neg]
  · rfl
  · rw [getBit_ne_zero, h25]
    decide

theorem spsr_masked_iff (m : PrivateMode) (mask operand : Word) (hm : privateMode p.mode = some m) :
    MaskedWrite (.spsr m) mask operand p (armWriteSpsr p (msrMerge (armReadSpsr p) mask operand)) ↔
      msrMerge (armReadSpsr p) mask operand = (armReadSpsr p &&& ~~~mask) ||| (operand &&& mask) := by
  have hmode := privateMode_mem p m hm
  have harch (a : ArchReg) (v : Word) :
      (armWriteSpsr p v).arch a = if archReg 17 p.mode = some a then v else p.arch a :=
    armWriteRegister_arch p 17 v a hmode
  have h17 : archReg 17 p.mode = some (.spsr m) := by
    rw [archReg_seventeen, hm]
    rfl
  rw [h17] at harch
  rw [armReadSpsr_arch p m hm]
  constructor
  · intro hw
    have hv := hw.written
    rwa [harch, if_pos rfl] at hv
  · intro he
    refine ⟨by rw [harch, if_pos rfl, he], fun a ha => ?_, rfl⟩
    rw [harch, if_neg (fun hs => ha (Option.some.inj hs).symm)]

theorem cpsr_never_masked (hm : p.mode ∈ armModes) (mask operand : Word)
    (hb : bit mask 4 = false) :
    ¬ MaskedWrite .cpsr mask operand p (armWriteCpsr p (msrMerge p.cpsr mask operand)) := by
  intro hw
  have hv := hw.written
  rw [armWriteCpsr_arch, if_pos rfl, ArmCore.arch_cpsr, msrMerge] at hv
  have h4 := congrArg (fun x : Word => bit x 4) hv
  simp [bit_or, bit_and, cNot_bit _ 4, bit_not, hb, cpsr_bit_four p hm] at h4

theorem msr_masked (hr : MsrRegister ins) (hm : p.mode ∈ armModes) :
    MsrMasked p ins (armReadRegister p (rmNum ins)) (fonctionMSR h p ins) ↔
      MsrRefused p ins (armReadRegister p (rmNum ins)) ∨ SpsrCovered p ins := by
  have he := fonctionMSR_eq h p ins
  rw [msrWritten, msrRegister_operand h p ins hr] at he
  generalize armReadRegister p (rmNum ins) = operand at he ⊢
  by_cases hrefused : MsrRefused p ins operand
  · have hcode : DATA_ABORT ≠ 0 := by decide
    rw [he, if_pos hrefused]
    refine iff_of_true ⟨fun hz => absurd hz hcode, fun _ => rfl⟩ (Or.inl hrefused)
  · rw [he, if_neg hrefused, or_iff_right hrefused, SpsrCovered]
    have hiff : MsrMasked p ins operand (0, if bit ins 22 then
          armWriteSpsr p (msrMerge (armReadSpsr p) (msrMask p ins) operand)
        else armWriteCpsr p (msrMerge p.cpsr (msrMask p ins) operand)) ↔
      ∃ target, msrTarget p ins = some target ∧ MaskedWrite target (msrMask p ins) operand p
        (if bit ins 22 then armWriteSpsr p (msrMerge (armReadSpsr p) (msrMask p ins) operand)
          else armWriteCpsr p (msrMerge p.cpsr (msrMask p ins) operand)) :=
      ⟨fun hh => hh.completed rfl, fun hh => ⟨fun _ => hh, fun hn => absurd rfl hn⟩⟩
    rw [hiff, msrTarget]
    cases h22 : bit ins 22 with
    | true =>
        have hspsr : armCurrentModeHasSpsr p = true := by
          by_contra hf
          apply hrefused
          rw [MsrRefused, h22]
          exact Or.inr (by simpa using hf)
        obtain ⟨m, hpm⟩ := privateMode_of_hasSpsr p hm hspsr
        simp only [if_true, true_and, hpm, Option.map_some, Option.some.injEq, exists_eq_left']
        rw [spsr_masked_iff p m _ _ hpm, merge_eq_iff]
    | false =>
        have hb := msrMask_bit_four p ins h22
        simp only [Bool.false_eq_true, if_false, false_and, iff_false, Option.some.injEq,
          exists_eq_left']
        exact cpsr_never_masked p hm _ _ hb

end Msr

-- MSR CPSR_f, R0 with 0 in R0, in SVC: the mode bits are lost.
theorem msr_flags_clears_mode :
    MsrRegister 0xE128F000 ∧ (afterReset []).mode ∈ armModes ∧ Passed (afterReset []) 0xE128F000 ∧
      ¬ MsrMasked (afterReset []) 0xE128F000
        (armReadRegister (afterReset []) (rmNum 0xE128F000))
        (fonctionMSR Host.blank (afterReset []) 0xE128F000) := by
  refine ⟨⟨by decide, by decide⟩, by decide, by decide, fun hm => ?_⟩
  obtain ⟨target, ht, hw⟩ := hm.completed (by decide)
  cases ht
  exact absurd hw.written (by decide)

theorem msr_spsr_masked :
    MsrMasked (afterReset []) 0xE168F000 (armReadRegister (afterReset []) (rmNum 0xE168F000))
      (fonctionMSR Host.blank (afterReset []) 0xE168F000) :=
  (msr_masked Host.blank (afterReset []) 0xE168F000 ⟨by decide, by decide⟩ (by decide)).mpr
    (Or.inr ⟨by decide, by decide⟩)

end Armator
