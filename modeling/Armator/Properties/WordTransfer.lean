import Armator.Architecture.Shifter
import Armator.Architecture.SingleTransfer
import Armator.Simulator.Create

namespace Armator

open BitFields

def wordOffset (p : ArmCore) (ins : Word) : Word :=
  if bit ins 25 then (shiftKind ins).apply (armReadRegister p (rmNum ins)) (shiftAmount ins)
  else getBits ins 11 0

def wordWidth (ins : Word) : Width := if bit ins 22 then .byte else .word

structure WordTransfer (h : Host) (p : ArmCore) (ins : Word) : Prop where
  mode : p.mode ∈ armModes
  word : p.fetchedWord h = ins
  encoding : isWordByte ins
  operand : bit ins 25 = true →
    bit ins 4 = false ∧ rmNum ins ≠ 15 ∧ (shiftKind ins = .lsl ∨ 1 ≤ shiftAmount ins)
  passed : Passed p ins
  form : ¬ (bit ins 24 = false ∧ bit ins 21 = true)
  base : rnNum ins ≠ 15
  dest : rdNum ins ≠ 15
  distinct : updatesBase ins → rdNum ins ≠ rnNum ins
  inside : (effectiveAddress p ins (wordOffset p ins)).toNat + (wordWidth ins).bytes ≤ p.mem.size

namespace WordTransfer

variable {h : Host} {p : ArmCore} {ins : Word}

theorem width_eq (ht : WordTransfer h p ins) : widthOf ins = wordWidth ins := if_pos ht.encoding

theorem offset_eq (ht : WordTransfer h p ins) :
    transferOffset h p.fetched ins = wordOffset p ins := by
  rw [transferOffset, if_pos ht.encoding, offsetWordByte, wordOffset]
  simp only [getBit_ne_zero]
  cases h25 : bit ins 25 with
  | false => rfl
  | true =>
      obtain ⟨_, hrm, hs⟩ := ht.operand h25
      simp only [if_true]
      rw [← rmNum, fetched_armReadRegister _ _ hrm, ← shiftKind_code, ← shiftAmount,
        effectuerDecalage_shift h (shiftKind ins) _ _ (shiftAmount_lt ins) hs]

theorem accepted (ht : WordTransfer h p ins) : ¬ transferRefused ins ∧ ¬ accessRefused ins := by
  refine ⟨?_, fun ha => ha.1 ht.encoding⟩
  rintro (⟨_, h25, h4⟩ | ⟨hn, _⟩)
  · have hf := (ht.operand h25).1
    rw [h4] at hf
    cases hf
  · exact hn ht.encoding

theorem single (ht : WordTransfer h p ins) : SingleTransfer h p ins (wordOffset p ins) where
  mode := ht.mode
  base := ht.base
  dest := ht.dest
  form := ht.form
  distinct := ht.distinct
  inside := by
    rw [ht.width_eq]
    exact ht.inside
  offset := ht.offset_eq
  accepted := ht.accepted

theorem kind_eq (ht : WordTransfer h p ins) : kindOf ins = .transfer := by
  have henc : getBits ins 27 26 = 1 := ht.encoding
  have h26 := bit_of_getBits_eq henc 0 (by decide)
  have h27 := bit_of_getBits_eq henc 1 (by decide)
  cases h25 : bit ins 25 with
  | false =>
      have hclass := insClass_of_bits ins 2 h27 h26 h25 (by decide)
      rw [kindOf, hclass]
      rfl
  | true =>
      have hclass := insClass_of_bits ins 3 h27 h26 h25 (by decide)
      have h4 := (ht.operand h25).1
      have hne : ¬ (getBits ins 24 20 = 0x1F ∧ getBits ins 7 4 = 0xF) := by
        rintro ⟨_, hf⟩
        have ht4 := bit_of_getBits_eq hf 0 (by decide)
        rw [h4] at ht4
        exact absurd ht4 (by decide)
      rw [kindOf, hclass]
      exact if_neg hne

end WordTransfer

theorem word_transfer (h : Host) (p : ArmCore) (ins : Word) (ht : WordTransfer h p ins) :
    armStep h p = (0, transferEffect h p ins (wordOffset p ins) (wordWidth ins)) ↔
      condField ins ≠ 5 := by
  have hiff := fetched_accepted_iff p ins ht.passed
  by_cases hc : condNotRespect p.fetched ins = 0
  · have hs := ht.single.step_eq ht.word ht.kind_eq hc
    rw [ht.width_eq] at hs
    exact iff_of_true hs (hiff.mp hc)
  · refine iff_of_false ?_ (fun h5 => hc (hiff.mpr h5))
    have hk := ht.kind_eq
    rw [← ht.word] at hc hk
    have hn := armStep_refused h p hc (by rw [hk]; intro hb; cases hb) (by rw [hk]; decide)
    exact fun hs => hn (by rw [hs])

-- LDRPL R0, [R1] with N = 0 is refused: the code tests PL as MI.
theorem ldrpl_refused :
    WordTransfer Host.blank (afterReset [0x55910000, 7]) 0x55910000 ∧
      armStep Host.blank (afterReset [0x55910000, 7]) ≠
        (0, transferEffect Host.blank (afterReset [0x55910000, 7]) 0x55910000
          (wordOffset (afterReset [0x55910000, 7]) 0x55910000) (wordWidth 0x55910000)) := by
  refine ⟨⟨by decide, by decide, by decide, by decide, by decide, by decide, by decide, by decide,
    by decide, by decide⟩, ?_⟩
  intro he
  exact absurd (congrArg Prod.fst he) (by decide)

theorem ldr_scaled_register :
    armStep Host.blank (afterReset [0xE7910102, 7]) =
      (0, transferEffect Host.blank (afterReset [0xE7910102, 7]) 0xE7910102
        (wordOffset (afterReset [0xE7910102, 7]) 0xE7910102) (wordWidth 0xE7910102)) :=
  (word_transfer Host.blank (afterReset [0xE7910102, 7]) 0xE7910102
    ⟨by decide, by decide, by decide, by decide, by decide, by decide, by decide, by decide,
      by decide, by decide⟩).mpr (by decide)

end Armator
