import Armator.Architecture.Inert
import Armator.Architecture.SingleTransfer
import Armator.Properties.WordTransfer

namespace Armator

open BitFields

def halfOffset (p : ArmCore) (ins : Word) : Word :=
  if bit ins 22 then (getBits ins 11 8 <<< 4) ||| getBits ins 3 0
  else armReadRegister p (rmNum ins)

structure HalfTransfer (h : Host) (p : ArmCore) (ins : Word) : Prop where
  mode : p.mode ∈ armModes
  word : p.fetchedWord h = ins
  encoding : insClass ins = 0 ∧ getBits ins 7 4 = 11
  operand : bit ins 22 = false → rmNum ins ≠ 15
  passed : Passed p ins
  form : ¬ (bit ins 24 = false ∧ bit ins 21 = true)
  base : rnNum ins ≠ 15
  dest : rdNum ins ≠ 15
  distinct : updatesBase ins → rdNum ins ≠ rnNum ins
  inside : (effectiveAddress p ins (halfOffset p ins)).toNat + 2 ≤ p.mem.size

-- STRH, pre-indexed and downwards: the decoder takes these words for miscellaneous ones.
def isMisrouted (ins : Word) : Prop :=
  bit ins 24 = true ∧ bit ins 23 = false ∧ bit ins 20 = false

instance (ins : Word) : Decidable (isMisrouted ins) := inferInstanceAs (Decidable (_ ∧ _))

-- The MSR executed in the place of the store changes nothing, and the store would not either.
def HarmlessMisroute (h : Host) (p : ArmCore) (ins : Word) : Prop :=
  bit ins 21 = true ∧ MsrInert h p.fetched ins ∧ halfOffset p ins = 0 ∧
    p.mem.holds 2 h.ENDIANESS (armReadRegister p (rnNum ins))
      ((armReadRegister p (rdNum ins)).setWidth 16 : Half)

namespace HalfTransfer

variable {h : Host} {p : ArmCore} {ins : Word}

theorem bits (ht : HalfTransfer h p ins) :
    bit ins 27 = false ∧ bit ins 26 = false ∧ bit ins 25 = false ∧ bit ins 7 = true ∧
      bit ins 4 = true :=
  ⟨bit_of_getBits_eq ht.encoding.1 2 (by decide), bit_of_getBits_eq ht.encoding.1 1 (by decide),
    bit_of_getBits_eq ht.encoding.1 0 (by decide), bit_of_getBits_eq ht.encoding.2 3 (by decide),
    bit_of_getBits_eq ht.encoding.2 0 (by decide)⟩

theorem not_wordByte (ht : HalfTransfer h p ins) : ¬ isWordByte ins := by
  intro hw
  have h26 := bit_of_getBits_eq (show getBits ins 27 26 = 1 from hw) 0 (by decide)
  rw [ht.bits.2.1] at h26
  exact absurd h26 (by decide)

theorem accepted (ht : HalfTransfer h p ins) : ¬ transferRefused ins ∧ ¬ accessRefused ins := by
  obtain ⟨_, _, _, h7, h4⟩ := ht.bits
  refine ⟨?_, ?_⟩
  · rintro (⟨hw, _⟩ | ⟨_, hrn | hne⟩)
    · exact ht.not_wordByte hw
    · exact ht.base hrn
    · exact hne ⟨ht.encoding.1, h7, h4⟩
  · rintro ⟨_, hsh⟩
    apply hsh
    have hn := congrArg BitVec.toNat ht.encoding.2
    apply BitVec.eq_of_toNat_eq
    rw [getBits_toNat] at hn ⊢
    have h11 : (11 : Word).toNat = 11 := rfl
    have h1 : (1 : Word).toNat = 1 := rfl
    omega

theorem single (ht : HalfTransfer h p ins) : SingleTransfer h p ins (halfOffset p ins) where
  mode := ht.mode
  base := ht.base
  dest := ht.dest
  form := ht.form
  distinct := ht.distinct
  inside := by
    rw [widthOf, if_neg ht.not_wordByte]
    exact ht.inside
  offset := by
    rw [transferOffset, if_neg ht.not_wordByte, offsetHalf, halfOffset]
    simp only [getBit_ne_zero]
    cases h22 : bit ins 22 with
    | true => rfl
    | false => exact fetched_armReadRegister p _ (ht.operand h22)
  accepted := ht.accepted

theorem width_eq (ht : HalfTransfer h p ins) : widthOf ins = .half := if_neg ht.not_wordByte

theorem kind_eq (ht : HalfTransfer h p ins) :
    kindOf ins = if isMisrouted ins then .miscellaneous else .transfer := by
  obtain ⟨_, _, _, h7, h4⟩ := ht.bits
  rw [kindOf, ht.encoding.1]
  by_cases hm : isMisrouted ins
  · rw [if_pos hm]
    exact if_pos hm
  · rw [if_neg hm]
    exact (if_neg hm).trans (if_pos ⟨h4, h7⟩)

end HalfTransfer

section Misrouted

variable {h : Host} {p : ArmCore} {ins : Word}

theorem execute_misrouted (ht : HalfTransfer h p ins) (hm : isMisrouted ins)
    (hc : condNotRespect p.fetched ins = 0) :
    armExecuteInstruction h p =
      if bit ins 21 then fonctionMSR h p.fetched ins else (UNDEFINED_INSTRUCTION, p.fetched) := by
  have hk := ht.kind_eq
  rw [if_pos hm] at hk
  rw [armExecuteInstruction_accepted, ht.word, hk]
  · rfl
  · rw [ht.word]
    exact hc

-- A misrouted store moves the base, a register below R15; the MSR writes register 16 or 17.
theorem msr_eq_write_iff (q : ArmCore) (m : Memory) (rn : RegNum) (v : Word) (hrn : rn.val < 16) :
    fonctionMSR h q ins = (0, armWriteRegister { q with mem := m } rn v) ↔
      MsrInert h q ins ∧ m = q.mem ∧ q.holds rn v := by
  rw [← fonctionMSR_inert h q ins, ← armWriteRegister_settled]
  constructor
  · intro he
    rcases fonctionMSR_cases h q ins with habort | ⟨k, u, hk, hw⟩
    · rw [habort] at he
      cases congrArg Prod.fst he
    · have hq : armWriteRegister q k u = armWriteRegister { q with mem := m } rn v := by
        rw [hw] at he
        exact congrArg Prod.snd he
      have hm : m = q.mem := (congrArg ArmCore.mem hq).symm
      subst hm
      have hne : k ≠ rn := by
        rintro rfl
        have h16 : (16 : RegNum).val ≤ k.val := hk
        have hv : (16 : RegNum).val = 16 := rfl
        omega
      obtain ⟨hk, hr⟩ := (write_eq_write_iff q k rn u v hne).mp hq
      refine ⟨?_, rfl, (armWriteRegister_settled q rn v).mpr hr⟩
      rw [hw, (armWriteRegister_settled q k u).mpr hk]
  · rintro ⟨hi, rfl, hr⟩
    rw [hi]
    exact congrArg (Prod.mk 0) hr.symm

theorem holds_moved_iff (ht : HalfTransfer h p ins) (h23 : bit ins 23 = false) :
    p.fetched.holds (rnNum ins) (movedBase p ins (halfOffset p ins)) ↔ halfOffset p ins = 0 := by
  have hbank : bank (rnNum ins, p.fetched.mode) ≠ none := by
    rw [fetched_mode]
    exact bank_isSome _ _ ht.mode (ne_of_val_lt (rnNum_lt ins)).2
  have hread := fetched_armReadRegister p _ ht.base
  rw [← armWriteRegister_settled, armWriteRegister_eq_self_iff,
    registersWrite_eq_self_iff_read _ _ _ _ hbank, ← armReadRegister_of_ne _ _ ht.base, hread,
    movedBase, h23]
  generalize armReadRegister p (rnNum ins) = base
  generalize halfOffset p ins = off
  simp only [Bool.false_eq_true, if_false]
  bv_omega

theorem misrouted_iff (ht : HalfTransfer h p ins) (hm : isMisrouted ins)
    (hc : condNotRespect p.fetched ins = 0) :
    armStep h p = (0, transferEffect h p ins (halfOffset p ins) .half) ↔
      HarmlessMisroute h p ins := by
  have he := execute_misrouted ht hm hc
  obtain ⟨h24, h23, h20⟩ := hm
  unfold HarmlessMisroute
  cases h21 : bit ins 21 with
  | false =>
      rw [h21] at he
      have hn := armStep_code_ne_zero h p UNDEFINED_INSTRUCTION (by rw [he]; rfl) (by decide)
        (by decide)
      refine iff_of_false (fun hs => hn (by rw [hs])) ?_
      rintro ⟨hf, _⟩
      cases hf
  | true =>
      rw [h21, if_pos rfl] at he
      have hcode : (armExecuteInstruction h p).1 = 0 ∨
          (armExecuteInstruction h p).1 = DATA_ABORT ∨
            (armExecuteInstruction h p).1 = UNDEFINED_INSTRUCTION := by
        rw [he]
        rcases fonctionMSR_code h p.fetched ins with hz | ha
        · exact Or.inl hz
        · exact Or.inr (Or.inl (by rw [ha]))
      have hu : updatesBase ins := Or.inr h21
      have h20' : ¬ bit ins 20 = true := by
        rw [h20]
        decide
      have hin := ht.single.inRange
      rw [armStep_eq_zero_iff h p _ hcode, he, transferEffect, if_pos hu, if_neg h20']
      rw [msr_eq_write_iff p.fetched _ _ _ (rnNum_lt ins), holds_moved_iff ht h23, and_iff_right rfl]
      refine and_congr_right fun _ => ?_
      rw [and_comm, fetched_mem]
      refine and_congr_right fun h0 => ?_
      have hea : effectiveAddress p ins (halfOffset p ins) = armReadRegister p (rnNum ins) := by
        rw [effectiveAddress, if_pos h24, movedBase, h23, h0]
        exact BitVec.sub_zero _
      rw [hea] at hin ⊢
      exact memoryWriteHalf_eq_self_iff p.mem _ _ _ hin

end Misrouted

theorem half_transfer (h : Host) (p : ArmCore) (ins : Word) (ht : HalfTransfer h p ins) :
    armStep h p = (0, transferEffect h p ins (halfOffset p ins) .half) ↔
      condField ins ≠ 5 ∧ (isMisrouted ins → HarmlessMisroute h p ins) := by
  have hiff := fetched_accepted_iff p ins ht.passed
  by_cases hc : condNotRespect p.fetched ins = 0
  · rw [and_iff_right (hiff.mp hc)]
    have hk := ht.kind_eq
    by_cases hm : isMisrouted ins
    · rw [misrouted_iff ht hm hc]
      exact ⟨fun hh _ => hh, fun hh => hh hm⟩
    · rw [if_neg hm] at hk
      have hs := ht.single.step_eq ht.word hk hc
      rw [ht.width_eq] at hs
      exact iff_of_true hs (fun hh => absurd hh hm)
  · refine iff_of_false ?_ (fun hh => hc (hiff.mpr hh.1))
    have hk := ht.kind_eq
    have hne : kindOf ins ≠ .branch ∧ kindOf ins ≠ .interrupt := by
      rw [hk]
      split <;> decide
    rw [← ht.word] at hc hne
    have hn := armStep_refused h p hc (fun hb => absurd hb hne.1) hne.2
    exact fun hs => hn (by rw [hs])

-- STRH R0, [R1, #-0]: undefined instruction.
theorem strh_down_undefined :
    HalfTransfer Host.blank (afterReset [0xE14100B0]) 0xE14100B0 ∧
      armStep Host.blank (afterReset [0xE14100B0]) ≠
        (0, transferEffect Host.blank (afterReset [0xE14100B0]) 0xE14100B0
          (halfOffset (afterReset [0xE14100B0]) 0xE14100B0) .half) := by
  refine ⟨⟨by decide, by decide, by decide, by decide, by decide, by decide, by decide, by decide,
    by decide, by decide⟩, ?_⟩
  intro he
  exact absurd (congrArg Prod.fst he) (by decide)

theorem strh_up :
    armStep Host.blank (afterReset [0xE1C100B2]) =
      (0, transferEffect Host.blank (afterReset [0xE1C100B2]) 0xE1C100B2
        (halfOffset (afterReset [0xE1C100B2]) 0xE1C100B2) .half) :=
  (half_transfer Host.blank (afterReset [0xE1C100B2]) 0xE1C100B2
    ⟨by decide, by decide, by decide, by decide, by decide, by decide, by decide, by decide,
      by decide, by decide⟩).mpr ⟨by decide, fun hm => absurd hm (by decide)⟩

end Armator
