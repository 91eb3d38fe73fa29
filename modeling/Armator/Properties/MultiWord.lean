import Armator.Properties.Comparison
import Armator.Library.Ripple

namespace Armator

open BitFields (bit bit_toNat)

structure Limb where
  ins : Word
  rn : Word
  operande2 : Word

def Limb.rd (l : Limb) : RegNum := regNum (getBits l.ins 15 12)

structure Limb.Flagged (l : Limb) : Prop where
  bit_S : getBit l.ins 20 = 1
  rd_num : l.rd ≠ 15

def executerLimb (opeCode : Nat) (p : ArmCore) (l : Limb) : (Int × Word) × ArmCore :=
  let (code, q) := effectuerOperation opeCode l.rn l.operande2 p l.ins
  ((code, armReadRegister q l.rd), q)

def executerSuite (opeCode : Nat) : ArmCore → List Limb → List (Int × Word) × ArmCore
  | p, [] => ([], p)
  | p, l :: ls =>
      let (r, q) := executerLimb opeCode p l
      let (rs, q) := executerSuite opeCode q ls
      (r :: rs, q)

def executerChaine (premier suivants : Nat) (p : ArmCore) (l : Limb) (ls : List Limb) :
    List (Int × Word) × ArmCore :=
  let (r, q) := executerLimb premier p l
  let (rs, q) := executerSuite suivants q ls
  (r :: rs, q)

def valeur (ws : List Word) : Nat := Nat.ofDigits (2 ^ 32) (ws.map BitVec.toNat)

def ArmCore.carry (p : ArmCore) : Bool := (flagsOf p.cpsr).c

section Limbs

variable {p : ArmCore} {l : Limb}

theorem ecrire_flags (temp : BitVec 64) (hl : l.Flagged) (hm : p.mode ∈ armModes) :
    ∃ q, updateFlags temp (armWriteRegister p l.rd (temp.setWidth 32)) (getBit l.ins 20) l.rd =
        (0, q) ∧ q.mode = p.mode ∧ armReadRegister q l.rd = temp.setWidth 32 ∧
      flagsOf q.cpsr = tempFlags temp := by
  have hrd : l.rd ≠ 16 ∧ l.rd ≠ 17 := ne_of_val_lt (regNum_getBits_lt l.ins 15 12 rfl)
  have hmw := armWriteRegister_mode p l.rd (temp.setWidth 32) hrd.1
  have hmc := armWriteCpsr_mode (armWriteRegister p l.rd (temp.setWidth 32)) _
    (fun i hi => bit_putFlags_low _ (tempFlags temp) i (by omega))
  refine ⟨_, ?_, hmc.trans hmw, ?_, ?_⟩
  · rw [hl.bit_S, updateFlags_flags _ _ _ hl.rd_num]
  · rw [armReadRegister_writeCpsr _ _ _ hrd.1 hmc]
    exact armReadRegister_write_same p l.rd _ hrd.1 hl.rd_num (bank_isSome l.rd p.mode hm hrd.2)
  · rw [armWriteCpsr_cpsr, flagsOf_putFlags]

theorem flagC_toNat (x : Word) : ((getBit x bitC).setWidth 64).toNat = (flagsOf x).c.toNat := by
  cases hb : bit x bitC with
  | false =>
      rw [(getBit_eq_zero x bitC).mpr hb]
      simp [flagsOf, hb]
  | true =>
      rw [(getBit_eq_one x bitC).mpr hb]
      simp [flagsOf, hb]

theorem executerLimb_temp (opeCode : Nat) (temp : BitVec 64) (hl : l.Flagged)
    (hm : p.mode ∈ armModes)
    (he : effectuerOperation opeCode l.rn l.operande2 p l.ins =
      updateFlags temp (armWriteRegister p l.rd (temp.setWidth 32)) (getBit l.ins 20) l.rd) :
    (executerLimb opeCode p l).1 = (0, temp.setWidth 32) ∧
      (executerLimb opeCode p l).2.mode = p.mode ∧
      (executerLimb opeCode p l).2.carry.toNat = temp.toNat / 2 ^ 32 % 2 := by
  obtain ⟨q, hq, hmode, hread, hflags⟩ := ecrire_flags temp hl hm
  have hx : executerLimb opeCode p l = ((0, temp.setWidth 32), q) := by
    simp only [executerLimb, he, hq, hread]
  rw [hx]
  refine ⟨rfl, hmode, ?_⟩
  simp only [ArmCore.carry, hflags, tempFlags, bit_toNat]

theorem executerLimb_add (hl : l.Flagged) (hm : p.mode ∈ armModes) :
    (executerLimb 4 p l).1.1 = 0 ∧
      (executerLimb 4 p l).1.2.toNat = (l.rn.toNat + l.operande2.toNat) % 2 ^ 32 ∧
      (executerLimb 4 p l).2.mode = p.mode ∧
      (executerLimb 4 p l).2.carry.toNat = (l.rn.toNat + l.operande2.toNat) / 2 ^ 32 := by
  obtain ⟨h1, h2, h3⟩ :=
    executerLimb_temp 4 (l.rn.setWidth 64 + l.operande2.setWidth 64) hl hm rfl
  have ha := l.rn.isLt
  have hb := l.operande2.isLt
  have ht : (l.rn.setWidth 64 + l.operande2.setWidth 64).toNat =
      l.rn.toNat + l.operande2.toNat := by
    simp only [BitVec.toNat_add, BitVec.toNat_setWidth]
    omega
  rw [h1, h3, ht, BitVec.toNat_setWidth, ht]
  refine ⟨rfl, rfl, h2, ?_⟩
  omega

theorem executerLimb_adc (hl : l.Flagged) (hm : p.mode ∈ armModes) :
    (executerLimb 5 p l).1.1 = 0 ∧
      (executerLimb 5 p l).1.2.toNat =
        (l.rn.toNat + l.operande2.toNat + p.carry.toNat) % 2 ^ 32 ∧
      (executerLimb 5 p l).2.mode = p.mode ∧
      (executerLimb 5 p l).2.carry.toNat =
        (l.rn.toNat + l.operande2.toNat + p.carry.toNat) / 2 ^ 32 := by
  obtain ⟨h1, h2, h3⟩ := executerLimb_temp 5
    (l.rn.setWidth 64 + l.operande2.setWidth 64 + (getBit p.cpsr bitC).setWidth 64) hl hm rfl
  have ha := l.rn.isLt
  have hb := l.operande2.isLt
  have hc : p.carry.toNat ≤ 1 := Bool.toNat_le _
  have ht : (l.rn.setWidth 64 + l.operande2.setWidth 64 +
      (getBit p.cpsr bitC).setWidth 64).toNat =
      l.rn.toNat + l.operande2.toNat + p.carry.toNat := by
    rw [BitVec.toNat_add, flagC_toNat]
    simp only [BitVec.toNat_add, BitVec.toNat_setWidth]
    change _ = l.rn.toNat + l.operande2.toNat + (flagsOf p.cpsr).c.toNat
    change (flagsOf p.cpsr).c.toNat ≤ 1 at hc
    omega
  rw [h1, h3, ht, BitVec.toNat_setWidth, ht]
  refine ⟨rfl, rfl, h2, ?_⟩
  omega

theorem executerLimb_sub (hl : l.Flagged) (hm : p.mode ∈ armModes) :
    (executerLimb 2 p l).1.2.toNat = (l.rn.toNat + (2 ^ 32 - l.operande2.toNat)) % 2 ^ 32 ∧
      (executerLimb 2 p l).2.mode = p.mode ∧
      (executerLimb 2 p l).2.carry = decide (l.rn.toNat < l.operande2.toNat) := by
  obtain ⟨h1, h2, h3⟩ :=
    executerLimb_temp 2 (l.rn.setWidth 64 - l.operande2.setWidth 64) hl hm rfl
  have ha := l.rn.isLt
  have hb := l.operande2.isLt
  rw [sub_toNat] at h3
  refine ⟨?_, h2, ?_⟩
  · rw [h1, BitVec.toNat_setWidth, sub_toNat]
    omega
  · rw [Bool.eq_iff_iff, decide_eq_true_eq, ← Bool.toNat_eq_one, h3]
    omega

theorem executerLimb_sbc (hl : l.Flagged) (hm : p.mode ∈ armModes) :
    (executerLimb 6 p l).1.2.toNat =
      (l.rn.toNat + (2 ^ 32 - l.operande2.toNat) + p.carry.toNat + (2 ^ 32 - 1)) % 2 ^ 32 := by
  obtain ⟨h1, _, _⟩ := executerLimb_temp 6 (l.rn.setWidth 64 - l.operande2.setWidth 64 +
    (getBit p.cpsr bitC).setWidth 64 - 1) hl hm rfl
  have ha := l.rn.isLt
  have hb := l.operande2.isLt
  have hc : p.carry.toNat ≤ 1 := Bool.toNat_le _
  have hone : (1 : BitVec 64).toNat = 1 := rfl
  rw [h1, BitVec.toNat_setWidth, BitVec.toNat_sub, BitVec.toNat_add, flagC_toNat, sub_toNat, hone]
  change _ = (_ + (flagsOf p.cpsr).c.toNat + _) % _
  change (flagsOf p.cpsr).c.toNat ≤ 1 at hc
  omega

end Limbs

def Limb.pair (l : Limb) : Nat × Nat := (l.rn.toNat, l.operande2.toNat)

theorem executerSuite_adc (p : ArmCore) (ls : List Limb) (hm : p.mode ∈ armModes)
    (hl : ∀ l ∈ ls, l.Flagged) :
    (∀ r ∈ (executerSuite 5 p ls).1, r.1 = 0) ∧
      (executerSuite 5 p ls).1.map (fun r => r.2.toNat) =
        (Ripple.add (2 ^ 32) p.carry.toNat (ls.map Limb.pair)).1 ∧
      (executerSuite 5 p ls).2.carry.toNat =
        (Ripple.add (2 ^ 32) p.carry.toNat (ls.map Limb.pair)).2 := by
  induction ls generalizing p with
  | nil => simp [executerSuite, Ripple.add]
  | cons l ls ih =>
      obtain ⟨hcode, hvalue, hmode, hcarry⟩ := executerLimb_adc (hl l List.mem_cons_self) hm
      obtain ⟨hcodes, hvalues, hfinal⟩ := ih (executerLimb 5 p l).2 (hmode ▸ hm)
        (fun x hx => hl x (List.mem_cons_of_mem _ hx))
      rw [hcarry] at hvalues hfinal
      refine ⟨?_, ?_, ?_⟩
      · intro r hr
        rcases List.mem_cons.mp hr with rfl | hr
        · exact hcode
        · exact hcodes r hr
      · simp only [executerSuite, List.map_cons, hvalues, hvalue]
        rfl
      · exact hfinal

theorem executerChaine_add (p : ArmCore) (l : Limb) (ls : List Limb) (hm : p.mode ∈ armModes)
    (hl : ∀ x ∈ l :: ls, x.Flagged) :
    (∀ r ∈ (executerChaine 4 5 p l ls).1, r.1 = 0) ∧
      (executerChaine 4 5 p l ls).1.map (fun r => r.2.toNat) =
        (Ripple.add (2 ^ 32) 0 ((l :: ls).map Limb.pair)).1 ∧
      (executerChaine 4 5 p l ls).2.carry.toNat =
        (Ripple.add (2 ^ 32) 0 ((l :: ls).map Limb.pair)).2 := by
  obtain ⟨hcode, hvalue, hmode, hcarry⟩ := executerLimb_add (hl l List.mem_cons_self) hm
  obtain ⟨hcodes, hvalues, hfinal⟩ := executerSuite_adc (executerLimb 4 p l).2 ls (hmode ▸ hm)
    (fun x hx => hl x (List.mem_cons_of_mem _ hx))
  rw [hcarry] at hvalues hfinal
  refine ⟨?_, ?_, hfinal⟩
  · intro r hr
    rcases List.mem_cons.mp hr with rfl | hr
    · exact hcode
    · exact hcodes r hr
  · simp only [executerChaine, List.map_cons, hvalues, hvalue]
    rfl

theorem multi_word_addition (p : ArmCore) (l : Limb) (ls : List Limb) (hm : p.mode ∈ armModes)
    (hl : ∀ x ∈ l :: ls, x.Flagged) :
    (∀ r ∈ (executerChaine 4 5 p l ls).1, r.1 = 0) ∧
      (executerChaine 4 5 p l ls).1.length = (l :: ls).length ∧
      valeur ((executerChaine 4 5 p l ls).1.map Prod.snd) =
        (valeur ((l :: ls).map Limb.rn) + valeur ((l :: ls).map Limb.operande2)) %
          2 ^ (32 * (l :: ls).length) ∧
      ((executerChaine 4 5 p l ls).2.carry = true ↔
        2 ^ (32 * (l :: ls).length) ≤
          valeur ((l :: ls).map Limb.rn) + valeur ((l :: ls).map Limb.operande2)) := by
  obtain ⟨hcodes, hvalues, hcarry⟩ := executerChaine_add p l ls hm hl
  have hfst : valeur ((l :: ls).map Limb.rn) =
      Nat.ofDigits (2 ^ 32) (((l :: ls).map Limb.pair).map Prod.fst) := by
    rw [valeur, List.map_map, List.map_map]
    rfl
  have hsnd : valeur ((l :: ls).map Limb.operande2) =
      Nat.ofDigits (2 ^ 32) (((l :: ls).map Limb.pair).map Prod.snd) := by
    rw [valeur, List.map_map, List.map_map]
    rfl
  have hres : valeur ((executerChaine 4 5 p l ls).1.map Prod.snd) =
      Nat.ofDigits (2 ^ 32) (Ripple.add (2 ^ 32) 0 ((l :: ls).map Limb.pair)).1 := by
    rw [← hvalues, valeur, List.map_map]
    rfl
  have hbound : ∀ x ∈ (l :: ls).map Limb.pair, x.1 < 2 ^ 32 ∧ x.2 < 2 ^ 32 := by
    intro x hx
    obtain ⟨y, _, rfl⟩ := List.mem_map.mp hx
    exact ⟨y.rn.isLt, y.operande2.isLt⟩
  have hpow : 2 ^ (32 * (l :: ls).length) = (2 ^ 32) ^ ((l :: ls).map Limb.pair).length := by
    rw [List.length_map, Nat.pow_mul]
  have hlen := congrArg List.length hvalues
  rw [List.length_map, Ripple.add_length, List.length_map] at hlen
  have hone : (executerChaine 4 5 p l ls).2.carry = true ↔
      (Ripple.add (2 ^ 32) 0 ((l :: ls).map Limb.pair)).2 = 1 := by
    rw [← hcarry, Bool.toNat_eq_one]
  refine ⟨hcodes, hlen, ?_, ?_⟩
  · rw [hres, hfst, hsnd, hpow, Ripple.add_ofDigits (by decide), Nat.add_zero]
  · rw [hone, hfst, hsnd, hpow, Ripple.add_carry_eq_one_iff (by decide) 0 (by decide) _ hbound,
      Nat.add_zero]

theorem two_limbs_added :
    (∀ r ∈ (executerChaine 4 5 (afterReset []) ⟨0xE0910002, 0xFFFFFFFF, 1⟩
        [⟨0xE0B13004, 2, 3⟩]).1, r.1 = 0) ∧
      (executerChaine 4 5 (afterReset []) ⟨0xE0910002, 0xFFFFFFFF, 1⟩
        [⟨0xE0B13004, 2, 3⟩]).1.length = 2 ∧
      valeur ((executerChaine 4 5 (afterReset []) ⟨0xE0910002, 0xFFFFFFFF, 1⟩
        [⟨0xE0B13004, 2, 3⟩]).1.map Prod.snd) =
        (valeur [0xFFFFFFFF, 2] + valeur [1, 3]) % 2 ^ (32 * 2) ∧
      ((executerChaine 4 5 (afterReset []) ⟨0xE0910002, 0xFFFFFFFF, 1⟩
        [⟨0xE0B13004, 2, 3⟩]).2.carry = true ↔
        2 ^ (32 * 2) ≤ valeur [0xFFFFFFFF, 2] + valeur [1, 3]) :=
  multi_word_addition (afterReset []) ⟨0xE0910002, 0xFFFFFFFF, 1⟩ [⟨0xE0B13004, 2, 3⟩]
    (by decide) (by simpa using ⟨⟨by decide, by decide⟩, ⟨by decide, by decide⟩⟩)

def MultiWordSubtraction (p : ArmCore) (l : Limb) (ls : List Limb) : Prop :=
  (valeur ((executerChaine 2 6 p l ls).1.map Prod.snd) : Int) =
      ((valeur ((l :: ls).map Limb.rn) : Int) - valeur ((l :: ls).map Limb.operande2)) %
        2 ^ (32 * (l :: ls).length) ∧
    ((executerChaine 2 6 p l ls).2.carry = true ↔
      valeur ((l :: ls).map Limb.operande2) ≤ valeur ((l :: ls).map Limb.rn))

theorem valeur_cons (w : Word) (ws : List Word) : valeur (w :: ws) = w.toNat + 2 ^ 32 * valeur ws := by
  simp only [valeur, List.map_cons, Nat.ofDigits_cons]

theorem single_limb_carry_wrong (p : ArmCore) (l : Limb) (hm : p.mode ∈ armModes)
    (hl : l.Flagged) : ¬ MultiWordSubtraction p l [] := by
  rintro ⟨_, hcarry⟩
  have hc : (executerChaine 2 6 p l []).2.carry = decide (l.rn.toNat < l.operande2.toNat) :=
    (executerLimb_sub hl hm).2.2
  rw [hc] at hcarry
  simp only [List.map_cons, List.map_nil, valeur_cons, decide_eq_true_eq] at hcarry
  omega

-- Two limbs or more: SBCS subtracts one too many or one too few in the second limb.
theorem second_limb_wrong (p : ArmCore) (l m : Limb) (ls : List Limb) (hm : p.mode ∈ armModes)
    (hl : ∀ x ∈ l :: m :: ls, x.Flagged) : ¬ MultiWordSubtraction p l (m :: ls) := by
  rintro ⟨hvalue, _⟩
  obtain ⟨h0, hmode, hborrow⟩ := executerLimb_sub (hl l (by simp)) hm
  have h1 := executerLimb_sbc (p := (executerLimb 2 p l).2) (hl m (by simp)) (hmode ▸ hm)
  rw [hborrow] at h1
  have hpow : (2 : Int) ^ (32 * (l :: m :: ls).length) = 2 ^ 64 * 2 ^ (32 * ls.length) := by
    rw [← pow_add]
    congr 1
    simp only [List.length_cons]
    omega
  have hd := Int.emod_add_mul_ediv
    ((valeur ((l :: m :: ls).map Limb.rn) : Int) - valeur ((l :: m :: ls).map Limb.operande2))
    (2 ^ (32 * (l :: m :: ls).length))
  rw [← hvalue, hpow, mul_assoc] at hd
  generalize (2 : Int) ^ (32 * ls.length) * _ = k at hd
  have ha := l.rn.isLt
  have hb := l.operande2.isLt
  have ha' := m.rn.isLt
  have hb' := m.operande2.isLt
  simp only [executerChaine, executerSuite, List.map_cons, valeur_cons, h0, h1] at hd
  by_cases h : l.rn.toNat < l.operande2.toNat
  · simp only [h, decide_true, Bool.toNat_true] at hd
    omega
  · simp only [h, decide_false, Bool.toNat_false] at hd
    omega

theorem multi_word_subtraction_never (p : ArmCore) (l : Limb) (ls : List Limb)
    (hm : p.mode ∈ armModes) (hl : ∀ x ∈ l :: ls, x.Flagged) :
    ¬ MultiWordSubtraction p l ls := by
  cases ls with
  | nil => exact single_limb_carry_wrong p l hm (hl l List.mem_cons_self)
  | cons m ls => exact second_limb_wrong p l m ls hm hl

theorem one_minus_zero_clears_carry :
    Limb.Flagged ⟨0xE0510002, 1, 0⟩ ∧
      ¬ MultiWordSubtraction (afterReset []) ⟨0xE0510002, 1, 0⟩ [] := by
  refine ⟨⟨by decide, by decide⟩, ?_⟩
  rintro ⟨_, hcarry⟩
  exact absurd (hcarry.mpr (by decide)) (by decide)

theorem two_limbs_never :
    ¬ MultiWordSubtraction (afterReset []) ⟨0xE0510002, 5, 3⟩ [⟨0xE0D13004, 7, 2⟩] :=
  multi_word_subtraction_never (afterReset []) ⟨0xE0510002, 5, 3⟩ [⟨0xE0D13004, 7, 2⟩]
    (by decide) (by simpa using ⟨⟨by decide, by decide⟩, ⟨by decide, by decide⟩⟩)

end Armator
