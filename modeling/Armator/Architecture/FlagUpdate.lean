import Armator.Architecture.Condition

namespace Armator

open BitFields

def putFlags (x : Word) (f : Flags) : Word :=
  putBit (putBit (putBit (putBit x bitZ f.z) bitN f.n) bitC f.c) bitV f.v

theorem bit_putFlags (x : Word) (f : Flags) (i : Nat) :
    bit (putFlags x f) i =
      if i = bitV then f.v else if i = bitC then f.c else if i = bitN then f.n
      else if i = bitZ then f.z else bit x i := by
  rw [putFlags, bit_putBit _ _ _ _ (by decide), bit_putBit _ _ _ _ (by decide),
    bit_putBit _ _ _ _ (by decide), bit_putBit _ _ _ _ (by decide)]

@[simp] theorem flagsOf_putFlags (x : Word) (f : Flags) : flagsOf (putFlags x f) = f := by
  cases f
  simp [flagsOf, bit_putFlags, bitN, bitZ, bitC, bitV]

theorem bit_putFlags_low (x : Word) (f : Flags) (i : Nat) (hi : i < 28) :
    bit (putFlags x f) i = bit x i := by
  have h1 : i ≠ bitV := by unfold bitV; omega
  have h2 : i ≠ bitC := by unfold bitC; omega
  have h3 : i ≠ bitN := by unfold bitN; omega
  have h4 : i ≠ bitZ := by unfold bitZ; omega
  rw [bit_putFlags, if_neg h1, if_neg h2, if_neg h3, if_neg h4]

theorem putFlags_eq_self_iff (x : Word) (f : Flags) : putFlags x f = x ↔ flagsOf x = f := by
  constructor
  · intro h
    rw [← flagsOf_putFlags x f, h]
  · rintro rfl
    apply bit_ext
    intro i _
    rw [bit_putFlags]
    simp only [flagsOf]
    split
    · subst i; rfl
    · split
      · subst i; rfl
      · split
        · subst i; rfl
        · split
          · subst i; rfl
          · rfl

theorem registersGetMode_congr (r s : Registers)
    (h : ∀ i < 5, bit (r.registre CPSR) i = bit (s.registre CPSR) i) :
    registersGetMode r = registersGetMode s := by
  have hm : (0x1f : Byte) = ~~~((BitVec.allOnes 8 >>> 5) <<< 5) := by decide
  rw [registersGetMode, registersGetMode, hm, low_mask_eq, low_mask_eq]
  congr 1
  apply setWidth_congr
  intro i hi
  rw [bit_setWidth _ _ _ (by omega), bit_setWidth _ _ _ (by omega), h i hi]

theorem armWriteCpsr_mode (p : ArmCore) (value : Word)
    (h : ∀ i < 5, bit value i = bit p.cpsr i) : (armWriteCpsr p value).mode = p.mode := by
  apply registersGetMode_congr
  intro i hi
  change bit (armWriteCpsr p value).cpsr i = bit p.cpsr i
  rw [armWriteCpsr_cpsr, h i hi]

def tempFlags (temp : BitVec 64) : Flags where
  n := bit temp 31
  z := temp = 0
  c := bit temp 32
  v := temp ≠ (temp.setWidth 32 : Word).setWidth 64

theorem set_flag (q : ArmCore) (k : Nat) (b : Prop) [Decidable b] :
    (if b then armWriteCpsr q (armReadCpsr q ||| ~~~masqueFlag k)
      else armWriteCpsr q (armReadCpsr q &&& masqueFlag k)) =
    armWriteCpsr q (putBit q.cpsr k b) := by
  simp only [masqueFlag, BitVec.not_not, armReadCpsr_eq]
  by_cases hb : b <;> simp only [hb, if_true, if_false, decide_true, decide_false] <;> rfl

theorem clear_flag (q : ArmCore) (k : Nat) (b : Prop) [Decidable b] :
    (if b then armWriteCpsr q (armReadCpsr q &&& masqueFlag k)
      else armWriteCpsr q (armReadCpsr q ||| ~~~masqueFlag k)) =
    armWriteCpsr q (putBit q.cpsr k (¬ b)) := by
  rw [← set_flag q k (¬ b)]
  by_cases hb : b <;> simp only [hb, if_true, if_false, not_true, not_false_eq_true]

theorem updateFlags_flags (temp : BitVec 64) (p : ArmCore) (rd_num : RegNum) (h : rd_num ≠ 15) :
    updateFlags temp p 1 rd_num = (0, armWriteCpsr p (putFlags p.cpsr (tempFlags temp))) := by
  rw [updateFlags, if_neg (fun hh => h hh.2), if_pos rfl]
  dsimp only
  rw [set_flag, set_flag, set_flag, clear_flag]
  simp [putFlags, tempFlags, armWriteCpsr_write]

theorem updateFlags_spsr (temp : BitVec 64) (p : ArmCore) :
    updateFlags temp p 1 15 =
      if armCurrentModeHasSpsr p then (0, armWriteCpsr p (armReadSpsr p))
      else (UNDEFINED_INSTRUCTION, p) := by
  simp [updateFlags]

theorem updateFlags_none (temp : BitVec 64) (p : ArmCore) (bit_S : Word) (rd_num : RegNum)
    (h : bit_S ≠ 1) : updateFlags temp p bit_S rd_num = (0, p) := by
  rw [updateFlags, if_neg (fun hh => h hh.1), if_neg h]

end Armator
