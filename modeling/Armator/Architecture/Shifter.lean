import Armator.Architecture.Condition

namespace Armator

open BitFields (bit bit_eq_decide)

inductive Shift where
  | lsl
  | lsr
  | asr
  | ror
deriving DecidableEq, Repr

namespace Shift

def code : Shift → Nat
  | .lsl => LSL
  | .lsr => LSR
  | .asr => ASR
  | .ror => ROR

def apply (s : Shift) (r : Word) (n : Nat) : Word :=
  match s with
  | .lsl => r <<< n
  | .lsr => r >>> n
  | .asr => r.sshiftRight n
  | .ror => r.rotateRight n

def ofBits (x : Word) : Shift :=
  match x.toNat with
  | 0 => .lsl
  | 1 => .lsr
  | 2 => .asr
  | _ => .ror

theorem code_ofBits (x : Word) (h : x.toNat < 4) : (ofBits x).code = x.toNat := by
  unfold ofBits
  generalize x.toNat = n at h
  interval_cases n <;> rfl

end Shift

def rmNum (ins : Word) : RegNum := regNum (getBits ins 3 0)

def shiftKind (ins : Word) : Shift := Shift.ofBits (getBits ins 6 5)

def shiftAmount (ins : Word) : Nat := (getBits ins 11 7).toNat

def rotatedImmediate (ins : Word) : Word :=
  (getBits ins 7 0).rotateRight (2 * (getBits ins 11 8).toNat)

theorem shiftAmount_lt (ins : Word) : shiftAmount ins < 32 := by
  rw [shiftAmount, getBits_toNat]
  exact Nat.mod_lt _ (by decide)

theorem shiftKind_code (ins : Word) : (shiftKind ins).code = (getBits ins 6 5).toNat := by
  apply Shift.code_ofBits
  rw [getBits_toNat]
  exact Nat.mod_lt _ (by decide)

theorem determinerDecalage_code (ins : Word) :
    determinerDecalage (getBit ins 6) (getBit ins 5) = (shiftKind ins).code := by
  have h5 := bit_eq_decide ins 5
  have h6 := bit_eq_decide ins 6
  rw [shiftKind_code, getBits_toNat, determinerDecalage]
  simp only [BitVec.ofNat_eq_ofNat, getBit_eq_zero, getBit_eq_one, h5, h6, decide_eq_true_eq,
    decide_eq_false_iff_not, LSL, LSR, ASR, ROR]
  split_ifs <;> omega

theorem asr_mask (r : Word) (n : Nat) (h1 : 1 ≤ n) (hn : n < 32) (hb : bit r 31 = true) :
    r >>> n ||| ~~~(0 : Word) <<< (32 - n) = r.sshiftRight n := by
  have hmsb : r.msb = true := hb
  have hones : ~~~(0 : Word) = BitVec.allOnes 32 := by decide
  rw [hones]
  apply BitVec.eq_of_getLsbD_eq
  intro i hi
  rw [BitVec.getLsbD_or, BitVec.getLsbD_ushiftRight, BitVec.getLsbD_shiftLeft,
    BitVec.getLsbD_sshiftRight, BitVec.getLsbD_allOnes, hmsb]
  by_cases hlt : n + i < 32
  · have h32 : i < 32 - n := by omega
    simp [hlt, hi, h32]
  · have h32 : ¬ i < 32 - n := by omega
    have hx : i - (32 - n) < 32 := by omega
    have hout : r.getLsbD (n + i) = false := BitVec.getLsbD_of_ge _ _ (by omega)
    simp [hlt, hi, h32, hx, hout]

theorem asr_plain (r : Word) (n : Nat) (hb : bit r 31 = false) : r >>> n = r.sshiftRight n := by
  have hmsb : r.msb = false := hb
  exact (BitVec.sshiftRight_eq_of_msb_false hmsb).symm

-- Outside this range the code shifts by 32, and only LSL by 0 is still right.
theorem effectuerDecalage_shift (h : Host) (s : Shift) (n : Nat) (r : Word) (hn : n < 32)
    (h1 : s = .lsl ∨ 1 ≤ n) : effectuerDecalage h s.code n r = s.apply r n := by
  have hshl : h.shl r n = r <<< n := if_pos hn
  have hshr : h.shr r n = r >>> n := if_pos hn
  have hcomp (hp : 1 ≤ n) (x : Word) : h.shl x (32 - n) = x <<< (32 - n) := if_pos (by omega)
  cases s with
  | lsl => exact hshl
  | lsr => exact hshr
  | asr =>
      have hp : 1 ≤ n := h1.resolve_left (by decide)
      change (if (getBit r 31).setWidth 8 = 1#8 then _ else _) = r.sshiftRight n
      simp only [getBit_flag_eq_one, hshr, hcomp hp]
      cases hb : bit r 31 with
      | true => exact asr_mask r n hp hn hb
      | false => exact asr_plain r n hb
  | ror =>
      have hp : 1 ≤ n := h1.resolve_left (by decide)
      change h.shr r n ||| h.shl r (32 - n) = r.rotateRight n
      rw [hshr, hcomp hp, BitVec.rotateRight_def, Nat.mod_eq_of_lt hn]

theorem effectuerDecalage_zero (h : Host) (s : Shift) (r : Word) :
    effectuerDecalage h s.code 0 r =
      match s with
      | .lsl | .lsr => r
      | .asr => if bit r 31 then r ||| h.shlOut (BitVec.allOnes 32) 32 else r
      | .ror => r ||| h.shlOut r 32 := by
  have hshl : h.shl r 0 = r := BitVec.shiftLeft_zero r
  have hshr : h.shr r 0 = r := BitVec.ushiftRight_zero r
  cases s with
  | lsl => exact hshl
  | lsr => exact hshr
  | asr =>
      change (if (getBit r 31).setWidth 8 = 1#8 then
        h.shr r 0 ||| h.shl (BitVec.allOnes 32) 32 else h.shr r 0) = _
      simp only [getBit_flag_eq_one, hshr]
      rfl
  | ror =>
      change h.shr r 0 ||| h.shl r 32 = _
      rw [hshr]
      rfl

end Armator
