import Armator.Architecture.GeneralRegisters
import Armator.Architecture.PacketText

namespace Armator

def writtenNumber (ns : Texte) : Nat := (strtoul false (Hex.eval ns)).toNat

def readNumber (ns : Texte) : Nat := min (decimal ns) (2 ^ 63 - 1) % 256

namespace Gdb

def sendWrite (c : Call) (g : Gdb) (ns vs suite : Texte) : Except Fault Gdb :=
  g.request c (octet 'P' :: (ns ++ octet '=' :: vs)) suite

def sendRead (c : Call) (g : Gdb) (ns suite : Texte) : Except Fault Gdb :=
  g.request c (octet 'p' :: ns) suite

-- Both requests name the register `n` and none of them ends the simulator.
structure RegisterAgrees (g : Gdb) (c c' : Call) (ns vs suite suite' : Texte) : Prop where
  write : g.sendWrite c ns vs suite ≠ .error .assertion
  read : g.sendRead c' ns suite' ≠ .error .assertion
  agree : Hex.eval ns < 16 → ∃ g₁ g₂, g.sendWrite c ns vs suite = .ok g₁ ∧
    g₁.sendRead c' ns suite' = .ok g₂ ∧
    g₂.sortie = g₁.sortie ++ texte "+" ++ frame (hex8 (fieldValue vs))

section Requests

variable (c : Call) (g : Gdb) {ns vs : Texte} (hn : Numeral ns) (suite : Texte)

include hn

theorem sendRead_eq :
    g.sendRead c ns suite =
      if readNumber ns < 16 then
        .ok (g.gdbSendAck.answered (hex8 (generalRegister g.arm (readNumber ns))))
      else .error .assertion := by
  have hnum (s : Texte) : ((atoi (ns ++ 0 :: s)).setWidth 8).toNat = readNumber ns := by
    rw [atoi_numeral hn, readNumber, BitVec.toNat_setWidth, BitVec.toNat_ofNat]
    exact Nat.mod_mod_of_dvd _ (by decide)
  rw [sendRead, request_handler (f := readSingleRegister) rfl, readSingleRegister_eq, hnum]
  rfl

theorem sendWrite_eq (hv : Numeral vs) (hlen : vs.length ≤ 8) :
    g.sendWrite c ns vs suite =
      if writtenNumber ns < 16 then
        .ok ((g.gdbSendAck.withRegisters (registersWrite g.arm.reg (Fin.ofNat 18 (writtenNumber ns))
          (registersGetMode g.arm.reg) (fieldValue vs))).answered (texte "OK"))
      else .error .assertion := by
  rw [writtenNumber]
  have hends (s : Texte) : Ends (octet '=' :: s) := ends_cons s (by decide)
  have hzero (s : Texte) : Ends (0 :: s) := ends_cons s (by decide)
  rw [sendWrite, request_handler (f := writeSingleRegister) rfl, List.append_assoc,
    List.cons_append, writeSingleRegister, sscanfX_numeral hn (hends _),
    index_append _ _ _ (hn.ne (by decide))]
  dsimp only
  rw [List.drop_succ_cons, List.drop_zero, writeRegister_eq,
    readUint32_numeral hv hlen (Or.inr (hzero _))]
  by_cases hw : (strtoul false (Hex.eval ns)).toNat < 16
  · rw [if_pos hw, if_pos hw, Fallible.ok_bind]
    exact gdbSendOk_eq _
  · rw [if_neg hw, if_neg hw]
    rfl

end Requests

theorem generalRegister_write (g : Gdb) (hm : registersGetMode g.arm.reg ∈ armModes) (n q : Nat)
    (hn : n < 16) (hq : q < 16) (v : Word) :
    generalRegister (g.withRegisters (registersWrite g.arm.reg (Fin.ofNat 18 n)
      (registersGetMode g.arm.reg) v)).arm q = if q = n then v else generalRegister g.arm q := by
  have hmode := registersGetMode_write g.arm.reg (Fin.ofNat 18 n) (registersGetMode g.arm.reg) v
    (ofNat_ne (j := 16) (by omega) (by decide) (by omega))
  rw [generalRegister, withRegisters]
  dsimp only
  rw [hmode]
  by_cases h : q = n
  · rw [if_pos h, h]
    exact registersRead_write_same _ _ _ _
      (bank_isSome _ _ hm (ofNat_ne (j := 17) (by omega) (by decide) (by omega)))
  · rw [if_neg h]
    exact registersRead_write_other _ _ _ _ _ (ofNat_ne (by omega) (by omega) (Ne.symm h))

theorem replies_iff (g : Gdb) (hm : registersGetMode g.arm.reg ∈ armModes) (c c' : Call)
    (ns vs suite suite' : Texte) (hn : Numeral ns) (hv : Numeral vs) (hlen : vs.length ≤ 8)
    (hw : writtenNumber ns < 16) (hr : readNumber ns < 16) :
    (∃ g₁ g₂, g.sendWrite c ns vs suite = .ok g₁ ∧ g₁.sendRead c' ns suite' = .ok g₂ ∧
        g₂.sortie = g₁.sortie ++ texte "+" ++ frame (hex8 (fieldValue vs))) ↔
      readNumber ns = writtenNumber ns ∨
        generalRegister g.arm (readNumber ns) = fieldValue vs := by
  have hwrite := sendWrite_eq c g hn suite hv hlen
  rw [if_pos hw] at hwrite
  have hafter := generalRegister_write g hm _ _ hw hr (fieldValue vs)
  have hcases : generalRegister (g.withRegisters (registersWrite g.arm.reg
        (Fin.ofNat 18 (writtenNumber ns)) (registersGetMode g.arm.reg) (fieldValue vs))).arm
          (readNumber ns) = fieldValue vs ↔
      readNumber ns = writtenNumber ns ∨ generalRegister g.arm (readNumber ns) = fieldValue vs := by
    rw [hafter]
    by_cases he : readNumber ns = writtenNumber ns
    · rw [if_pos he]
      exact iff_of_true rfl (Or.inl he)
    · rw [if_neg he, or_iff_right he]
  rw [← hcases]
  constructor
  · rintro ⟨g₁, g₂, h₁, h₂, hreply⟩
    cases hwrite.symm.trans h₁
    rw [sendRead_eq c' _ hn, if_pos hr] at h₂
    cases h₂
    replace hreply := (answered_sortie_iff _ _ _).mp hreply
    exact hex8_inj (frame_inj ((length_hex8 _).trans (length_hex8 _).symm) hreply)
  · intro hval
    have hread := sendRead_eq c' ((g.gdbSendAck.withRegisters (registersWrite g.arm.reg
      (Fin.ofNat 18 (writtenNumber ns)) (registersGetMode g.arm.reg) (fieldValue vs))).answered
        (texte "OK")) hn suite'
    rw [if_pos hr] at hread
    refine ⟨_, _, hwrite, hread, (answered_sortie_iff _ _ _).mpr ?_⟩
    exact congrArg (fun x => frame (hex8 x)) hval

theorem registerAgrees_iff (g : Gdb) (hm : registersGetMode g.arm.reg ∈ armModes) (c c' : Call)
    (ns vs suite suite' : Texte) (hn : Numeral ns) (hv : Numeral vs) (hlen : vs.length ≤ 8) :
    g.RegisterAgrees c c' ns vs suite suite' ↔
      writtenNumber ns < 16 ∧ readNumber ns < 16 ∧
        (Hex.eval ns < 16 → readNumber ns = Hex.eval ns ∨
          generalRegister g.arm (readNumber ns) = fieldValue vs) := by
  have hsame (h : Hex.eval ns < 16) : writtenNumber ns = Hex.eval ns := by
    rw [writtenNumber, strtoul_of_lt _ (by omega), BitVec.toNat_ofNat]
    omega
  have hwrite := sendWrite_eq c g hn suite hv hlen
  have hread := sendRead_eq c' g hn suite'
  constructor
  · intro h
    have hw : writtenNumber ns < 16 := by
      by_contra hge
      rw [if_neg hge] at hwrite
      exact h.write hwrite
    have hr : readNumber ns < 16 := by
      by_contra hge
      rw [if_neg hge] at hread
      exact h.read hread
    refine ⟨hw, hr, fun hlt => ?_⟩
    rw [← hsame hlt]
    exact (replies_iff g hm c c' ns vs suite suite' hn hv hlen hw hr).mp (h.agree hlt)
  · rintro ⟨hw, hr, hagree⟩
    rw [if_pos hw] at hwrite
    rw [if_pos hr] at hread
    refine ⟨fun h => ?_, fun h => ?_, fun hlt => ?_⟩
    · cases hwrite.symm.trans h
    · cases hread.symm.trans h
    · refine (replies_iff g hm c c' ns vs suite suite' hn hv hlen hw hr).mpr ?_
      rw [hsame hlt]
      exact hagree hlt

-- One digit, as the protocol writes the sixteen general registers.
theorem digit_numbers (n : Nat) (hn : n < 16) :
    writtenNumber [Hex.digit n] = n ∧ readNumber [Hex.digit n] = if n < 10 then n else 0 := by
  have hall : ∀ n : Fin 16, writtenNumber [Hex.digit n] = n.val ∧
      readNumber [Hex.digit n] = if n.val < 10 then n.val else 0 := by decide
  exact hall ⟨n, hn⟩

theorem registerAgrees_three :
    afterResetGdb.RegisterAgrees Call.blank Call.blank (texte "3") (texte "00000001") [] [] :=
  (registerAgrees_iff afterResetGdb (by decide) Call.blank Call.blank (texte "3")
    (texte "00000001") [] [] (by decide) (by decide) (by decide)).mpr (by decide)

-- R10 is answered with R0, and the number of the CPSR ends the simulator.
theorem registerAgrees_fails :
    ¬ afterResetGdb.RegisterAgrees Call.blank Call.blank (texte "a") (texte "00000001") [] [] ∧
      ¬ afterResetGdb.RegisterAgrees Call.blank Call.blank (texte "19") (texte "00000001") [] [] := by
  constructor
  · intro h
    have hor := (replies_iff afterResetGdb (by decide) Call.blank Call.blank (texte "a")
      (texte "00000001") [] [] (by decide) (by decide) (by decide) (by decide)
      (by decide)).mp (h.agree (by decide))
    exact absurd hor (by decide)
  · intro h
    have hnumber : Numeral (texte "19") := by decide
    have hvalue : Numeral (texte "00000001") := by decide
    have hwrite := sendWrite_eq Call.blank afterResetGdb hnumber [] hvalue (by decide)
    exact h.write (hwrite.trans (if_neg (by decide)))

end Gdb

end Armator
