import Armator.Architecture.GeneralRegisters
import Armator.Architecture.PacketText

namespace Armator

def modeField (x : Word) : Byte := x.setWidth 8 &&& 0x1f

theorem length_registersImage (v : Nat → Word) (x : Word) : (registersImage v x).length = 336 := by
  have hl : inconnu.length = 8 := rfl
  rw [registersImage, List.length_append, List.length_append, List.length_append, hl, length_hex8,
    length_inconnuText, length_fieldsText fun _ _ _ => length_hex8 _]

theorem writtenRegisters_mode (r : Registers) (cpsr : Word) :
    registersGetMode (registersWriteCpsr r cpsr) = modeField cpsr := by
  rw [registersGetMode, registersWriteCpsr, Registers.set_registre, if_pos rfl, modeField]

namespace Gdb

theorem request_read (c : Call) (g : Gdb) (data suite : Texte) :
    g.request c (octet 'g' :: data) suite = .ok (g.gdbSendAck.answered (registersText g.arm)) := by
  rw [request_handler (f := readGeneralRegisters) rfl]
  exact readGeneralRegisters_eq c g.gdbSendAck _

theorem request_write (c : Call) (g : Gdb) (f : Nat → Texte) (hf : ∀ i < 16, Field (f i))
    (pad : Texte) (hpad : pad.length = 200) {k : Texte} (hk : Field k) (suite : Texte) :
    g.request c (octet 'G' :: (fieldsText f 0 16 ++ (pad ++ k))) suite =
      .ok ((g.gdbSendAck.withRegisters (registersWriteCpsr
        (writtenRegisters g.arm.reg fun i => fieldValue (f i)) (fieldValue k))).answered
          (texte "OK")) := by
  rw [request_handler (f := writeGeneralRegisters) rfl, List.append_assoc, List.append_assoc]
  exact writeGeneralRegisters_eq c g.gdbSendAck f hf pad hpad hk _

-- Each register that the new mode has to itself held the value before.
def Carried (r : Registers) (v : Nat → Word) (cpsr : Word) : Prop :=
  ∀ i < 16,
    archReg (Fin.ofNat 18 i) (registersGetMode r) = archReg (Fin.ofNat 18 i) (modeField cpsr) ∨
      registersRead r (Fin.ofNat 18 i) (modeField cpsr) = v i

theorem written_image_iff (p : ArmCore) (v : Nat → Word) (cpsr : Word)
    (hm : registersGetMode p.reg ∈ armModes) (hm' : modeField cpsr ∈ armModes) :
    registersText { p with reg := registersWriteCpsr (writtenRegisters p.reg v) cpsr } =
      registersImage v cpsr ↔ Carried p.reg v cpsr := by
  have hcpsr : registersReadCpsr (registersWriteCpsr (writtenRegisters p.reg v) cpsr) = cpsr := by
    rw [registersReadCpsr, registersWriteCpsr, Registers.set_registre, if_pos rfl]
  rw [registersText_eq, registersImage_eq_iff, and_iff_left hcpsr, Carried]
  refine forall₂_congr fun i hi => ?_
  rw [generalRegister]
  dsimp only
  rw [writtenRegisters_mode, writtenRegisters_read _ _ _ i hi hm _ hm']
  by_cases hsame : archReg (Fin.ofNat 18 i) (registersGetMode p.reg) =
      archReg (Fin.ofNat 18 i) (modeField cpsr)
  · rw [if_pos hsame]
    exact iff_of_true rfl (Or.inl hsame)
  · rw [if_neg hsame, or_iff_right hsame]

theorem write_then_read (g : Gdb) (hm : registersGetMode g.arm.reg ∈ armModes) (f : Nat → Texte)
    (hf : ∀ i < 16, Field (f i)) (pad : Texte) (hpad : pad.length = 200) (k : Texte)
    (hk : Field k) (hm' : modeField (fieldValue k) ∈ armModes) (c c' : Call)
    (data suite suite' : Texte) :
    ∃ g₁ g₂, g.request c (octet 'G' :: (fieldsText f 0 16 ++ (pad ++ k))) suite = .ok g₁ ∧
      g₁.request c' (octet 'g' :: data) suite' = .ok g₂ ∧
      (g₂.sortie = g₁.sortie ++ texte "+" ++
          frame (registersImage (fun i => fieldValue (f i)) (fieldValue k)) ↔
        Carried g.arm.reg (fun i => fieldValue (f i)) (fieldValue k)) := by
  refine ⟨_, _, request_write c g f hf pad hpad hk suite, request_read _ _ _ _, ?_⟩
  refine (answered_sortie_iff _ _ _).trans ?_
  rw [← written_image_iff g.arm _ _ hm hm']
  constructor
  · intro h
    exact frame_inj ((length_registersText _).trans (length_registersImage _ _).symm) h
  · exact congrArg frame

-- Sixteen ones and the CPSR; the machine is in SVC.
def onesText (cpsr : Word) : Texte :=
  octet 'G' :: (fieldsText (fun _ => hex8 1) 0 16 ++ (List.replicate 200 (octet 'x') ++ hex8 cpsr))

theorem write_then_read_svc : ∃ g₁ g₂,
    afterResetGdb.request Call.blank (onesText 0x13) [] = .ok g₁ ∧
      g₁.request Call.blank [octet 'g'] [] = .ok g₂ ∧
      (g₂.sortie = g₁.sortie ++ texte "+" ++
          frame (registersImage (fun _ => fieldValue (hex8 1)) (fieldValue (hex8 0x13))) ↔
        Carried afterResetGdb.arm.reg (fun _ => fieldValue (hex8 1)) (fieldValue (hex8 0x13))) :=
  write_then_read afterResetGdb (by decide) (fun _ => hex8 1) (fun _ _ => field_hex8 1)
    (List.replicate 200 (octet 'x')) List.length_replicate (hex8 0x13) (field_hex8 0x13)
    (by rw [fieldValue_hex8]; decide) Call.blank Call.blank [] [] []

-- R13 goes to the bank of SVC and is read back from that of USR.
theorem write_then_read_usr : ∃ g₁ g₂,
    afterResetGdb.request Call.blank (onesText 0x10) [] = .ok g₁ ∧
      g₁.request Call.blank [octet 'g'] [] = .ok g₂ ∧
      g₂.sortie ≠ g₁.sortie ++ texte "+" ++ frame (registersImage (fun _ => 1) 0x10) := by
  have hwrite := request_write Call.blank afterResetGdb (fun _ => hex8 1) (fun _ _ => field_hex8 1)
    (List.replicate 200 (octet 'x')) List.length_replicate (field_hex8 0x10) []
  simp only [fieldValue_hex8] at hwrite
  refine ⟨_, _, hwrite, request_read _ _ _ _, fun h => ?_⟩
  replace h := (answered_sortie_iff _ _ _).mp h
  have htext := frame_inj ((length_registersText _).trans (length_registersImage _ _).symm) h
  have hcarried := (written_image_iff afterResetGdb.arm _ _ (by decide) (by decide)).mp htext
  exact absurd (hcarried 13 (by decide)) (by decide)

theorem read_then_write (g : Gdb) (c c' : Call) (data suite suite' : Texte) :
    ∃ text g₁ g₂, g.request c (octet 'g' :: data) suite = .ok g₁ ∧
      g₁.sortie = g.sortie ++ texte "+" ++ frame text ∧
      g₁.request c' (octet 'G' :: text) suite' = .ok g₂ ∧ g₂.arm = g.arm ∧
      g₂.sortie = g₁.sortie ++ texte "+" ++ frame (texte "OK") := by
  have hpad : (inconnuText 24 ++ inconnu).length = 200 := by
    have hl : inconnu.length = 8 := rfl
    rw [List.length_append, length_inconnuText, hl]
  have htext : registersText g.arm = fieldsText (fun i => hex8 (generalRegister g.arm i)) 0 16 ++
      ((inconnuText 24 ++ inconnu) ++ hex8 (registersReadCpsr g.arm.reg)) := by
    rw [registersText, generalText_eq, List.append_assoc]
  have hfields : ∀ i < 16, Field (hex8 (generalRegister g.arm i)) := fun i _ => field_hex8 _
  have hwrite := request_write c' (g.gdbSendAck.answered (registersText g.arm)) _ hfields _ hpad
    (field_hex8 (registersReadCpsr g.arm.reg)) suite'
  rw [← htext] at hwrite
  refine ⟨registersText g.arm, _, _, request_read c g data suite, rfl, hwrite, ?_, rfl⟩
  have hgeneral : writtenRegisters g.arm.reg (fun i => fieldValue (hex8 (generalRegister g.arm i))) =
      g.arm.reg := writtenRegisters_eq_self _ _ fun i _ => fieldValue_hex8 _
  have hreg : registersWriteCpsr (writtenRegisters g.arm.reg fun i =>
      fieldValue (hex8 (generalRegister g.arm i))) (fieldValue (hex8 (registersReadCpsr g.arm.reg))) =
      g.arm.reg := by
    rw [hgeneral, fieldValue_hex8]
    exact Registers.ext (Function.update_eq_self CPSR g.arm.reg.registre)
  exact congrArg (fun r => { g.arm with reg := r }) hreg

end Gdb

end Armator
