import Armator.Architecture.Debugger
import Armator.Architecture.HandlerAnswers
import Armator.Properties.BinaryDownload
import Armator.Properties.RegisterDump
import Armator.Properties.SingleRegister

namespace Armator

def pointText (da dl : Texte) : Texte := texte "0" ++ octet ',' :: (da ++ octet ',' :: dl)

-- The payloads that ask for a command. Register numbers are decimal for `p`, hexadecimal for `P`.
inductive Spells : Texte → Command → Prop
  | why (d : Texte) : Spells (octet '?' :: d) .why
  | readRegisters (d : Texte) : Spells (octet 'g' :: d) .readRegisters
  | writeRegisters (f : Nat → Texte) (hf : ∀ i < 16, Field (f i)) (pad : Texte)
      (hpad : pad.length = 200) (k : Texte) (hk : Field k) :
      Spells (octet 'G' :: (fieldsText f 0 16 ++ (pad ++ k)))
        (.writeRegisters (fun i => fieldValue (f i)) (fieldValue k))
  | readRegister (ns : Texte) (hn : Numeral ns) (hlt : readNumber ns < 16) :
      Spells (octet 'p' :: ns) (.readRegister (readNumber ns))
  | writeRegister (ns vs : Texte) (hn : Numeral ns) (hlt : writtenNumber ns < 16)
      (hv : Numeral vs) (hlen : vs.length ≤ 8) :
      Spells (octet 'P' :: (ns ++ octet '=' :: vs)) (.writeRegister (writtenNumber ns) (fieldValue vs))
  | readMemory (da dn : Texte) (address size : Word) (hda : Writes da address.toNat)
      (hdn : Writes dn size.toNat) (hfit : 2 * size.toNat + 4 < MAX_PACKET_SIZE) :
      Spells (octet 'm' :: (da ++ octet ',' :: dn)) (.readMemory address size)
  | download (da dn s : Texte) (address : Word) (bs : List Byte) (hda : Writes da address.toNat)
      (hdn : Writes dn bs.length) (hlen : bs.length < 2 ^ 32) (hs : Escaped s bs) :
      Spells (octet 'X' :: Gdb.downloadText da dn s) (.download address bs)
  | insert (da dl : Texte) (address : Word) (hda : Writes da address.toNat) (hdl : Numeral dl) :
      Spells (octet 'Z' :: pointText da dl) (.insert address)
  | remove (da dl : Texte) (address : Word) (hda : Writes da address.toNat) (hdl : Numeral dl) :
      Spells (octet 'z' :: pointText da dl) (.remove address)
  | step (c : Byte) (d : Texte) (hc : c = octet 's' ∨ c = octet 'S') : Spells (c :: d) .step
  | resume (c : Byte) (d : Texte) (hc : c = octet 'c' ∨ c = octet 'C') : Spells (c :: d) .resume
  | select (kind : Byte) (d : Texte) (hd : d = texte "0" ∨ d = texte "-1") :
      Spells (octet 'H' :: kind :: d) (.select kind)
  | query (d : Texte) : Spells (octet 'q' :: d) (.query d)
  | unsupported (c : Byte) (d : Texte) (hc : Gdb.handler c = none) : Spells (c :: d) .unsupported

structure Debugs (g : Gdb) (t : Target) : Prop where
  machine : g.machine = t.machine
  table : g.Represents t.breakpoints

-- What the server makes of a command: the reply and the target after it, or no end.
inductive Serves (g : Gdb) (r : Except Fault Gdb) : Option (Texte × Target) → Prop
  | replied {s : Texte} {t : Target} {g' : Gdb} (hr : r = .ok g') (hd : Debugs g' t)
      (hs : g'.sortie = g.sortie ++ (texte "+" ++ frame s)) : Serves g r (some (s, t))
  | endless (hr : r = .error .sansFin) : Serves g r none

theorem Debugs.gdbSendAck {g : Gdb} {t : Target} (h : Debugs g t) : Debugs g.gdbSendAck t :=
  ⟨h.machine, ⟨⟨h.table.tabled.number_le, h.table.tabled.increasing⟩, h.table.number, h.table.mem⟩⟩

theorem Debugs.arm {g : Gdb} {t : Target} (h : Debugs g t) : g.arm = t.arm :=
  congrArg Prod.snd h.machine

theorem Debugs.code {g : Gdb} {t : Target} (h : Debugs g t) : g.target_exception = t.code :=
  congrArg Prod.fst h.machine

theorem Debugs.withMachine {g : Gdb} {t : Target} (h : Debugs g t) (x : Int × ArmCore) :
    Debugs (g.withMachine x) (t.withMachine x) :=
  ⟨rfl, ⟨h.table.tabled.withMachine x, h.table.number, h.table.mem⟩⟩

theorem Debugs.withArm {g : Gdb} {t : Target} (h : Debugs g t) (arm : ArmCore) :
    Debugs { g with arm := arm } { t with arm := arm } := by
  refine ⟨Prod.ext h.code rfl, ⟨?_, h.table.number, h.table.mem⟩⟩
  exact ⟨h.table.tabled.number_le, h.table.tabled.increasing⟩

theorem Serves.of_answered {g u : Gdb} {t : Target} {s : Texte} {r : Except Fault Gdb}
    (hr : r = .ok (u.answered s)) (hd : Debugs u t) (hs : u.sortie = g.gdbSendAck.sortie) :
    Serves g r (some (s, t)) := by
  refine .replied hr ⟨hd.machine, hd.table.answered s⟩ ?_
  rw [Gdb.answered, hs, ← List.append_assoc]
  rfl

theorem length_memoryReply (mem : Memory) (address size : Word)
    (hfit : 2 * size.toNat + 4 < MAX_PACKET_SIZE) :
    (memoryReply mem address size).length + 4 < MAX_PACKET_SIZE := by
  rw [memoryReply]
  split
  · have hlen := length_memoryText mem address size.toNat
    have hle := reach_le mem.size address size.toNat
    omega
  · decide

theorem chaine_closed (d s : Texte) : chaine (d ++ 0 :: s) = chaine d := by
  induction d with
  | nil => rfl
  | cons c d ih =>
      rw [chaine, chaine, List.cons_append, List.takeWhile_cons, List.takeWhile_cons]
      split
      · exact congrArg (List.cons c) ih
      · rfl

theorem reponse_closed (d s : Texte) : Gdb.reponse (d ++ 0 :: s) = Gdb.reponse d := by
  rw [Gdb.reponse, Gdb.reponse, chaine_closed]

theorem accessible_le (size : Nat) (address : Word) (n : Nat) : accessible size address n ≤ n := by
  rw [← reach_eq_accessible]
  exact reach_le size address n

theorem decoded_take {m n : Nat} (h : m ≤ n) (content : Texte) :
    decoded m content = (decoded n content).take m := by
  induction n generalizing m content with
  | zero =>
      rw [Nat.le_zero.mp h]
      rfl
  | succ n ih =>
      cases m with
      | zero => rfl
      | succ m => rw [decoded, decoded, List.take_succ_cons, ih (Nat.le_of_succ_le_succ h)]

theorem binaryAnswer_beq (m n : Nat) :
    Gdb.binaryAnswer (m == n) = if m = n then texte "OK" else texte "E02" := by
  rw [Gdb.binaryAnswer]
  simp only [beq_iff_eq]

theorem pointText_read {da dl : Texte} {address : Word} (hda : Writes da address.toNat)
    (hdl : Numeral dl) (c : Call) (s : Texte) :
    (sscanfHhxXX (pointText da dl ++ 0 :: s) c.type c.address c.length).1 = 0 ∧
      (sscanfHhxXX (pointText da dl ++ 0 :: s) c.type c.address c.length).2.1 = address := by
  have hzero : Numeral (texte "0") := ⟨by decide, by decide⟩
  have htext : pointText da dl ++ 0 :: s =
      texte "0" ++ octet ',' :: (da ++ octet ',' :: (dl ++ 0 :: s)) := by simp [pointText]
  rw [htext, sscanfHhxXX_numeral hzero,
    sscanfXX_numerals hda.numeral hdl (ends_cons s (by decide)), hda.strtoul address.isLt,
    BitVec.ofNat_toNat, BitVec.setWidth_eq]
  have htype : (strtoul false (Hex.eval (texte "0"))).setWidth 8 = 0 := by decide
  exact ⟨htype, rfl⟩

theorem Debugs.edit {g : Gdb} {t : Target} (h : Debugs g t) (e : Edit) :
    ∃ g', e.call g = .ok ((e.apply t.breakpoints).1, g') ∧
      Debugs g' { t with breakpoints := (e.apply t.breakpoints).2 } ∧ g'.sortie = g.sortie := by
  cases e with
  | add a =>
      obtain ⟨g', he, hr, -⟩ := h.table.add a
      obtain ⟨result, g₁, he₁, hg, -⟩ := Gdb.add_spec g h.table.tabled a
      cases he.symm.trans he₁
      exact ⟨g', he, ⟨by rw [hg]; exact h.machine, hr⟩, by rw [hg]; rfl⟩
  | remove a =>
      obtain ⟨g', he, hr⟩ := h.table.remove a
      obtain ⟨result, g₁, he₁, hg, -⟩ := Gdb.remove_spec g h.table.tabled a
      cases he.symm.trans he₁
      exact ⟨g', he, ⟨by rw [hg]; exact h.machine, hr⟩, by rw [hg]; rfl⟩

theorem Gdb.removeBreakpoint_remove {g g' : Gdb} {result : Int} (c : Call) (data : Texte)
    (h0 : (Request.remove c data).type = 0)
    (hremove : g.gdbRemoveBreakpoint (Request.remove c data).address = .ok (result, g')) :
    g.removeBreakpoint c data =
      .ok (g'.answered (if result = 0 then texte "E05" else texte "OK")) := by
  rw [Request.type] at h0
  rw [Request.address] at hremove
  rw [removeBreakpoint]
  generalize sscanfHhxXX data c.type c.address c.length = t at h0 hremove
  obtain ⟨type, address, length⟩ := t
  dsimp only at h0 hremove ⊢
  rw [if_neg (not_not.mpr h0), hremove, Fallible.ok_bind]
  dsimp only
  by_cases hr : result = 0
  · rw [if_neg (not_not.mpr hr), if_pos hr]
    exact gdbSendData_code g' _ (by decide)
  · rw [if_pos hr, if_neg hr]
    exact gdbSendData_code g' _ (by decide)

theorem Gdb.request_unsupported {b : Byte} (hb : handler b = none) (c : Call) (g : Gdb)
    (d suite : Texte) : g.request c (b :: d) suite = g.gdbSendAck.gdbSendData (texte "") := by
  have hdigits := hex2_digits (b :: d).sum
  have hsum : (b :: d).sum.toNat = Hex.eval (hex2 (b :: d).sum) := by
    rw [hex2, Hex.eval_print]
    exact (Nat.mod_eq_of_lt (BitVec.isLt _)).symm
  rw [request, frame_eq_trame, gdbPacketAnalysis_trame _ _ _ _ _ _ _ hdigits.1 hdigits.2, ← hex2_eq,
    if_pos hsum, dispatch, List.cons_append, List.headD_cons, hb]

section Commands

variable {g : Gdb} {t : Target} (h : Debugs g t) (c : Call) (suite : Texte)

include h

theorem serves_why (d : Texte) :
    Serves g (g.request c (octet '?' :: d) suite) (t.answer c .why) := by
  refine .of_answered ?_ h.gdbSendAck rfl
  rw [Gdb.request_handler (f := Gdb.reason) rfl, Gdb.reason, Gdb.gdbSendStopReason_eq, ← h.code]
  rfl

theorem serves_readRegisters (d : Texte) :
    Serves g (g.request c (octet 'g' :: d) suite) (t.answer c .readRegisters) := by
  refine .of_answered ?_ h.gdbSendAck rfl
  rw [Gdb.request_read, h.arm]

theorem serves_writeRegisters (f : Nat → Texte) (hf : ∀ i < 16, Field (f i)) (pad : Texte)
    (hpad : pad.length = 200) {k : Texte} (hk : Field k) :
    Serves g (g.request c (octet 'G' :: (fieldsText f 0 16 ++ (pad ++ k))) suite)
      (t.answer c (.writeRegisters (fun i => fieldValue (f i)) (fieldValue k))) := by
  refine .of_answered (Gdb.request_write c g f hf pad hpad hk suite) ?_ rfl
  rw [Target.withRegisters, ← h.arm]
  exact h.gdbSendAck.withArm _

theorem serves_readRegister {ns : Texte} (hn : Numeral ns) (hlt : readNumber ns < 16) :
    Serves g (g.request c (octet 'p' :: ns) suite) (t.answer c (.readRegister (readNumber ns))) := by
  refine .of_answered ?_ h.gdbSendAck rfl
  have hread := Gdb.sendRead_eq c g hn suite
  rw [if_pos hlt, h.arm] at hread
  exact hread

theorem serves_writeRegister {ns vs : Texte} (hn : Numeral ns) (hlt : writtenNumber ns < 16)
    (hv : Numeral vs) (hlen : vs.length ≤ 8) :
    Serves g (g.request c (octet 'P' :: (ns ++ octet '=' :: vs)) suite)
      (t.answer c (.writeRegister (writtenNumber ns) (fieldValue vs))) := by
  have hwrite := Gdb.sendWrite_eq c g hn suite hv hlen
  rw [if_pos hlt] at hwrite
  refine .of_answered hwrite ?_ rfl
  rw [Target.withRegisters, ← h.arm]
  exact h.gdbSendAck.withArm _

theorem serves_readMemory {da dn : Texte} {address size : Word} (hda : Writes da address.toNat)
    (hdn : Writes dn size.toNat) (hfit : 2 * size.toNat + 4 < MAX_PACKET_SIZE) :
    Serves g (g.request c (octet 'm' :: (da ++ octet ',' :: dn)) suite)
      (t.answer c (.readMemory address size)) := by
  refine .of_answered ?_ h.gdbSendAck rfl
  have hheader (s : Texte) := Gdb.header_read hda hdn size.isLt
    (ends_cons (c := 0) s (by decide)) c.address c.size
  have hreply := length_memoryReply t.arm.mem address size hfit
  have hmem : g.gdbSendAck.arm.mem = t.arm.mem := congrArg ArmCore.mem h.arm
  rw [Gdb.request_handler (f := Gdb.readMemory) rfl, List.append_assoc, List.cons_append,
    Gdb.readMemory_eq, hheader, BitVec.ofNat_toNat, BitVec.setWidth_eq, hmem]
  exact if_pos hreply

theorem serves_download {da dn s : Texte} {address : Word} {bs : List Byte}
    (hda : Writes da address.toNat) (hdn : Writes dn bs.length) (hlen : bs.length < 2 ^ 32)
    (hs : Escaped s bs) :
    Serves g (g.request c (octet 'X' :: Gdb.downloadText da dn s) suite)
      (t.answer c (.download address bs)) := by
  have happend (u : Texte) : Gdb.downloadText da dn s ++ u = Gdb.downloadText da dn (s ++ u) := by
    simp [Gdb.downloadText]
  have hn : (BitVec.ofNat 32 bs.length).toNat = bs.length := by
    rw [BitVec.toNat_ofNat]
    exact Nat.mod_eq_of_lt hlen
  have hheader (u : Texte) : sscanfXX (Gdb.downloadText da dn (s ++ u)) c.address c.size =
      (address, BitVec.ofNat 32 bs.length) :=
    Gdb.header_read hda hdn hlen (ends_cons _ (by decide)) _ _
  rw [Gdb.request_handler (f := Gdb.writeMemoryBinary) rfl, happend, Target.answer, Target.download]
  by_cases hin : address.toNat < t.arm.mem.size
  · have hin' : address.toNat < g.gdbSendAck.arm.mem.size := by
      change address.toNat < g.arm.mem.size
      rwa [h.arm]
    have hsize : g.gdbSendAck.arm.mem = t.arm.mem := congrArg ArmCore.mem h.arm
    rw [if_pos hin]
    refine .of_answered (u := g.gdbSendAck.withMemory (t.arm.mem.storeBytes address
      (bs.take (accessible t.arm.mem.size address bs.length)))) ?_ ?_ rfl
    · rw [Gdb.writeMemoryBinary_inside c g.gdbSendAck _ (hheader _) hin'
        (Gdb.content_read hda hdn _), hn, hsize, reach_eq_accessible]
      rw [decoded_take (accessible_le _ _ _), hs.decoded]
      exact congrArg (fun s => Except.ok (Gdb.answered _ s)) (binaryAnswer_beq _ _)
    · rw [Target.withMemory, ← h.arm]
      exact h.gdbSendAck.withArm _
  · have hout : ¬ address.toNat < g.gdbSendAck.arm.mem.size := by
      change ¬ address.toNat < g.arm.mem.size
      rwa [h.arm]
    rw [if_neg hin]
    exact .of_answered (Gdb.writeMemoryBinary_outside c g.gdbSendAck _ (hheader _) hout)
      h.gdbSendAck rfl

theorem serves_insert {da dl : Texte} {address : Word} (hda : Writes da address.toNat)
    (hdl : Numeral dl) :
    Serves g (g.request c (octet 'Z' :: pointText da dl) suite) (t.answer c (.insert address)) := by
  obtain ⟨g', he, hd, hs⟩ := h.gdbSendAck.edit (.add address)
  refine .of_answered ?_ hd hs
  obtain ⟨htype, haddress⟩ := pointText_read hda hdl c
    (hex2 (octet 'Z' :: pointText da dl).sum ++ 0 :: suite)
  rw [Gdb.request_handler (f := Gdb.setBreakpoint) rfl]
  exact Gdb.setBreakpoint_add c _ htype (by rw [Request.address, haddress]; exact he)

theorem serves_remove {da dl : Texte} {address : Word} (hda : Writes da address.toNat)
    (hdl : Numeral dl) :
    Serves g (g.request c (octet 'z' :: pointText da dl) suite) (t.answer c (.remove address)) := by
  obtain ⟨g', he, hd, hs⟩ := h.gdbSendAck.edit (.remove address)
  refine .of_answered ?_ hd hs
  obtain ⟨htype, haddress⟩ := pointText_read hda hdl c
    (hex2 (octet 'z' :: pointText da dl).sum ++ 0 :: suite)
  rw [Gdb.request_handler (f := Gdb.removeBreakpoint) rfl]
  exact Gdb.removeBreakpoint_remove c _ htype (by rw [Request.address, haddress]; exact he)

theorem serves_step {b : Byte} (d : Texte) (hb : b = octet 's' ∨ b = octet 'S') :
    Serves g (g.request c (b :: d) suite) (t.answer c .step) := by
  refine .of_answered (u := g.gdbSendAck.withMachine (machineStep (c.hosts 0) t.machine)) ?_
    (h.gdbSendAck.withMachine _) rfl
  have hstep (u : Texte) : g.gdbSendAck.step c u =
      .ok ((g.gdbSendAck.withMachine (machineStep (c.hosts 0) t.machine)).answered
        (Gdb.stopReason (machineStep (c.hosts 0) t.machine).1)) := by
    rw [Gdb.step, Gdb.gdbSendStopReason_eq, ← h.machine]
    rfl
  rcases hb with rfl | rfl
  · rw [Gdb.request_handler (f := Gdb.step) rfl]
    exact hstep _
  · rw [Gdb.request_handler (f := Gdb.stepWithSignal) rfl]
    exact hstep d

theorem serves_resume {b : Byte} (d : Texte) (hb : b = octet 'c' ∨ b = octet 'C') :
    Serves g (g.request c (b :: d) suite) (t.answer c .resume) := by
  have hpoints : g.gdbSendAck.points = (t.breakpoints : Set Word) := by
    ext a
    exact h.table.mem_points a
  have hcont (u : Texte) := Gdb.continuer_eq t.breakpoints g.gdbSendAck h.gdbSendAck.table.tabled
    hpoints c.hosts c.fuel
  have hmachine : g.gdbSendAck.machine = t.machine := h.machine
  have hserves (u : Texte) : Serves g (g.gdbSendAck.cont c u) (t.answer c .resume) := by
    rw [Gdb.cont, hcont u, hmachine, Target.answer]
    cases DoWhile.loop machineStep (stopped t.breakpoints) c.hosts t.machine c.fuel with
    | none => exact .endless rfl
    | some x =>
        exact .of_answered (Gdb.gdbSendStopReason_eq _) (h.gdbSendAck.withMachine x) rfl
  rcases hb with rfl | rfl
  · rw [Gdb.request_handler (f := Gdb.cont) rfl]
    exact hserves _
  · rw [Gdb.request_handler (f := Gdb.contWithSignal) rfl]
    exact hserves d

theorem serves_query (d : Texte) :
    Serves g (g.request c (octet 'q' :: d) suite) (t.answer c (.query d)) := by
  obtain ⟨hp, hl⟩ := Gdb.reponse_payload d
  refine .of_answered ?_ h.gdbSendAck rfl
  rw [Gdb.request_handler (f := Gdb.query) rfl, Gdb.query, reponse_closed]
  exact Gdb.gdbSendData_payload _ _ hp hl

theorem serves_select (kind : Byte) {d : Texte} (hd : d = texte "0" ∨ d = texte "-1") :
    Serves g (g.request c (octet 'H' :: kind :: d) suite) (t.answer c (.select kind)) := by
  refine .of_answered ?_ h.gdbSendAck rfl
  have hvalue (u : Texte) : (atoi (d ++ 0 :: u)).toInt < 1 ∧ (atoi (d ++ 0 :: u)).toInt > -2 := by
    rcases hd with rfl | rfl
    · exact ⟨(by decide : (0 : Int) < 1), (by decide : (0 : Int) > -2)⟩
    · exact ⟨(by decide : (-1 : Int) < 1), (by decide : (-1 : Int) > -2)⟩
  rw [Gdb.request_handler (f := Gdb.setThread) rfl, Gdb.setThread]
  by_cases hk : kind = octet 'c' ∨ kind = octet 'g'
  · rw [if_pos hk]
    exact (if_pos ⟨hk, hvalue _⟩).trans (Gdb.gdbSendOk_eq _)
  · rw [if_neg hk]
    exact (if_neg fun hc => hk hc.1).trans
      (Gdb.gdbSendData_payload _ _ (by decide) (by decide))

theorem serves_unsupported {b : Byte} (d : Texte) (hb : Gdb.handler b = none) :
    Serves g (g.request c (b :: d) suite) (t.answer c .unsupported) := by
  refine .of_answered ?_ h.gdbSendAck rfl
  rw [Gdb.request_unsupported hb]
  exact Gdb.gdbSendData_payload _ _ (by decide) (by decide)

theorem serves_spelt {d : Texte} {command : Command} (hd : Spells d command) :
    Serves g (g.request c d suite) (t.answer c command) := by
  cases hd with
  | why d => exact serves_why h c suite d
  | readRegisters d => exact serves_readRegisters h c suite d
  | writeRegisters f hf pad hpad k hk => exact serves_writeRegisters h c suite f hf pad hpad hk
  | readRegister ns hn hlt => exact serves_readRegister h c suite hn hlt
  | writeRegister ns vs hn hlt hv hlen => exact serves_writeRegister h c suite hn hlt hv hlen
  | readMemory da dn address size hda hdn hfit => exact serves_readMemory h c suite hda hdn hfit
  | download da dn s address bs hda hdn hlen hs => exact serves_download h c suite hda hdn hlen hs
  | insert da dl address hda hdl => exact serves_insert h c suite hda hdl
  | remove da dl address hda hdl => exact serves_remove h c suite hda hdl
  | step b d hb => exact serves_step h c suite d hb
  | resume b d hb => exact serves_resume h c suite d hb
  | select kind d hd => exact serves_select h c suite kind hd
  | query d => exact serves_query h c suite d
  | unsupported b d hb => exact serves_unsupported h c suite d hb

end Commands

end Armator
