import Armator.Architecture.BinaryWrites

namespace Armator

namespace Gdb

structure Answered (g g' : Gdb) (s : Texte) : Prop where
  payload : Payload s
  kept : g'.lastReply = frame s
  sent : g'.sortie = g.sortie ++ frame s

def Answers (g g' : Gdb) : Prop := ∃ s, g.Answered g' s

theorem Answers.of_answered {g g₁ : Gdb} {s : Texte} (hs : Payload s)
    (hg : g₁.sortie = g.sortie) : g.Answers (g₁.answered s) :=
  ⟨s, hs, answered_lastReply g₁ s, congrArg (· ++ frame s) hg⟩

theorem gdbSendData_answers {g g₁ g' : Gdb} {s : Texte} (hs : Payload s)
    (hg : g₁.sortie = g.sortie) (h : g₁.gdbSendData s = .ok g') : g.Answers g' := by
  rw [gdbSendData_eq, chaine_eq_self s hs.ne_zero] at h
  split at h
  · cases h
    exact Answers.of_answered hs hg
  · cases h

theorem gdbSendStopReason_answers {g g₁ g' : Gdb} (hg : g₁.sortie = g.sortie)
    (h : g₁.gdbSendStopReason = .ok g') : g.Answers g' :=
  gdbSendData_answers (stopReason_payload g₁.target_exception).1 hg h

section Frames

theorem ecrireBreakpoint_sortie {g g' : Gdb} {i : Nat} {address : Word}
    (h : g.ecrireBreakpoint i address = .ok g') : g'.sortie = g.sortie := by
  rw [ecrireBreakpoint] at h
  split at h
  · cases h
    rfl
  · cases h

theorem decaler_sortie {g g' : Gdb} {address : Word} {j k : Nat}
    (h : g.decaler address j = .ok (k, g')) : g'.sortie = g.sortie := by
  induction j generalizing g with
  | zero =>
      cases h
      rfl
  | succ j ih =>
      obtain ⟨x, _, h⟩ := (Fallible.bind_eq_ok _ _ _).mp h
      split at h
      · obtain ⟨g₁, hw, h⟩ := (Fallible.bind_eq_ok _ _ _).mp h
        exact (ih h).trans (ecrireBreakpoint_sortie hw)
      · cases h
        rfl

theorem tasser_sortie {g g' : Gdb} {j reste : Nat} (h : g.tasser j reste = .ok g') :
    g'.sortie = g.sortie := by
  induction reste generalizing g j with
  | zero =>
      cases h
      rfl
  | succ reste ih =>
      obtain ⟨x, _, h⟩ := (Fallible.bind_eq_ok _ _ _).mp h
      obtain ⟨g₁, hw, h⟩ := (Fallible.bind_eq_ok _ _ _).mp h
      exact (ih h).trans (ecrireBreakpoint_sortie hw)

theorem gdbAddBreakpoint_sortie {g g' : Gdb} {address : Word} {result : Int}
    (h : g.gdbAddBreakpoint address = .ok (result, g')) : g'.sortie = g.sortie := by
  rw [gdbAddBreakpoint] at h
  split at h
  · obtain ⟨i, _, h⟩ := (Fallible.bind_eq_ok _ _ _).mp h
    split at h
    · cases h
      rfl
    · obtain ⟨⟨j, g₁⟩, hd, h⟩ := (Fallible.bind_eq_ok _ _ _).mp h
      obtain ⟨g₂, hw, h⟩ := (Fallible.bind_eq_ok _ _ _).mp h
      cases h
      have hs := decaler_sortie hd
      exact (ecrireBreakpoint_sortie hw).trans hs
  · cases h
    rfl

theorem gdbRemoveBreakpoint_sortie {g g' : Gdb} {address : Word} {result : Int}
    (h : g.gdbRemoveBreakpoint address = .ok (result, g')) : g'.sortie = g.sortie := by
  obtain ⟨i, _, h⟩ := (Fallible.bind_eq_ok _ _ _).mp h
  split at h
  · cases h
    rfl
  · obtain ⟨g₁, ht, h⟩ := (Fallible.bind_eq_ok _ _ _).mp h
    cases h
    have hs := tasser_sortie ht
    exact hs

end Frames

section RegisterWrites

variable (c : Call) (g : Gdb) (data : Texte)

theorem writeRegister_meets (reg value : Word) :
    Fallible.Meets (· = .assertion) (fun g' => ∃ arm, g' = { g with arm := arm })
      (g.writeRegister reg data value) := by
  rw [writeRegister]
  dsimp only
  split
  · exact .ok ⟨_, rfl⟩
  · exact .error rfl

theorem ecrireGeneraux_meets (n : Nat) :
    Fallible.Meets (· = .assertion) (fun t => ∃ arm, t.2 = { g with arm := arm })
      (ecrireGeneraux c g data n) := by
  induction n generalizing g data with
  | zero => exact .ok ⟨g.arm, rfl⟩
  | succ n ih =>
      rw [ecrireGeneraux]
      refine (writeRegister_meets g data _ _).bind ?_
      rintro g₁ ⟨arm, rfl⟩
      exact ih { g with arm := arm } _

theorem writeGeneralRegisters_meets :
    Fallible.Meets (· = .assertion)
      (fun g' => ∃ arm, g' = ({ g with arm := arm } : Gdb).answered (texte "OK"))
      (g.writeGeneralRegisters c data) := by
  rw [writeGeneralRegisters]
  refine (ecrireGeneraux_meets c g data 16).bind ?_
  rintro ⟨position, g₁⟩ ⟨arm, rfl⟩
  dsimp only
  rw [gdbSendOk_eq]
  exact .ok ⟨_, rfl⟩

theorem writeSingleRegister_meets :
    Fallible.Meets (fun e => e = .assertion ∨ e = .pointeur)
      (fun g' => ∃ arm, g' = ({ g with arm := arm } : Gdb).answered (texte "OK"))
      (g.writeSingleRegister c data) := by
  rw [writeSingleRegister]
  split
  · exact .error (Or.inr rfl)
  · refine ((writeRegister_meets g _ _ _).mono (fun _ he => Or.inl he) fun _ => id).bind ?_
    rintro g₁ ⟨arm, rfl⟩
    rw [gdbSendOk_eq]
    exact .ok ⟨arm, rfl⟩

end RegisterWrites

section Handlers

variable {c : Call} {g g' : Gdb} {data : Texte}

theorem continuer_answers {hosts : Nat → Host} {fuel : Nat} (h : g.continuer hosts fuel = .ok g') :
    g.Answers g' := by
  induction fuel generalizing g hosts with
  | zero => cases h
  | succ fuel ih =>
      have hs : (singleStep (hosts 0) g).sortie = g.sortie := rfl
      obtain ⟨position, _, h⟩ := (Fallible.bind_eq_ok _ _ _).mp h
      generalize (if position ≠ -1 then 1 else (singleStep (hosts 0) g).target_exception) = stop at h
      dsimp only at h
      split at h
      · obtain ⟨s, hp, hk, he⟩ := ih h
        exact ⟨s, hp, hk, he.trans (congrArg (· ++ frame s) hs)⟩
      · exact gdbSendStopReason_answers hs h

theorem reponse_mem (data : Texte) :
    reponse data ∈ ["Text=0;Data=0;Bss=0", "PacketSize=400", "T0;tnotrun:0", ""].map texte := by
  unfold reponse
  repeat' split
  all_goals decide

theorem reponse_payload (data : Texte) :
    Payload (reponse data) ∧ (reponse data).length + 4 < MAX_PACKET_SIZE := by
  have hall : ∀ s ∈ ["Text=0;Data=0;Bss=0", "PacketSize=400", "T0;tnotrun:0", ""].map texte,
      Payload s ∧ s.length + 4 < MAX_PACKET_SIZE := by
    decide
  exact hall _ (reponse_mem data)

theorem query_answers (h : g.query c data = .ok g') : g.Answers g' :=
  gdbSendData_answers (reponse_payload data).1 rfl h

theorem readGeneralRegisters_answers (h : g.readGeneralRegisters c data = .ok g') :
    g.Answers g' := by
  rw [readGeneralRegisters_eq] at h
  cases h
  exact Answers.of_answered (payload_registersText g.arm) rfl

theorem readMemory_answers (h : g.readMemory c data = .ok g') : g.Answers g' := by
  rw [readMemory_eq] at h
  dsimp only at h
  split at h
  · cases h
    exact Answers.of_answered (payload_memoryReply _ _ _) rfl
  · cases h

theorem readSingleRegister_answers (h : g.readSingleRegister c data = .ok g') : g.Answers g' := by
  rw [readSingleRegister_eq] at h
  split at h
  · cases h
    exact Answers.of_answered (payload_hex8 _) rfl
  · cases h

theorem setThread_answers (h : g.setThread c data = .ok g') : g.Answers g' := by
  rw [setThread] at h
  split at h
  · exact gdbSendData_answers (by decide) rfl h
  · exact gdbSendData_answers (by decide) rfl h

theorem writeGeneralRegisters_answers (h : g.writeGeneralRegisters c data = .ok g') :
    g.Answers g' := by
  have hmeets := writeGeneralRegisters_meets c g data
  rw [h] at hmeets
  obtain ⟨arm, rfl⟩ := hmeets.of_ok
  exact Answers.of_answered (by decide) rfl

theorem writeSingleRegister_answers (h : g.writeSingleRegister c data = .ok g') :
    g.Answers g' := by
  have hmeets := writeSingleRegister_meets c g data
  rw [h] at hmeets
  obtain ⟨arm, rfl⟩ := hmeets.of_ok
  exact Answers.of_answered (by decide) rfl

theorem binaryAnswer_payload (write_ok : Bool) : Payload (binaryAnswer write_ok) := by
  cases write_ok <;> decide

theorem writeMemoryBinary_answers (h : g.writeMemoryBinary c data = .ok g') : g.Answers g' := by
  have hmeets := writeMemoryBinary_meets c g data
  rw [h] at hmeets
  obtain ⟨mem, write_ok, rfl⟩ := hmeets.of_ok
  exact Answers.of_answered (binaryAnswer_payload write_ok) rfl

theorem edited_answers {g₁ : Gdb} {result : Int} {refusal : Texte} (hp : Payload refusal)
    (hs : g₁.sortie = g.sortie)
    (h : (if result ≠ 0 then g₁.gdbSendData (texte "OK") else g₁.gdbSendData refusal) = .ok g') :
    g.Answers g' := by
  split at h
  · exact gdbSendData_answers (by decide) hs h
  · exact gdbSendData_answers hp hs h

theorem setBreakpoint_answers (h : g.setBreakpoint c data = .ok g') : g.Answers g' := by
  rw [setBreakpoint] at h
  dsimp only at h
  split at h
  · exact gdbSendData_answers (by decide) rfl h
  · obtain ⟨⟨result, g₁⟩, ha, h⟩ := (Fallible.bind_eq_ok _ _ _).mp h
    exact edited_answers (by decide) (gdbAddBreakpoint_sortie ha) h

theorem removeBreakpoint_answers (h : g.removeBreakpoint c data = .ok g') : g.Answers g' := by
  rw [removeBreakpoint] at h
  dsimp only at h
  split at h
  · exact gdbSendData_answers (by decide) rfl h
  · obtain ⟨⟨result, g₁⟩, hr, h⟩ := (Fallible.bind_eq_ok _ _ _).mp h
    exact edited_answers (by decide) (gdbRemoveBreakpoint_sortie hr) h

theorem reason_answers (h : g.reason c data = .ok g') : g.Answers g' :=
  gdbSendStopReason_answers rfl h

theorem step_answers (h : g.step c data = .ok g') : g.Answers g' := by
  have hs : (singleStep (c.hosts 0) g).sortie = g.sortie := rfl
  exact gdbSendStopReason_answers hs h

theorem stepWithSignal_answers (h : g.stepWithSignal c data = .ok g') : g.Answers g' := by
  have hs : (singleStepWithSignal (c.hosts 0) g).sortie = g.sortie := rfl
  exact gdbSendStopReason_answers hs h

end Handlers

theorem handlers_answer : ∀ p ∈ handlers, p.1 ≠ octet 'k' →
    ∀ (c : Call) (g g' : Gdb) (data : Texte), p.2 c g data = .ok g' → g.Answers g' := by
  simp only [handlers, List.forall_mem_cons]
  exact ⟨fun _ _ _ _ _ h => continuer_answers h,
    fun _ _ _ _ _ h => continuer_answers h,
    fun hk => absurd rfl hk,
    fun _ _ _ _ _ h => query_answers h,
    fun _ _ _ _ _ h => readGeneralRegisters_answers h,
    fun _ _ _ _ _ h => readMemory_answers h,
    fun _ _ _ _ _ h => readSingleRegister_answers h,
    fun _ _ _ _ _ h => reason_answers h,
    fun _ _ _ _ _ h => setThread_answers h,
    fun _ _ _ _ _ h => step_answers h,
    fun _ _ _ _ _ h => stepWithSignal_answers h,
    fun _ _ _ _ _ h => writeGeneralRegisters_answers h,
    fun _ _ _ _ _ h => writeMemoryBinary_answers h,
    fun _ _ _ _ _ h => writeSingleRegister_answers h,
    fun _ _ _ _ _ h => removeBreakpoint_answers h,
    fun _ _ _ _ _ h => setBreakpoint_answers h,
    List.forall_mem_nil _⟩

theorem mem_handlers {b : Byte} {f : Handler} (hf : handler b = some f) : (b, f) ∈ handlers := by
  obtain ⟨l, r, he, _⟩ := List.lookup_eq_some_iff.mp hf
  rw [he]
  exact List.mem_append_right l List.mem_cons_self

theorem handler_answers {b : Byte} {f : Handler} (hf : handler b = some f) (hk : b ≠ octet 'k')
    {c : Call} {g g' : Gdb} {data : Texte} (h : f c g data = .ok g') : g.Answers g' :=
  handlers_answer (b, f) (mem_handlers hf) hk c g g' data h

theorem handler_kill : handler (octet 'k') = some killRequest := rfl

end Gdb

end Armator
