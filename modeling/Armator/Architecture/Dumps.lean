import Armator.Architecture.HandlerReplies

namespace Armator

open Placed

def generalRegister (p : ArmCore) (i : Nat) : Word :=
  registersRead p.reg (Fin.ofNat 18 i) (registersGetMode p.reg)

def generalText (p : ArmCore) (i : Nat) : Nat → Texte
  | 0 => []
  | n + 1 => hex8 (generalRegister p i) ++ generalText p (i + 1) n

def inconnu : Texte := texte "xxxxxxxx"

def inconnuText : Nat → Texte
  | 0 => []
  | n + 1 => inconnu ++ inconnuText n

def registersText (p : ArmCore) : Texte :=
  generalText p 0 16 ++ (inconnuText 24 ++ (inconnu ++ hex8 (registersReadCpsr p.reg)))

def memoryText (mem : Memory) (address : Word) : Nat → Texte
  | 0 => []
  | n + 1 =>
      if mem.horsPlage address then []
      else hex2 (mem.data address) ++ memoryText mem (address + 1) n

def memoryReply (mem : Memory) (address size : Word) : Texte :=
  if address.toNat < mem.size then memoryText mem address size.toNat else texte "E0E"

@[simp] theorem length_hex8 (x : Word) : (hex8 x).length = 8 := Hex.length_print 8 x.toNat

@[simp] theorem length_generalText (p : ArmCore) (i n : Nat) :
    (generalText p i n).length = 8 * n := by
  induction n generalizing i with
  | zero => rfl
  | succ n ih =>
      rw [generalText, List.length_append, length_hex8, ih]
      omega

@[simp] theorem length_inconnuText (n : Nat) : (inconnuText n).length = 8 * n := by
  induction n with
  | zero => rfl
  | succ n ih =>
      have hl : inconnu.length = 8 := rfl
      rw [inconnuText, List.length_append, hl, ih]
      omega

theorem length_registersText (p : ArmCore) : (registersText p).length = 336 := by
  have hl : inconnu.length = 8 := rfl
  rw [registersText, List.length_append, List.length_append, List.length_append, hl, length_hex8,
    length_generalText, length_inconnuText]

theorem payload_generalText (p : ArmCore) (i n : Nat) : Payload (generalText p i n) := by
  induction n generalizing i with
  | zero => exact fun c hc => (List.not_mem_nil hc).elim
  | succ n ih => exact (payload_hex8 _).append (ih (i + 1))

theorem payload_inconnuText (n : Nat) : Payload (inconnuText n) := by
  induction n with
  | zero => exact fun c hc => (List.not_mem_nil hc).elim
  | succ n ih => exact Payload.append (by decide) ih

theorem payload_registersText (p : ArmCore) : Payload (registersText p) :=
  (payload_generalText p 0 16).append
    ((payload_inconnuText 24).append (Payload.append (by decide) (payload_hex8 _)))

theorem payload_memoryText (mem : Memory) (address : Word) (n : Nat) :
    Payload (memoryText mem address n) := by
  induction n generalizing address with
  | zero => exact fun c hc => (List.not_mem_nil hc).elim
  | succ n ih =>
      rw [memoryText]
      split
      · exact fun c hc => (List.not_mem_nil hc).elim
      · exact (payload_hex2 _).append (ih _)

theorem payload_memoryReply (mem : Memory) (address size : Word) :
    Payload (memoryReply mem address size) := by
  rw [memoryReply]
  split
  · exact payload_memoryText mem address _
  · decide

namespace Gdb

theorem readRegister_eq (g : Gdb) (i : Nat) (reg : Byte) (h : reg.toNat < 16) :
    g.readRegister i reg = g.copier i (hex8 (generalRegister g.arm reg.toNat)) := by
  have hreg : (⟨reg.toNat, Nat.lt_trans h (by decide)⟩ : RegNum) = Fin.ofNat 18 reg.toNat := by
    apply Fin.ext
    exact (Nat.mod_eq_of_lt (Nat.lt_trans h (by decide))).symm
  rw [readRegister, dif_pos h]
  dsimp only
  rw [hreg]
  rfl

theorem copier_after (g : Gdb) (s t u : Texte) (hu : u.length ≤ 1)
    (hfit : 1 + s.length + t.length < MAX_PACKET_SIZE) :
    (g.withText (s ++ u)).copier (1 + s.length) t = .ok (g.withText (s ++ t ++ [0])) := by
  rw [copier_withText g s t u hu, if_pos hfit, List.append_assoc]

theorem lireGeneraux_eq (g : Gdb) (s u : Texte) (n : Nat) (hn : n ≤ 16) (hu : u.length ≤ 1)
    (hfit : 1 + s.length + 8 * n < MAX_PACKET_SIZE) :
    ∃ v, v.length ≤ 1 ∧ (g.withText (s ++ u)).lireGeneraux (1 + s.length) n =
      .ok (1 + (s ++ generalText g.arm (16 - n) n).length,
        g.withText (s ++ generalText g.arm (16 - n) n ++ v)) := by
  induction n generalizing s u with
  | zero =>
      refine ⟨u, hu, ?_⟩
      rw [lireGeneraux, generalText, List.append_nil]
      rfl
  | succ n ih =>
      have hi : (BitVec.ofNat 8 (16 - (n + 1))).toNat = 16 - (n + 1) := by
        rw [BitVec.toNat_ofNat]
        omega
      have hnext : 16 - (n + 1) + 1 = 16 - n := by omega
      have hplace (t : Texte) (ht : t.length = 8) : 1 + s.length + 8 = 1 + (s ++ t).length := by
        rw [List.length_append, ht, Nat.add_assoc]
      rw [lireGeneraux, readRegister_eq _ _ _ (by omega), hi,
        copier_after g s _ u hu (by rw [length_hex8]; omega), Fallible.ok_bind,
        hplace _ (length_hex8 _), generalText, hnext, ← List.append_assoc]
      exact ih _ [0] (by omega) (Nat.le_refl 1)
        (by rw [List.length_append, length_hex8]; omega)

theorem inconnus_eq (g : Gdb) (s u : Texte) (n : Nat) (hu : u.length ≤ 1)
    (hfit : 1 + s.length + 8 * n < MAX_PACKET_SIZE) :
    ∃ v, v.length ≤ 1 ∧ (g.withText (s ++ u)).inconnus (1 + s.length) n =
      .ok (1 + (s ++ inconnuText n).length, g.withText (s ++ inconnuText n ++ v)) := by
  induction n generalizing s u with
  | zero =>
      refine ⟨u, hu, ?_⟩
      rw [inconnus, inconnuText, List.append_nil]
      rfl
  | succ n ih =>
      have hl : inconnu.length = 8 := rfl
      have hplace : 1 + s.length + 8 = 1 + (s ++ inconnu).length := by
        rw [List.length_append, hl, Nat.add_assoc]
      rw [inconnus]
      change ∃ v, _ ∧ ((g.withText (s ++ u)).copier (1 + s.length) inconnu >>= _) = _
      rw [copier_after g s inconnu u hu (by rw [hl]; omega), Fallible.ok_bind, hplace, inconnuText,
        ← List.append_assoc]
      exact ih _ [0] (Nat.le_refl 1) (by rw [List.length_append, hl]; omega)

theorem readGeneralRegisters_eq (c : Call) (g : Gdb) (data : Texte) :
    g.readGeneralRegisters c data = .ok (g.answered (registersText g.arm)) := by
  have hmax : MAX_PACKET_SIZE = 4096 := rfl
  have hl : inconnu.length = 8 := rfl
  have hA := length_generalText g.arm 0 16
  have hB := length_inconnuText 24
  obtain ⟨v, hv, hgeneral⟩ := lireGeneraux_eq g [] [] 16 (Nat.le_refl 16) (Nat.zero_le 1)
    (by rw [List.length_nil]; omega)
  rw [List.nil_append, List.nil_append, withText_nil, List.length_nil] at hgeneral
  generalize hAt : generalText g.arm (16 - 16) 16 = A at hgeneral
  replace hA : A.length = 8 * 16 := by rw [← hAt]; exact hA
  obtain ⟨w, hw, hfloat⟩ := inconnus_eq g A v 24 hv (by omega)
  have hAB : (A ++ inconnuText 24).length = 320 := by rw [List.length_append]; omega
  have hstatus := copier_after g (A ++ inconnuText 24) inconnu w hw (by omega)
  have hABI : (A ++ inconnuText 24 ++ inconnu).length = 328 := by rw [List.length_append]; omega
  have hcpsr := copier_after g (A ++ inconnuText 24 ++ inconnu) (hex8 (registersReadCpsr g.arm.reg))
    [0] (Nat.le_refl 1) (by rw [length_hex8]; omega)
  have htext : A ++ inconnuText 24 ++ inconnu ++ hex8 (registersReadCpsr g.arm.reg) =
      registersText g.arm := by
    rw [← hAt, registersText, List.append_assoc, List.append_assoc]
  rw [htext] at hcpsr
  have hend := gdbSendBuffer_withText g (registersText g.arm) (payload_registersText g.arm).ne_zero
    (by rw [length_registersText]; omega)
  rw [length_registersText, if_pos (by omega)] at hend
  rw [readGeneralRegisters, hgeneral, Fallible.ok_bind]
  dsimp only
  rw [hfloat, Fallible.ok_bind]
  dsimp only
  change ((g.withText (A ++ inconnuText 24 ++ w)).copier (1 + (A ++ inconnuText 24).length) inconnu
    >>= _) = _
  have hplace : 1 + (A ++ inconnuText 24).length + 8 =
      1 + (A ++ inconnuText 24 ++ inconnu).length := by omega
  rw [hstatus, Fallible.ok_bind, hplace]
  dsimp only [writeUint32]
  have hreg : (g.withText (A ++ inconnuText 24 ++ inconnu ++ [0])).arm = g.arm := rfl
  rw [hreg, hcpsr, Fallible.ok_bind]
  exact hend

theorem lireOctets_eq (g : Gdb) (address : Word) (s : Texte) (n : Nat)
    (hs : 1 + s.length < MAX_PACKET_SIZE) :
    (g.withText (s ++ [0])).lireOctets address (1 + s.length) n =
      if 1 + (s ++ memoryText g.arm.mem address n).length < MAX_PACKET_SIZE then
        .ok (g.withText (s ++ memoryText g.arm.mem address n ++ [0]))
      else .error .debordement := by
  induction n generalizing address s with
  | zero =>
      rw [lireOctets, memoryText, List.append_nil, if_pos hs]
      rfl
  | succ n ih =>
      have hmem : (g.withText (s ++ [0])).arm.mem = g.arm.mem := rfl
      rw [lireOctets, memoryText, hmem, memoryReadByte]
      by_cases ho : g.arm.mem.horsPlage address
      · rw [if_pos ho, if_pos ho, List.append_nil, if_pos hs]
        rfl
      · rw [if_neg ho, if_neg ho]
        dsimp only
        rw [if_pos (by decide), copier_withText _ _ _ [0] (Nat.le_refl 1), length_hex2]
        have hlen : 1 + s.length + 2 = 1 + (s ++ hex2 (g.arm.mem.data address)).length := by
          rw [List.length_append, length_hex2, Nat.add_assoc]
        by_cases hfit : 1 + s.length + 2 < MAX_PACKET_SIZE
        · rw [if_pos hfit, Fallible.ok_bind, hlen, ← List.append_assoc, ← List.append_assoc]
          exact ih _ _ (hlen ▸ hfit)
        · rw [if_neg hfit, if_neg]
          · rfl
          · rw [List.length_append, List.length_append, length_hex2]
            omega

theorem readMemory_eq (c : Call) (g : Gdb) (data : Texte) :
    g.readMemory c data =
      let reply := memoryReply g.arm.mem (sscanfXX data c.address c.size).1
        (sscanfXX data c.address c.size).2
      if reply.length + 4 < MAX_PACKET_SIZE then .ok (g.answered reply)
      else .error .debordement := by
  rw [readMemory]
  obtain ⟨address, size⟩ := sscanfXX data c.address c.size
  dsimp only
  have hp := payload_memoryReply g.arm.mem address size
  generalize hreply : memoryReply g.arm.mem address size = reply at hp
  have hend := gdbSendBuffer_copied g reply hp.ne_zero
  rw [memoryReply] at hreply
  by_cases hin : address.toNat < g.arm.mem.size
  · rw [if_pos hin] at hreply ⊢
    have h0 : g.ecrire 1 0 = .ok (g.withText ([] ++ [0])) := by
      rw [ecrire, if_pos (by decide), withText, List.nil_append, place_cons, place_nil]
    have hloop := lireOctets_eq g address [] size.toNat (by decide)
    rw [List.nil_append, hreply, List.nil_append, List.length_nil] at hloop
    rw [h0, Fallible.ok_bind, List.nil_append, hloop]
    exact hend
  · rw [if_neg hin] at hreply ⊢
    rw [hreply, copier_eq]
    exact hend

theorem readSingleRegister_eq (c : Call) (g : Gdb) (data : Texte) :
    g.readSingleRegister c data =
      if ((atoi data).setWidth 8).toNat < 16 then
        .ok (g.answered (hex8 (generalRegister g.arm ((atoi data).setWidth 8).toNat)))
      else .error .assertion := by
  rw [readSingleRegister]
  by_cases hlt : ((atoi data).setWidth 8).toNat < 16
  · have hend := gdbSendBuffer_withText g
      (hex8 (generalRegister g.arm ((atoi data).setWidth 8).toNat)) (payload_hex8 _).ne_zero
      (by rw [length_hex8]; decide)
    rw [length_hex8, if_pos (by decide)] at hend
    rw [readRegister_eq g 1 _ hlt, copier_eq, if_pos (by rw [length_hex8]; decide), if_pos hlt,
      Fallible.ok_bind]
    exact hend
  · rw [readRegister, dif_neg hlt, if_neg hlt]
    rfl

end Gdb

end Armator
