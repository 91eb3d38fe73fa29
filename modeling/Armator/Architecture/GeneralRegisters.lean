import Armator.Architecture.ArchState
import Armator.Architecture.Dumps
import Armator.Architecture.Numerals

namespace Armator

structure Field (t : Texte) : Prop where
  length : t.length = 8
  digits : ∀ c ∈ t, Hex.isDigit c = true

def fieldValue (t : Texte) : Word := BitVec.ofNat 32 (Hex.eval t)

theorem field_hex8 (x : Word) : Field (hex8 x) :=
  ⟨length_hex8 x, fun _ => Hex.isDigit_of_mem_print⟩

theorem fieldValue_hex8 (x : Word) : fieldValue (hex8 x) = x := by
  rw [fieldValue, eval_hex8, BitVec.ofNat_toNat, BitVec.setWidth_eq]

theorem hex8_inj {x y : Word} (h : hex8 x = hex8 y) : x = y := by
  rw [← fieldValue_hex8 x, h, fieldValue_hex8]

theorem readUint32_numeral {t : Texte} (ht : Numeral t) (hlen : t.length ≤ 8) {s : Texte}
    (hs : t.length = 8 ∨ Ends s) (x : Word) : Gdb.readUint32 (t ++ s) x = fieldValue t := by
  have hpow : 16 ^ t.length ≤ 16 ^ 8 := Nat.pow_le_pow_right (by decide) hlen
  have hlt : Hex.eval t < 2 ^ 64 :=
    Nat.lt_trans (Nat.lt_of_lt_of_le (Hex.eval_lt t) hpow) (by decide)
  have hend : t.length = 8 ∨ ∀ c ∈ s.head?, Hex.isDigit c = false :=
    hs.imp_right fun h c hc => (h c hc).1
  have hcross : 2 ≤ t.length ∨ ∀ c ∈ s.head?, c ≠ octet 'x' ∧ c ≠ octet 'X' := by
    rcases hs with h8 | h
    · exact Or.inl (by omega)
    · exact Or.inr fun c hc => (h c hc).2
  rw [Gdb.readUint32, sscanf08X, scanX_digits 8 t s ht.1 ht.2 hlen hend hcross]
  exact strtoul_of_lt _ hlt

theorem Field.numeral {t : Texte} (ht : Field t) : Numeral t := by
  refine ⟨?_, ht.digits⟩
  rintro rfl
  exact absurd ht.length (by decide)

theorem readUint32_field {t : Texte} (ht : Field t) (s : Texte) (x : Word) :
    Gdb.readUint32 (t ++ s) x = fieldValue t :=
  readUint32_numeral ht.numeral (Nat.le_of_eq ht.length) (Or.inl ht.length) x

def fieldsText (f : Nat → Texte) (i : Nat) : Nat → Texte
  | 0 => []
  | n + 1 => f i ++ fieldsText f (i + 1) n

def registersImage (v : Nat → Word) (cpsr : Word) : Texte :=
  fieldsText (fun i => hex8 (v i)) 0 16 ++ (inconnuText 24 ++ (inconnu ++ hex8 cpsr))

theorem generalText_eq (p : ArmCore) (i n : Nat) :
    generalText p i n = fieldsText (fun i => hex8 (generalRegister p i)) i n := by
  induction n generalizing i with
  | zero => rfl
  | succ n ih => rw [generalText, fieldsText, ih]

theorem registersText_eq (p : ArmCore) :
    registersText p = registersImage (generalRegister p) (registersReadCpsr p.reg) := by
  rw [registersText, registersImage, generalText_eq]

theorem fieldsText_hex8_inj {v w : Nat → Word} {i n : Nat}
    (h : fieldsText (fun i => hex8 (v i)) i n = fieldsText (fun i => hex8 (w i)) i n) :
    ∀ k, i ≤ k → k < i + n → v k = w k := by
  induction n generalizing i with
  | zero =>
      intro k hk hlt
      omega
  | succ n ih =>
      obtain ⟨hhead, htail⟩ := List.append_inj h (by rw [length_hex8, length_hex8])
      intro k hk hlt
      rcases Nat.eq_or_lt_of_le hk with rfl | hk
      · exact hex8_inj hhead
      · exact ih htail k hk (by omega)

theorem fieldsText_congr {f f' : Nat → Texte} {i n : Nat}
    (h : ∀ k, i ≤ k → k < i + n → f k = f' k) : fieldsText f i n = fieldsText f' i n := by
  induction n generalizing i with
  | zero => rfl
  | succ n ih =>
      rw [fieldsText, fieldsText, h i (Nat.le_refl i) (by omega),
        ih fun k hk hlt => h k (by omega) (by omega)]

theorem length_fieldsText {f : Nat → Texte} {i n : Nat}
    (hf : ∀ k, i ≤ k → k < i + n → (f k).length = 8) : (fieldsText f i n).length = 8 * n := by
  induction n generalizing i with
  | zero => rfl
  | succ n ih =>
      rw [fieldsText, List.length_append, hf i (Nat.le_refl i) (by omega),
        ih fun k hk hlt => hf k (by omega) (by omega)]
      omega

theorem registersImage_eq_iff (v w : Nat → Word) (x y : Word) :
    registersImage v x = registersImage w y ↔ (∀ k < 16, v k = w k) ∧ x = y := by
  constructor
  · intro h
    have hlen (v : Nat → Word) : (fieldsText (fun i => hex8 (v i)) 0 16).length = 8 * 16 :=
      length_fieldsText fun _ _ _ => length_hex8 _
    obtain ⟨hv, hrest⟩ := List.append_inj h ((hlen v).trans (hlen w).symm)
    refine ⟨fun k hk => fieldsText_hex8_inj hv k (Nat.zero_le k) (by omega), ?_⟩
    exact hex8_inj (List.append_cancel_left (List.append_cancel_left hrest))
  · rintro ⟨hv, rfl⟩
    rw [registersImage, registersImage, fieldsText_congr fun k _ hk => by rw [hv k (by omega)]]

def generalWrites (mode : Byte) (v : Nat → Word) (i n : Nat) : List ((RegNum × Byte) × Word) :=
  (List.range' i n).map fun k => ((Fin.ofNat 18 k, mode), v k)

theorem generalWrites_succ (mode : Byte) (v : Nat → Word) (i n : Nat) :
    generalWrites mode v i (n + 1) =
      ((Fin.ofNat 18 i, mode), v i) :: generalWrites mode v (i + 1) n := rfl

theorem ofNat_ne {i j : Nat} (hi : i < 18) (hj : j < 18) (h : i ≠ j) :
    Fin.ofNat 18 i ≠ Fin.ofNat 18 j := by
  intro he
  have hv := congrArg Fin.val he
  rw [Fin.val_ofNat, Fin.val_ofNat] at hv
  omega

theorem generalWrites_apart (mode : Byte) (v : Nat → Word) (i n : Nat) (h : i + n ≤ 16) :
    Cells.Apart bank (generalWrites mode v i n) := by
  refine List.pairwise_map.mpr ?_
  refine List.Pairwise.imp_of_mem ?_ List.pairwise_lt_range'
  intro a b ha hb hab he
  have ha' := List.mem_range'_1.mp ha
  have hb' := List.mem_range'_1.mp hb
  rcases bank_injective _ _ mode he with hn | heq
  · exact hn
  · exact absurd heq (ofNat_ne (by omega) (by omega) (Nat.ne_of_lt hab))

def writtenRegisters (r : Registers) (v : Nat → Word) : Registers :=
  ⟨Cells.writeAll bank r.registre (generalWrites (registersGetMode r) v 0 16)⟩

section Written

variable (r : Registers) (v : Nat → Word)

theorem writtenRegisters_slot (i : Nat) (hi : i < 16) (s : Slot)
    (hs : bank (Fin.ofNat 18 i, registersGetMode r) = some s) :
    (writtenRegisters r v).registre s = v i := by
  have hmem : ((Fin.ofNat 18 i, registersGetMode r), v i) ∈
      generalWrites (registersGetMode r) v 0 16 :=
    List.mem_map.mpr ⟨i, List.mem_range'_1.mpr ⟨Nat.zero_le i, by omega⟩, rfl⟩
  exact Cells.writeAll_at bank r.registre _ (generalWrites_apart _ v 0 16 (Nat.le_refl _)) _ hmem s hs

theorem writtenRegisters_other (s : Slot)
    (hs : ∀ i < 16, bank (Fin.ofNat 18 i, registersGetMode r) ≠ some s) :
    (writtenRegisters r v).registre s = r.registre s := by
  refine Cells.writeAll_frame bank r.registre _ s fun kv hkv => ?_
  obtain ⟨i, hi, rfl⟩ := List.mem_map.mp hkv
  have hlt := List.mem_range'_1.mp hi
  exact hs i (by omega)

theorem writtenRegisters_eq_self (h : ∀ i < 16,
      v i = registersRead r (Fin.ofNat 18 i) (registersGetMode r)) : writtenRegisters r v = r := by
  have hall := (Cells.writeAll_eq_self_iff bank r.registre _
    (generalWrites_apart (registersGetMode r) v 0 16 (Nat.le_refl _))).mpr fun kv hkv => by
      obtain ⟨i, hi, rfl⟩ := List.mem_map.mp hkv
      have hlt := List.mem_range'_1.mp hi
      rw [Cells.write_eq_self_iff]
      intro s hs
      rw [h i (by omega), registersRead_bank, Cells.read]
      dsimp only at hs ⊢
      rw [hs]
  rw [writtenRegisters, hall]

-- The slots written are those of the mode before; a register number names them in no other way.
theorem writtenRegisters_read (cpsr : Word) (i : Nat) (hi : i < 16)
    (hm : registersGetMode r ∈ armModes) (m : Byte) (hm' : m ∈ armModes) :
    registersRead (registersWriteCpsr (writtenRegisters r v) cpsr) (Fin.ofNat 18 i) m =
      if archReg (Fin.ofNat 18 i) (registersGetMode r) = archReg (Fin.ofNat 18 i) m then v i
      else registersRead r (Fin.ofNat 18 i) m := by
  have hne (j : Nat) (hj : j < 18) (h : i ≠ j) : Fin.ofNat 18 i ≠ Fin.ofNat 18 j :=
    ofNat_ne (by omega) hj h
  obtain ⟨a, ha⟩ := archReg_isSome (Fin.ofNat 18 i) m hm' (hne 17 (by decide) (by omega))
  have hslot := (bank_eq_slot_iff _ m hm' a).mpr ha
  have hcpsr : a.slot ≠ CPSR := by
    intro hc
    rw [hc] at hslot
    exact hne 16 (by decide) (by omega) ((bank_eq_cpsr _ m).mp hslot)
  rw [registersRead_bank, registersRead_bank, Cells.read, Cells.read, hslot, registersWriteCpsr]
  dsimp only
  rw [Registers.set_registre, if_neg hcpsr, ha]
  by_cases hsame : archReg (Fin.ofNat 18 i) (registersGetMode r) = some a
  · rw [if_pos hsame]
    exact writtenRegisters_slot r v i hi _ ((bank_eq_slot_iff _ _ hm a).mpr hsame)
  · rw [if_neg hsame]
    refine writtenRegisters_other r v _ fun j hj hb => hsame ?_
    have hj' := (bank_eq_slot_iff _ _ hm a).mp hb
    have hnum : Fin.ofNat 18 j = Fin.ofNat 18 i :=
      (archReg_number _ ⟨_, hm⟩ a hj').symm.trans (archReg_number _ ⟨m, hm'⟩ a ha)
    rw [← hnum]
    exact hj'

end Written

namespace Gdb

def withRegisters (g : Gdb) (r : Registers) : Gdb := { g with arm := { g.arm with reg := r } }

theorem writeRegister_eq (g : Gdb) (reg : Word) (data : Texte) (value : Word) :
    g.writeRegister reg data value =
      if reg.toNat < 16 then
        .ok (g.withRegisters (registersWrite g.arm.reg (Fin.ofNat 18 reg.toNat)
          (registersGetMode g.arm.reg) (readUint32 data value)))
      else .error .assertion := by
  rw [writeRegister]
  dsimp only
  by_cases h : reg.toNat < 16
  · have hreg : (⟨reg.toNat, Nat.lt_trans h (by decide)⟩ : RegNum) = Fin.ofNat 18 reg.toNat :=
      Fin.ext (Nat.mod_eq_of_lt (Nat.lt_trans h (by decide))).symm
    rw [dif_pos h, if_pos h, hreg]
    rfl
  · rw [dif_neg h, if_neg h]

theorem writeRegister_field (g : Gdb) (i : Nat) (hi : i < 16) {t : Texte} (ht : Field t)
    (s : Texte) (x : Word) :
    g.writeRegister (BitVec.ofNat 32 i) (t ++ s) x = .ok (g.withRegisters
      (registersWrite g.arm.reg (Fin.ofNat 18 i) (registersGetMode g.arm.reg) (fieldValue t))) := by
  have hval : (BitVec.ofNat 32 i).toNat = i := by
    rw [BitVec.toNat_ofNat]
    omega
  rw [writeRegister_eq, hval, if_pos hi, readUint32_field ht]

theorem ecrireGeneraux_eq (c : Call) (g : Gdb) (f : Nat → Texte) (hf : ∀ i < 16, Field (f i))
    (s : Texte) (n : Nat) (hn : n ≤ 16) :
    g.ecrireGeneraux c (fieldsText f (16 - n) n ++ s) n =
      .ok (s, g.withRegisters ⟨Cells.writeAll bank g.arm.reg.registre
        (generalWrites (registersGetMode g.arm.reg) (fun i => fieldValue (f i)) (16 - n) n)⟩) := by
  induction n generalizing g with
  | zero => rfl
  | succ n ih =>
      have hi : 16 - (n + 1) < 16 := by omega
      have hnext : 16 - (n + 1) + 1 = 16 - n := by omega
      have hne : Fin.ofNat 18 (16 - (n + 1)) ≠ 16 :=
        ofNat_ne (j := 16) (by omega) (by decide) (by omega)
      rw [ecrireGeneraux, fieldsText, hnext, List.append_assoc, generalWrites_succ, hnext]
      rw [writeRegister_field g _ hi (hf _ hi), Fallible.ok_bind, List.drop_left' (hf _ hi).length,
        ih _ (by omega)]
      dsimp only [withRegisters]
      rw [registersGetMode_write _ _ _ _ hne, registersWrite_bank, Cells.writeAll_cons]

theorem writeGeneralRegisters_eq (c : Call) (g : Gdb) (f : Nat → Texte)
    (hf : ∀ i < 16, Field (f i)) (pad : Texte) (hpad : pad.length = 200) {k : Texte} (hk : Field k)
    (s : Texte) :
    g.writeGeneralRegisters c (fieldsText f 0 16 ++ (pad ++ (k ++ s))) =
      .ok ((g.withRegisters (registersWriteCpsr
        (writtenRegisters g.arm.reg fun i => fieldValue (f i)) (fieldValue k))).answered
          (texte "OK")) := by
  have hskip : (pad ++ (k ++ s)).drop (8 * 3 * 8 + 8) = k ++ s := List.drop_left' hpad
  have hwrite := ecrireGeneraux_eq c g f hf (pad ++ (k ++ s)) 16 (Nat.le_refl 16)
  rw [writeGeneralRegisters]
  change (g.ecrireGeneraux c (fieldsText f (16 - 16) 16 ++ (pad ++ (k ++ s))) 16 >>= _) = _
  rw [hwrite, Fallible.ok_bind]
  dsimp only
  rw [List.drop_drop, hskip, readUint32_field hk]
  exact gdbSendOk_eq _

end Gdb

end Armator
