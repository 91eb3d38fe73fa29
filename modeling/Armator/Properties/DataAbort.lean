import Armator.Architecture.Inert
import Armator.Simulator.Create

namespace Armator

open BitFields

-- What the local of the access holds before the read.
def uninitialised (h : Host) (ins : Word) : Word :=
  if isWordByte ins then if bit ins 22 then h.value8.setWidth 32 else h.value
  else h.value16.setWidth 32

def currentRegister (p : ArmCore) (reg : RegNum) : Word := registersRead p.reg reg p.mode

structure DeliversNothing (h : Host) (p : ArmCore) (ins : Word) : Prop where
  dest : rdNum ins ≠ rnNum ins →
    currentRegister (armLoadStore h p ins).2 (rdNum ins) = currentRegister p (rdNum ins)
  memory : (armLoadStore h p ins).2.mem = p.mem

section Abort

variable (h : Host) (p : ArmCore) (ins : Word)

theorem transferred_abort (ha : (transferred h p ins).1 = DATA_ABORT) :
    (accessed h p ins).1 = -1 ∧ (transferred h p ins).2 = (accessed h p ins).2 := by
  have h7 : UNDEFINED_INSTRUCTION ≠ DATA_ABORT := by decide
  have h0 : (0 : Int) ≠ DATA_ABORT := by decide
  rw [transferred] at ha ⊢
  split at ha
  · exact absurd ha h7
  · rename_i hr
    rw [if_neg hr]
    split at ha
    · exact absurd ha h7
    · rename_i hr
      rw [if_neg hr]
      split at ha
      · rename_i hc
        rw [if_pos hc]
        exact ⟨hc, rfl⟩
      · split at ha
        · exact absurd ha h0
        · split at ha
          · exact absurd ha h7
          · exact absurd ha h0

theorem armLoadStore_abort (ha : (armLoadStore h p ins).1 = DATA_ABORT) :
    (accessed h p ins).1 = -1 ∧ (armLoadStore h p ins).2 = (accessed h p ins).2 := by
  have h1 : (-1 : Int) ≠ DATA_ABORT := by decide
  have hc : condNotRespect p ins = 0 := by
    by_contra hc
    rw [armLoadStore, if_pos hc] at ha
    exact h1 ha
  rw [armLoadStore_eq h p ins hc] at ha ⊢
  exact transferred_abort h p ins ha

theorem loaded_outside (hn : rnNum ins ≠ 15) (ho : p.mem.horsPlage (accessAddress h p ins)) :
    (loaded h p ins).2 = uninitialised h ins := by
  rw [loaded, uninitialised, if_pos hn, if_pos hn]
  split
  · rw [memoryReadByte, memoryReadWord, if_pos ho, if_pos ho]
    split <;> rfl
  · rw [memoryReadHalf, if_pos ho]

theorem stored_outside (value : Word) (ho : p.mem.horsPlage (accessAddress h p ins)) :
    (stored h p ins value).2 = p.mem := by
  rw [stored, memoryWriteByte, memoryWriteWord, memoryWriteHalf, if_pos ho, if_pos ho, if_pos ho]
  split
  · split <;> rfl
  · rfl

theorem accessed_outside (hn : rnNum ins ≠ 15) (ha : (accessed h p ins).1 = -1) :
    (accessed h p ins).2 =
      if bit ins 20 then armWriteRegister (preIndexed h p ins) (rdNum ins) (uninitialised h ins)
      else preIndexed h p ins := by
  have hwb : ¬ (isWordByte ins ∧ rnNum ins = 15) := fun hc => hn hc.2
  have hl := loaded_code h p ins hwb
  have hs := stored_code h p ins (armReadRegister (preIndexed h p ins) (rdNum ins))
  have hm := preIndexed_mem h p ins
  have h0 : (0 : Int) ≠ -1 := by decide
  rw [accessed] at ha ⊢
  dsimp only at ha ⊢
  by_cases ho : p.mem.horsPlage (accessAddress h p ins)
  · rw [loaded_outside h p ins hn ho, stored_outside h p ins _ ho, ← hm]
    split <;> rfl
  · rw [hl, hs, if_neg ho] at ha
    split at ha <;> exact absurd ha h0

theorem preIndexed_mode : (preIndexed h p ins).mode = p.mode := by
  rw [preIndexed]
  split
  · exact armWriteRegister_mode p (rnNum ins) _ (ne_of_val_lt (rnNum_lt ins)).1
  · rfl

theorem preIndexed_register (reg : RegNum) (hne : reg ≠ rnNum ins) :
    currentRegister (preIndexed h p ins) reg = currentRegister p reg := by
  have hmode := preIndexed_mode h p ins
  rw [currentRegister, hmode, preIndexed]
  split
  · exact registersRead_write_other _ _ _ _ _ (Ne.symm hne)
  · rfl

theorem written_register_iff (q : ArmCore) (hm : q.mode = p.mode) (reg : RegNum) (h16 : reg ≠ 16)
    (v : Word) :
    currentRegister (armWriteRegister q reg v) reg = currentRegister p reg ↔ p.holds reg v := by
  have hmode := armWriteRegister_mode q reg v h16
  have hreg : (armWriteRegister q reg v).reg = registersWrite q.reg reg p.mode v := by
    rw [← hm]
    rfl
  rw [currentRegister, currentRegister, hmode, hm, hreg, registersRead_bank p.reg, ArmCore.holds,
    Cells.read]
  cases hb : bank (reg, p.mode) with
  | none =>
      rw [registersRead_bank, Cells.read, hb]
      exact iff_of_true rfl fun i hi => by cases hi
  | some i =>
      have hne : bank (reg, p.mode) ≠ none := by
        rw [hb]
        exact Option.some_ne_none i
      rw [registersRead_write_same _ _ _ _ hne]
      simp [eq_comm]

end Abort

theorem deliversNothing_iff (h : Host) (p : ArmCore) (ins : Word) (hn : rnNum ins ≠ 15)
    (ha : (armLoadStore h p ins).1 = DATA_ABORT) :
    DeliversNothing h p ins ↔
      bit ins 20 = false ∨ rdNum ins = rnNum ins ∨
        p.holds (rdNum ins) (uninitialised h ins) := by
  obtain ⟨hcode, hstate⟩ := armLoadStore_abort h p ins ha
  have hout := accessed_outside h p ins hn hcode
  have hmem : (armLoadStore h p ins).2.mem = p.mem := by
    rw [hstate, hout, ← preIndexed_mem h p ins]
    split <;> rfl
  have hdest : currentRegister (armLoadStore h p ins).2 (rdNum ins) =
        currentRegister p (rdNum ins) ∨ rdNum ins = rnNum ins ↔
      bit ins 20 = false ∨ rdNum ins = rnNum ins ∨
        p.holds (rdNum ins) (uninitialised h ins) := by
    rw [hstate, hout]
    by_cases hd : rdNum ins = rnNum ins
    · exact iff_of_true (Or.inr hd) (Or.inr (Or.inl hd))
    · rw [or_iff_left hd, or_iff_right (a := rdNum ins = rnNum ins) hd]
      cases h20 : bit ins 20 with
      | true =>
          rw [if_pos rfl, or_iff_right (by decide)]
          exact written_register_iff p _ (preIndexed_mode h p ins) _
            (ne_of_val_lt (rdNum_lt ins)).1 _
      | false =>
          rw [if_neg (by decide)]
          exact iff_of_true (preIndexed_register h p ins _ hd) (Or.inl rfl)
  rw [← hdest]
  constructor
  · intro hd
    by_cases he : rdNum ins = rnNum ins
    · exact Or.inr he
    · exact Or.inl (hd.dest he)
  · intro hor
    exact ⟨fun hne => hor.resolve_right hne, hmem⟩

-- STR R1, [R0] without memory.
theorem deliversNothing_store :
    DeliversNothing Host.blank (afterReset []) 0xE5801000 :=
  (deliversNothing_iff Host.blank (afterReset []) 0xE5801000 (by decide) (by decide)).mpr
    (Or.inl (by decide))

-- LDR R1, [R0] with a 7 left in the local: R1 held 0.
theorem deliversNothing_load :
    (armLoadStore { Host.blank with value := 7 } (afterReset []) 0xE5901000).1 = DATA_ABORT ∧
      ¬ DeliversNothing { Host.blank with value := 7 } (afterReset []) 0xE5901000 := by
  refine ⟨by decide, fun hd => ?_⟩
  have hkept := hd.dest (by decide)
  exact absurd hkept (by decide)

end Armator
