import Armator.Library.Fallible
import Armator.Simulator.Lexer

namespace Armator

def Jeton.appel : Jeton → Option (Texte × Nat)
  | .trame text _ _ => some (text, text.length)
  | _ => none

namespace Parser

variable (handler : Byte → Option Gdb.Handler)

def Borne (d : Parser) : Prop := d.len < MAX_ERROR_SIZE

def Perdu (d : Parser) : Jeton → Prop
  | .trame text suite call => ∃ d₁ e, d.handleError = .ok d₁ ∧
      d₁.gdb.gdbPacketAnalysis handler call (text ++ 0 :: suite) text.length = .error e
  | _ => False

inductive Interrompu : Parser → List Jeton → Nat → Prop
  | ici {d : Parser} {t : Jeton} {ts : List Jeton} (h : d.Perdu handler t) :
      Interrompu d (t :: ts) t.appel.toList.length
  | apres {d d' : Parser} {t : Jeton} {ts : List Jeton} {n : Nat} (h : d.action handler t = .ok d')
      (hs : Interrompu d' ts n) : Interrompu d (t :: ts) (t.appel.toList.length + n)

variable {d : Parser}

theorem ecrireBuffer_inside (d : Parser) (i : Nat) (c : Byte) (hi : i < MAX_ERROR_SIZE) :
    ∃ d', d.ecrireBuffer i c = .ok d' ∧ d'.len = d.len := by
  rw [ecrireBuffer, if_pos hi]
  exact ⟨_, rfl, rfl⟩

theorem handleError_returns (hd : d.Borne) : ∃ d', d.handleError = .ok d' ∧ d'.len = 0 := by
  rw [handleError]
  split
  · obtain ⟨d₁, hw, _⟩ := ecrireBuffer_inside d d.len 0 hd
    rw [hw]
    exact ⟨_, rfl, rfl⟩
  · rename_i hz
    exact ⟨d, rfl, not_not.mp hz⟩

theorem action_returns (hd : d.Borne) (t : Jeton) :
    (∃ d', d.action handler t = .ok d' ∧ d'.Borne) ∨
      (d.Perdu handler t ∧ ∃ e, d.action handler t = .error e) := by
  have hmax : 0 < MAX_ERROR_SIZE := by decide
  obtain ⟨d₁, h₁, h0⟩ := handleError_returns hd
  have hzero : d₁.Borne := by
    rw [Borne, h0]
    exact hmax
  cases t with
  | plus => exact Or.inl ⟨d₁, h₁, hzero⟩
  | moins =>
      rw [action, h₁]
      exact Or.inl ⟨_, rfl, hzero⟩
  | trame text suite call =>
      rw [action, h₁]
      cases ha : d₁.gdb.gdbPacketAnalysis handler call (text ++ 0 :: suite) text.length with
      | error e =>
          rw [Fallible.ok_bind, ha]
          exact Or.inr ⟨⟨d₁, e, h₁, ha⟩, e, rfl⟩
      | ok g =>
          rw [Fallible.ok_bind, ha]
          exact Or.inl ⟨_, rfl, hzero⟩
  | autre c =>
      have hlast : 1 < MAX_ERROR_SIZE := by decide
      rw [action, addCharacterToError]
      split
      · obtain ⟨d₂, hw, hlen⟩ := ecrireBuffer_inside { d₁ with len := d₁.len + 1 } d₁.len c hzero
        rw [h₁, Fallible.ok_bind]
        refine Or.inl ⟨d₂, hw, ?_⟩
        rw [Borne, hlen]
        simpa [h0] using hlast
      · rename_i hfree
        obtain ⟨d₂, hw, hlen⟩ := ecrireBuffer_inside { d with len := d.len + 1 } d.len c hd
        refine Or.inl ⟨d₂, hw, ?_⟩
        rw [Borne, hlen]
        unfold MAX_ERROR_SIZE at hfree ⊢
        simp only
        omega
  | ligne => exact Or.inl ⟨d, rfl, hd⟩

theorem erreurs_inside (hd : d.Borne) (i : Nat) (hi : .ecriture i ∈ d.erreurs) :
    i < MAX_ERROR_SIZE := by
  rw [erreurs] at hi
  split at hi
  · cases List.mem_singleton.mp hi
    exact hd
  · cases hi

theorem evenements_inside (hd : d.Borne) (t : Jeton) (i : Nat)
    (hi : .ecriture i ∈ d.evenements t) : i < MAX_ERROR_SIZE := by
  cases t with
  | plus => exact erreurs_inside hd i hi
  | moins => exact erreurs_inside hd i hi
  | trame text suite call =>
      rw [evenements, List.mem_append, List.mem_singleton] at hi
      rcases hi with hi | hi
      · exact erreurs_inside hd i hi
      · cases hi
  | autre c =>
      rw [evenements] at hi
      split at hi
      · rw [List.mem_append, List.mem_singleton] at hi
        rcases hi with hi | hi
        · exact erreurs_inside hd i hi
        · cases hi
          decide
      · cases List.mem_singleton.mp hi
        exact hd
  | ligne => cases hi

theorem journal_inside (hd : d.Borne) (ts : List Jeton) (i : Nat)
    (hi : .ecriture i ∈ d.journal handler ts) : i < MAX_ERROR_SIZE := by
  induction ts generalizing d with
  | nil => exact erreurs_inside hd i hi
  | cons t ts ih =>
      rw [journal, List.mem_append] at hi
      rcases hi with hi | hi
      · exact evenements_inside hd t i hi
      · rcases action_returns handler hd t with ⟨d₁, h₁, hd₁⟩ | ⟨_, e, h₁⟩
        · rw [h₁] at hi
          exact ih hd₁ hi
        · rw [h₁] at hi
          cases hi

theorem appels_append (es fs : List Evenement) :
    Evenement.appels (es ++ fs) = Evenement.appels es ++ Evenement.appels fs := by
  induction es with
  | nil => rfl
  | cons e es ih =>
      cases e with
      | appel packet length => exact congrArg ((packet, length) :: ·) ih
      | ecriture i => exact ih

theorem appels_erreurs (d : Parser) : Evenement.appels d.erreurs = [] := by
  rw [erreurs]
  split <;> rfl

theorem appels_evenements (d : Parser) (t : Jeton) :
    Evenement.appels (d.evenements t) = t.appel.toList := by
  cases t with
  | plus => exact appels_erreurs d
  | moins => exact appels_erreurs d
  | trame text suite call =>
      rw [evenements, appels_append, appels_erreurs]
      rfl
  | autre c =>
      rw [evenements]
      split
      · rw [appels_append, appels_erreurs]
        rfl
      · rfl
  | ligne => rfl

theorem journal_appels (hd : d.Borne) (ts : List Jeton) :
    Evenement.appels (d.journal handler ts) = ts.filterMap Jeton.appel ∨
      ∃ n, Interrompu handler d ts n ∧
        Evenement.appels (d.journal handler ts) = (ts.filterMap Jeton.appel).take n := by
  induction ts generalizing d with
  | nil => exact Or.inl (appels_erreurs d)
  | cons t ts ih =>
      have hcons : (t :: ts).filterMap Jeton.appel = t.appel.toList ++ ts.filterMap Jeton.appel := by
        cases h : t.appel with
        | none => rw [List.filterMap_cons_none h]; rfl
        | some x => rw [List.filterMap_cons_some h]; rfl
      rw [journal, appels_append, appels_evenements, hcons]
      rcases action_returns handler hd t with ⟨d₁, h₁, hd₁⟩ | ⟨hp, e, h₁⟩
      · rw [h₁]
        rcases ih hd₁ with he | ⟨n, hs, he⟩
        · exact Or.inl (congrArg (t.appel.toList ++ ·) he)
        · refine Or.inr ⟨t.appel.toList.length + n, .apres h₁ hs, ?_⟩
          rw [List.take_length_add_append]
          exact congrArg (t.appel.toList ++ ·) he
      · rw [h₁]
        refine Or.inr ⟨t.appel.toList.length, .ici hp, ?_⟩
        rw [List.take_left]
        exact List.append_nil _

end Parser

end Armator
