import Armator.Architecture.ErrorBuffer
import Armator.Architecture.Tokens

namespace Armator

structure SoundFrame where
  payload : Texte
  high : Byte
  low : Byte
  undelimited : Undelimited payload
  isDigit_high : Hex.isDigit high = true
  isDigit_low : Hex.isDigit low = true

def SoundFrame.text (f : SoundFrame) : Texte := trame f.payload f.high f.low

structure Noise where
  bytes : Texte
  quiet : octet '#' ∉ bytes

structure NoisyStream where
  before : Noise
  frames : List (SoundFrame × Noise)

def appelDe : Option Regle × Texte → Option (Texte × Nat)
  | (some .trame, text) => some (text, text.length)
  | _ => none

theorem appelDe_lexeme (t : Jeton) : appelDe t.lexeme = t.appel := by
  cases t <;> rfl

namespace Noise

def lexemes (g : Noise) : List (Option Regle × Texte) := g.bytes.map fun c => (regleSeule c, [c])

theorem appels_lexemes (g : Noise) : g.lexemes.filterMap appelDe = [] := by
  rw [List.filterMap_eq_nil_iff]
  intro x hx
  obtain ⟨c, _, rfl⟩ := List.mem_map.mp hx
  rw [regleSeule]
  split_ifs <;> rfl

end Noise

namespace NoisyStream

def following : List (SoundFrame × Noise) → Texte
  | [] => []
  | (f, g) :: fs => f.text ++ (g.bytes ++ following fs)

def bytes (s : NoisyStream) : Texte := s.before.bytes ++ following s.frames

def calls (s : NoisyStream) : List (Texte × Nat) :=
  s.frames.map fun fg => (fg.1.text, fg.1.text.length)

def lexemes (s : NoisyStream) : List (Option Regle × Texte) :=
  s.before.lexemes ++ s.frames.flatMap fun fg => (some .trame, fg.1.text) :: fg.2.lexemes

theorem following_head (fs : List (SoundFrame × Noise)) :
    following fs = [] ∨ (following fs).head? = some (octet '$') := by
  cases fs with
  | nil => exact Or.inl rfl
  | cons fg fs => exact Or.inr rfl

theorem yylex_following (fs : List (SoundFrame × Noise)) :
    yylex (following fs) = fs.flatMap fun fg => (some .trame, fg.1.text) :: fg.2.lexemes := by
  induction fs with
  | nil => exact yylex_nil
  | cons fg fs ih =>
      obtain ⟨f, g⟩ := fg
      rw [following, SoundFrame.text,
        yylex_trame _ _ _ _ f.undelimited f.isDigit_high f.isDigit_low,
        yylex_noise _ _ g.quiet (following_head fs), ih]
      rfl

theorem yylex_bytes (s : NoisyStream) : yylex s.bytes = s.lexemes := by
  rw [bytes, yylex_noise _ _ s.before.quiet (following_head s.frames), yylex_following]
  rfl

theorem appels_lexemes (s : NoisyStream) : s.lexemes.filterMap appelDe = s.calls := by
  rw [lexemes, List.filterMap_append, s.before.appels_lexemes, List.nil_append, calls]
  induction s.frames with
  | nil => rfl
  | cons fg fs ih =>
      have hf : appelDe (some .trame, fg.1.text) = some (fg.1.text, fg.1.text.length) := rfl
      rw [List.flatMap_cons, List.filterMap_append, ih, List.map_cons,
        List.filterMap_cons_some hf, fg.2.appels_lexemes]
      rfl

end NoisyStream

theorem scanner_resynchronises (handler : Byte → Option Gdb.Handler) (arm : ArmCore)
    (packet : Nat → Byte) (breakpoints : Nat → Word) (buffer : Nat → Byte) (s : NoisyStream)
    (ts : List Jeton) (hts : ts.map Jeton.lexeme = yylex s.bytes) :
    (∀ i, .ecriture i ∈ (gdbScanner arm packet breakpoints buffer).journal handler ts →
        i < MAX_ERROR_SIZE) ∧
      (Evenement.appels ((gdbScanner arm packet breakpoints buffer).journal handler ts) = s.calls ∨
        ∃ n, Parser.Interrompu handler (gdbScanner arm packet breakpoints buffer) ts n ∧
          Evenement.appels ((gdbScanner arm packet breakpoints buffer).journal handler ts) =
            s.calls.take n) := by
  have hd : (gdbScanner arm packet breakpoints buffer).Borne := by
    change 0 < MAX_ERROR_SIZE
    decide
  have hcalls : ts.filterMap Jeton.appel = s.calls := by
    rw [← s.appels_lexemes, ← s.yylex_bytes, ← hts, List.filterMap_map]
    exact List.filterMap_congr fun t _ => (appelDe_lexeme t).symm
  rw [← hcalls]
  exact ⟨Parser.journal_inside handler hd ts, Parser.journal_appels handler hd ts⟩

-- A frame cut short, `$?#3f`, then a request for retransmission.
def cutThenSound : NoisyStream where
  before := ⟨texte "$a\n", by decide⟩
  frames := [(⟨texte "?", octet '3', octet 'f', by decide, by decide, by decide⟩,
    ⟨texte "-", by decide⟩)]

theorem cut_then_sound :
    Evenement.appels ((gdbScanner (afterReset []) (fun _ => 0) (fun _ => 0) fun _ => 0).journal
        Gdb.handler
        [.autre (octet '$'), .autre (octet 'a'), .ligne, .trame (texte "$?#3f") [] Call.blank,
          .moins]) = [(texte "$?#3f", 5)] ∧
      (∀ i, .ecriture i ∈ (gdbScanner (afterReset []) (fun _ => 0) (fun _ => 0)
          fun _ => 0).journal Gdb.handler
          [.autre (octet '$'), .autre (octet 'a'), .ligne, .trame (texte "$?#3f") [] Call.blank,
            .moins] → i < MAX_ERROR_SIZE) := by
  refine ⟨rfl, ?_⟩
  exact (scanner_resynchronises Gdb.handler (afterReset []) (fun _ => 0) (fun _ => 0)
    (fun _ => 0) cutThenSound _ (by rw [NoisyStream.yylex_bytes]; rfl)).1

-- `$p20#d2` asks for a register that is not there, and the assertion ends the simulator.
def askedBeyond : NoisyStream where
  before := ⟨[], by decide⟩
  frames := [(⟨texte "p20", octet 'd', octet '2', by decide, by decide, by decide⟩, ⟨[], by decide⟩),
    (⟨texte "?", octet '3', octet 'f', by decide, by decide, by decide⟩, ⟨[], by decide⟩)]

theorem lost_call_ends_calls :
    [.trame (texte "$p20#d2") [] Call.blank, .trame (texte "$?#3f") [] Call.blank].map
        Jeton.lexeme = yylex askedBeyond.bytes ∧
      Evenement.appels ((gdbScanner (afterReset []) (fun _ => 0) (fun _ => 0) fun _ => 0).journal
        Gdb.handler
        [.trame (texte "$p20#d2") [] Call.blank, .trame (texte "$?#3f") [] Call.blank]) ≠
          askedBeyond.calls := by
  refine ⟨?_, ?_⟩
  · rw [NoisyStream.yylex_bytes]
    rfl
  · have he : Evenement.appels
        ((gdbScanner (afterReset []) (fun _ => 0) (fun _ => 0) fun _ => 0).journal Gdb.handler
          [.trame (texte "$p20#d2") [] Call.blank, .trame (texte "$?#3f") [] Call.blank]) =
        [(texte "$p20#d2", 7)] := rfl
    rw [he]
    exact fun h => absurd (congrArg List.length h) (by decide)

end Armator
