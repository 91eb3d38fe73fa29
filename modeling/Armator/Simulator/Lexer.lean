import Armator.Library.Lexing
import Armator.Simulator.Scanner

namespace Armator

open RegularExpression (char)

inductive Regle where
  | plus
  | moins
  | trame
  | autre
deriving DecidableEq, Repr

def octets : List Byte := (List.range 256).map (BitVec.ofNat 8)

def HEX : RegularExpression Byte := Lexing.oneOf (octets.filter Hex.isDigit)

-- `[^$#]*`
def charge : RegularExpression Byte :=
  (Lexing.oneOf (octets.filter fun c => c ≠ octet '$' ∧ c ≠ octet '#')).star

def regles : List (Regle × RegularExpression Byte) :=
  [(.plus, Lexing.oneOf [octet '+']),
    (.moins, Lexing.oneOf [octet '-']),
    (.trame, char (octet '$') * charge * char (octet '#') * HEX * HEX),
    (.autre, Lexing.oneOf (octets.filter fun c => c ≠ octet '\n'))]

def yylex (s : Texte) : List (Option Regle × Texte) := Lexing.tokens regles s

def Jeton.lexeme : Jeton → Option Regle × Texte
  | .plus => (some .plus, [octet '+'])
  | .moins => (some .moins, [octet '-'])
  | .trame text _ _ => (some .trame, text)
  | .autre c => (some .autre, [c])
  | .ligne => (none, [octet '\n'])

inductive Evenement where
  | appel (packet : Texte) (length : Nat)
  | ecriture (i : Nat)

namespace Parser

def erreurs (d : Parser) : List Evenement := if d.len ≠ 0 then [.ecriture d.len] else []

def evenements (d : Parser) : Jeton → List Evenement
  | .plus | .moins => d.erreurs
  | .trame text _ _ => d.erreurs ++ [.appel text text.length]
  | .autre _ => if d.len > MAX_ERROR_SIZE - 2 then d.erreurs ++ [.ecriture 0] else [.ecriture d.len]
  | .ligne => []

-- The scanner on the tokens of a stream; at its end the rule for `<<EOF>>`.
def journal (handler : Byte → Option Gdb.Handler) (d : Parser) : List Jeton → List Evenement
  | [] => d.erreurs
  | t :: ts =>
      d.evenements t ++
        match d.action handler t with
        | .ok d => journal handler d ts
        | .error _ => []

end Parser

def Evenement.appels : List Evenement → List (Texte × Nat)
  | [] => []
  | .appel packet length :: es => (packet, length) :: appels es
  | .ecriture _ :: es => appels es

end Armator
