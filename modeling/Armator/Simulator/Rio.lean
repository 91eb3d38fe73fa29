import Armator.Simulator.Text

namespace Armator

namespace Rio

-- What one call of `write` meets: the bytes that the socket has room for, or a failure; and what
-- `errno` holds behind the call.
structure Ecriture where
  place : Option Nat
  EINTR : Bool

-- `write(fd, bufp, nleft)` takes no more than it is given.
def write (e : Ecriture) (nleft : Nat) : Int :=
  match e.place with
  | some n => (min n nleft : Nat)
  | none => -1

-- `retour` is absent while `rio_writen` waits for a call of `write` to end.
structure Envoi where
  retour : Option Int
  sortie : Texte
  ecritures : List Ecriture

-- The loop of `rio_writen`, `bufp` being the bytes left.
def boucle (n : Nat) : List Ecriture → Texte → Envoi
  | es, [] => ⟨some n, [], es⟩
  | [], _ :: _ => ⟨none, [], []⟩
  | e :: es, c :: bufp =>
      let nwritten := write e (c :: bufp).length
      if nwritten ≤ 0 then
        if e.EINTR then boucle n es (c :: bufp)
        else ⟨some (-1), [], es⟩
      else
        let r := boucle n es ((c :: bufp).drop nwritten.toNat)
        { r with sortie := (c :: bufp).take nwritten.toNat ++ r.sortie }

def rioWriten (es : List Ecriture) (usrbuf : Texte) : Envoi := boucle usrbuf.length es usrbuf

-- How a process stands after its calls of `Rio_writen`: behind them, waiting in one, or ended by
-- `unix_error`.
inductive Issue where
  | rendu
  | attente
  | unixError
deriving DecidableEq

structure Emission where
  issue : Issue
  sortie : Texte

def emettre : List Ecriture → List Texte → Emission
  | _, [] => ⟨.rendu, []⟩
  | es, s :: ss =>
      let r := rioWriten es s
      match r.retour with
      | none => ⟨.attente, r.sortie⟩
      | some n =>
          if n ≠ s.length then ⟨.unixError, r.sortie⟩
          else
            let m := emettre r.ecritures ss
            { m with sortie := r.sortie ++ m.sortie }

end Rio

end Armator
