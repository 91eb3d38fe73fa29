import Armator.Library.Hex
import Armator.Simulator.Util
import Mathlib.Data.List.TakeWhile

namespace Armator

inductive Fault where
  | debordement
  | assertion
  | pointeur
  | sansFin
  deriving DecidableEq

-- The bytes from a `char *` on; behind the end of the list the memory is taken to be zero.
abbrev Texte := List Byte

def octet (c : Char) : Byte := BitVec.ofNat 8 c.toNat

def texte (s : String) : Texte := s.toList.map octet

def chaine (s : Texte) : Texte := s.takeWhile (· ≠ 0)

theorem chaine_ne_zero (s : Texte) : ∀ c ∈ chaine s, c ≠ 0 := by
  intro c hc
  have hp := List.mem_takeWhile_imp hc
  simpa using hp

theorem chaine_eq_self (s : Texte) (h : ∀ c ∈ s, c ≠ 0) : chaine s = s :=
  List.takeWhile_eq_self_iff.mpr fun c hc => decide_eq_true (h c hc)

-- The sign of `strcmp`: the strings are compared as `unsigned char`.
def strcmp (s t : Texte) : Ordering := compare (chaine s) (chaine t)

instance : Std.TransCmp strcmp where
  eq_swap {s t} := @Std.OrientedCmp.eq_swap Texte compare _ (chaine s) (chaine t)
  isLE_trans {s t u} := @Std.TransCmp.isLE_trans Texte compare _ (chaine s) (chaine t) (chaine u)

def isspace (c : Byte) : Bool := c = octet ' ' || (9 ≤ c.toNat && c.toNat ≤ 13)

def isdigit (c : Byte) : Bool := 48 ≤ c.toNat && c.toNat ≤ 57

def hex2 (x : Byte) : Texte := Hex.print 2 x.toNat

def hex8 (x : Word) : Texte := Hex.print 8 x.toNat

-- The number that `strtoul` makes of the digits, as `sscanf` stores it in an `unsigned int`.
def strtoul (moins : Bool) (n : Nat) : Word :=
  if 2 ^ 64 ≤ n then BitVec.allOnes 32
  else if moins then -BitVec.ofNat 32 n else BitVec.ofNat 32 n

def signe (width : Nat) : Texte → Bool × Nat × Texte
  | c :: s =>
      if width = 0 then (false, width, c :: s)
      else if c = octet '+' then (false, width - 1, s)
      else if c = octet '-' then (true, width - 1, s)
      else (false, width, c :: s)
  | [] => (false, width, [])

def prefixe (width : Nat) : Texte → Nat × Texte
  | c :: x :: s =>
      if 2 ≤ width ∧ c = octet '0' ∧ (x = octet 'x' ∨ x = octet 'X') then (width - 2, s)
      else (width, c :: x :: s)
  | s => (width, s)

def scanX (width : Nat) (s : Texte) : Option (Word × Texte) :=
  let s := s.dropWhile isspace
  let (moins, width, s) := signe width s
  let (width, s) := prefixe width s
  let chiffres := (s.take width).takeWhile Hex.isDigit
  if chiffres = [] then none
  else some (strtoul moins (Hex.eval chiffres), s.drop chiffres.length)

def sscanfX (s : Texte) (x : Word) : Word :=
  match scanX s.length s with
  | some (x, _) => x
  | none => x

def sscanf08X (s : Texte) (x : Word) : Word :=
  match scanX 8 s with
  | some (x, _) => x
  | none => x

def virgule : Texte → Option Texte
  | c :: s => if c = octet ',' then some s else none
  | [] => none

def sscanfXX (s : Texte) (x y : Word) : Word × Word :=
  match scanX s.length s with
  | none => (x, y)
  | some (x, s) =>
      match virgule s with
      | none => (x, y)
      | some s => (x, sscanfX s y)

def sscanfHhxXX (s : Texte) (x : Byte) (y z : Word) : Byte × Word × Word :=
  match scanX s.length s with
  | none => (x, y, z)
  | some (x, s) =>
      match virgule s with
      | none => (x.setWidth 8, y, z)
      | some s => (x.setWidth 8, sscanfXX s y z)

-- `strtol` stops at the bounds of a `long`, whose low half `atoi` returns.
def atoi (s : Texte) : Word :=
  let (moins, _, s) := signe s.length (s.dropWhile isspace)
  let n := (s.takeWhile isdigit).foldl (fun n c => 10 * n + (c.toNat - 48)) 0
  if moins then BitVec.ofInt 32 (-(min n (2 ^ 63) : Nat)) else BitVec.ofNat 32 (min n (2 ^ 63 - 1))

def index (c : Byte) : Texte → Option Texte
  | [] => none
  | x :: s => if x = c then some (x :: s) else if x = 0 then none else index c s

end Armator
