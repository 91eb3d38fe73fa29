import Armator.Library.Fallible
import Armator.Simulator.Text
import Mathlib.Logic.Function.Basic

namespace Armator

def MAX_FILES_NUMBER : Nat := 64

-- A cell that holds no name is a null pointer.
structure Debug where
  debugged_files : Nat → Option Texte
  nb_debugged_files : Nat

namespace Debug

def lire (t : Debug) (i : Int) : Except Fault (Option Texte) :=
  if 0 ≤ i ∧ i < MAX_FILES_NUMBER then .ok (t.debugged_files i.toNat) else .error .debordement

def ecrire (t : Debug) (i : Int) (x : Option Texte) : Except Fault Debug :=
  if 0 ≤ i ∧ i < MAX_FILES_NUMBER then
    .ok { t with debugged_files := Function.update t.debugged_files i.toNat x }
  else .error .debordement

-- `strcmp(debugged_files[i], name)`.
def comparer (t : Debug) (i : Int) (name : Texte) : Except Fault Ordering := do
  match ← t.lire i with
  | some s => return strcmp s name
  | none => .error .pointeur

-- The loop of `add_debug_to` that looks for the place, `reste` names before the end.
def chercherPlace (t : Debug) (name : Texte) (i : Nat) : Nat → Except Fault Nat
  | 0 => return i
  | reste + 1 =>
      if i < MAX_FILES_NUMBER then do
        let result ← t.comparer i name
        if result = .lt then t.chercherPlace name (i + 1) reste else return i
      else return i

-- The loop of `add_debug_to` that moves the names, `reste` of them left above `i`.
def decaler (t : Debug) (i : Nat) : Nat → Except Fault Debug
  | 0 => return t
  | reste + 1 => do
      let x ← t.lire (i + reste)
      let t ← t.ecrire (i + reste + 1) x
      t.decaler i reste

def addDebugTo (t : Debug) (name : Texte) : Except Fault Debug := do
  let i ← t.chercherPlace name 0 t.nb_debugged_files
  if MAX_FILES_NUMBER ≤ i then return t
  else
    let t ← t.decaler i (t.nb_debugged_files - i)
    let t ← t.ecrire i (some name)
    return { t with nb_debugged_files := t.nb_debugged_files + 1 }

-- The loop of `__is_debugged` and the test behind it; `from` is `debut` and `to` is `fin`.
def chercher (t : Debug) (name : Texte) : Nat → Int → Int → Except Fault Int
  | 0, _, _ => .error .sansFin
  | fuel + 1, debut, fin =>
      if debut < fin then do
        let middle := (debut + fin) / 2
        let result ← t.comparer middle name
        if result = .lt then t.chercher name fuel (middle + 1) fin
        else if result = .gt then t.chercher name fuel debut (middle - 1)
        else return 1
      else if debut = fin then do
        let result ← t.comparer debut name
        if result = .eq then return 1 else return 0
      else return 0

def isDebugged (t : Debug) (name : Texte) : Except Fault Int :=
  t.chercher name (t.nb_debugged_files + 1) 0 (t.nb_debugged_files - 1)

end Debug

end Armator
