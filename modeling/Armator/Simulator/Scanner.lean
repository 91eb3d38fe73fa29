import Armator.Simulator.Handlers

namespace Armator

def MAX_ERROR_SIZE : Nat := 1024

structure Parser where
  gdb : Gdb
  buffer : Nat → Byte
  len : Nat

namespace Parser

def ecrireBuffer (d : Parser) (i : Nat) (c : Byte) : Except Fault Parser :=
  if i < MAX_ERROR_SIZE then .ok { d with buffer := Function.update d.buffer i c }
  else .error .debordement

def handleError (d : Parser) : Except Fault Parser :=
  if d.len ≠ 0 then do
    let d ← d.ecrireBuffer d.len 0
    return { d with gdb := d.gdb.gdbRequireRetransmission, len := 0 }
  else return d

def addCharacterToError (d : Parser) (c : Byte) : Except Fault Parser := do
  let d ← if d.len > MAX_ERROR_SIZE - 2 then d.handleError else pure d
  let i := d.len
  let d := { d with len := d.len + 1 }
  d.ecrireBuffer i c

end Parser

-- What the rules of the scanner match. A frame comes with the memory behind its text and with
-- what the call of its handler leaves open; the default rule echoes a newline elsewhere.
inductive Jeton where
  | plus
  | moins
  | trame (text suite : Texte) (call : Call)
  | autre (c : Byte)
  | ligne

-- `"$"[^$#]*"#"{HEX}{HEX}` at the head of the text: the length of the match.
def queue : Texte → Option Nat
  | h :: l :: _ => if Hex.isDigit h ∧ Hex.isDigit l then some 3 else none
  | _ => none

def corps : Texte → Option Nat
  | [] => none
  | c :: s =>
      if c = octet '#' then queue s
      else if c = octet '$' then none
      else (corps s).map (· + 1)

def paquet : Texte → Option Nat
  | c :: s => if c = octet '$' then (corps s).map (· + 1) else none
  | [] => none

namespace Parser

def action (handler : Byte → Option Gdb.Handler) (d : Parser) : Jeton → Except Fault Parser
  | .plus => d.handleError
  | .moins => do
      let d ← d.handleError
      return { d with gdb := d.gdb.gdbTransmitPacket }
  | .trame text suite call => do
      let d ← d.handleError
      let gdb ← d.gdb.gdbPacketAnalysis handler call (text ++ 0 :: suite) text.length
      return { d with gdb := gdb }
  | .autre c => d.addCharacterToError c
  | .ligne => return d

end Parser

def gdbScanner (arm : ArmCore) (packet : Nat → Byte) (breakpoints : Nat → Word)
    (buffer : Nat → Byte) : Parser where
  gdb := Gdb.gdbInitData arm packet breakpoints
  buffer := buffer
  len := 0

end Armator
