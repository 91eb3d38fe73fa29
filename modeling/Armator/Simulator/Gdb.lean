import Armator.Simulator.Create
import Armator.Simulator.Instruction
import Armator.Simulator.Text

namespace Armator

def MAX_PACKET_SIZE : Nat := 4096

def MAX_BREAKPOINTS_NUMBER : Nat := 1024

-- `sortie` is what was written to the socket, `ferme` its closing.
structure Gdb where
  arm : ArmCore
  target_exception : Int
  packet : Nat → Byte
  breakpoints : Nat → Word
  breakpoints_number : Nat
  len : Nat
  sortie : List Byte
  ferme : Bool

-- What a call of a handler leaves open: the host of each step, the number of steps after which
-- nothing is awaited any more, and the contents of the uninitialised variables.
structure Call where
  hosts : Nat → Host
  fuel : Nat
  type : Byte
  address : Word
  length : Word
  size : Word
  reg : Word
  given : Word
  value : Nat → Word

def Call.blank : Call where
  hosts := fun _ => Host.blank
  fuel := 0
  type := 0
  address := 0
  length := 0
  size := 0
  reg := 0
  given := 0
  value := fun _ => 0

namespace Gdb

def rioWriten (g : Gdb) (s : Texte) : Gdb := { g with sortie := g.sortie ++ s }

def ecrire (g : Gdb) (i : Nat) (c : Byte) : Except Fault Gdb :=
  if i < MAX_PACKET_SIZE then .ok { g with packet := Function.update g.packet i c }
  else .error .debordement

-- `strcpy` or `snprintf` to the place `i` of the packet.
def copier (g : Gdb) (i : Nat) : Texte → Except Fault Gdb
  | [] => g.ecrire i 0
  | c :: s => g.ecrire i c >>= fun g => g.copier (i + 1) s

def gdbTransmitPacket (g : Gdb) : Gdb := g.rioWriten ((List.range' 0 g.len).map g.packet)

def gdbRequireRetransmission (g : Gdb) : Gdb := g.rioWriten (texte "-")

def gdbSendAck (g : Gdb) : Gdb := g.rioWriten (texte "+")

-- The loop of `gdb_send_buffer` with `reste` bytes left in the packet.
def sommer (packet : Nat → Byte) (check : Byte) (i : Nat) : Nat → Except Fault (Nat × Byte)
  | 0 => .error .debordement
  | reste + 1 =>
      if packet i ≠ 0 then sommer packet (check + packet i) (i + 1) reste
      else .ok (i, check)

def gdbSendBuffer (g : Gdb) : Except Fault Gdb := do
  let g ← g.ecrire 0 (octet '$')
  let (i, check) ← sommer g.packet 0 1 (MAX_PACKET_SIZE - 1)
  let g ← g.ecrire i (octet '#')
  let i := i + 1
  let g ← g.copier i (hex2 check)
  let i := i + 2
  let g ← g.ecrire i 0
  return { g with len := i }.gdbTransmitPacket

def gdbSendData (g : Gdb) (data : Texte) : Except Fault Gdb := do
  let g ← g.copier 1 (chaine data)
  g.gdbSendBuffer

def stopReason (target_exception : Int) : Texte :=
  if target_exception = UNDEFINED_INSTRUCTION then texte "S04"
  else if target_exception = PREFETCH_ABORT then texte "S0A"
  else if target_exception = DATA_ABORT then texte "S0B"
  else if target_exception = END_SIMULATION then texte "X05"
  else texte "S05"

def gdbSendStopReason (g : Gdb) : Except Fault Gdb := g.gdbSendData (stopReason g.target_exception)

def lireBreakpoint (g : Gdb) (i : Nat) : Except Fault Word :=
  if i < MAX_BREAKPOINTS_NUMBER then .ok (g.breakpoints i) else .error .debordement

def ecrireBreakpoint (g : Gdb) (i : Nat) (address : Word) : Except Fault Gdb :=
  if i < MAX_BREAKPOINTS_NUMBER then
    .ok { g with breakpoints := Function.update g.breakpoints i address }
  else .error .debordement

-- The loop of `gdb_find_breakpoint` between `debut` and `fin`.
def chercher (g : Gdb) (address : Word) : Nat → Nat → Nat → Except Fault Int
  | 0, _, _ => .error .sansFin
  | fuel + 1, debut, fin =>
      if debut < fin then do
        let middle := (debut + fin) / 2
        let x ← g.lireBreakpoint middle
        if x > address then g.chercher address fuel debut middle
        else if x < address then g.chercher address fuel (middle + 1) fin
        else return middle
      else return -1

def gdbFindBreakpoint (g : Gdb) (address : Word) : Except Fault Int :=
  g.chercher address (g.breakpoints_number + 1) 0 g.breakpoints_number

-- The loop of `gdb_add_breakpoint`.
def decaler (g : Gdb) (address : Word) : Nat → Except Fault (Nat × Gdb)
  | 0 => return (0, g)
  | j + 1 => do
      let x ← g.lireBreakpoint j
      if x > address then
        let g ← g.ecrireBreakpoint (j + 1) x
        g.decaler address j
      else return (j + 1, g)

def gdbAddBreakpoint (g : Gdb) (address : Word) : Except Fault (Int × Gdb) :=
  if g.breakpoints_number < MAX_BREAKPOINTS_NUMBER then do
    let position ← g.gdbFindBreakpoint address
    if position ≠ -1 then return (1, g)
    else
      let j := g.breakpoints_number
      let g := { g with breakpoints_number := g.breakpoints_number + 1 }
      let (j, g) ← g.decaler address j
      let g ← g.ecrireBreakpoint j address
      return (1, g)
  else return (0, g)

-- The loop of `gdb_remove_breakpoint`, with `reste` cells to move.
def tasser (g : Gdb) (j : Nat) : Nat → Except Fault Gdb
  | 0 => return g
  | reste + 1 => do
      let x ← g.lireBreakpoint (j + 1)
      let g ← g.ecrireBreakpoint j x
      g.tasser (j + 1) reste

def gdbRemoveBreakpoint (g : Gdb) (address : Word) : Except Fault (Int × Gdb) := do
  let position ← g.gdbFindBreakpoint address
  if position = -1 then return (0, g)
  else
    let last := g.breakpoints_number - 1
    let g := { g with breakpoints_number := last }
    let g ← g.tasser position.toNat (last - position.toNat)
    return (1, g)

def gdbInitData (arm : ArmCore) (packet : Nat → Byte) (breakpoints : Nat → Word) : Gdb where
  arm := arm
  target_exception := 0
  packet := packet
  breakpoints := breakpoints
  breakpoints_number := 0
  len := 0
  sortie := []
  ferme := false

end Gdb

end Armator
