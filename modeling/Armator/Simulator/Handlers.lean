import Armator.Simulator.Gdb

namespace Armator

namespace Gdb

def singleStep (h : Host) (g : Gdb) : Gdb :=
  let (result, arm) := armStep h g.arm
  { g with arm := arm, target_exception := result }

def singleStepWithSignal (h : Host) (g : Gdb) : Gdb := singleStep h g

-- The loop of `cont`, which may take `fuel` steps.
def continuer (hosts : Nat → Host) (g : Gdb) : Nat → Except Fault Gdb
  | 0 => .error .sansFin
  | fuel + 1 => do
      let g := singleStep (hosts 0) g
      let PC := registersRead g.arm.reg 15 (registersGetMode g.arm.reg)
      let position ← g.gdbFindBreakpoint PC
      let stop := if position ≠ -1 then 1 else g.target_exception
      if stop = 0 then continuer (fun i => hosts (i + 1)) g fuel
      else g.gdbSendStopReason

def cont (c : Call) (g : Gdb) (_ : Texte) : Except Fault Gdb := continuer c.hosts g c.fuel

def contWithSignal (c : Call) (g : Gdb) (data : Texte) : Except Fault Gdb := cont c g data

def killRequest (_ : Call) (g : Gdb) (_ : Texte) : Except Fault Gdb := return { g with ferme := true }

def reponse (data : Texte) : Texte :=
  if chaine data = texte "Offsets" then texte "Text=0;Data=0;Bss=0"
  else if (chaine data).take 9 = texte "Supported" then texte "PacketSize=400"
  else if chaine data = texte "TStatus" then texte "T0;tnotrun:0"
  else if chaine data = texte "Symbol::" then texte ""
  else texte ""

def query (_ : Call) (g : Gdb) (data : Texte) : Except Fault Gdb := g.gdbSendData (reponse data)

def readUint32 (data : Texte) (value : Word) : Word := sscanf08X data value

def writeUint32 (g : Gdb) (i : Nat) (value : Word) : Except Fault Gdb := g.copier i (hex8 value)

def readRegister (g : Gdb) (i : Nat) (reg : Byte) : Except Fault Gdb :=
  if h : reg.toNat < 16 then
    let reg : RegNum := ⟨reg.toNat, Nat.lt_trans h (by decide)⟩
    g.writeUint32 i (registersRead g.arm.reg reg (registersGetMode g.arm.reg))
  else .error .assertion

-- R0 to PC from the place `position` on; `reste` of them remain.
def lireGeneraux (g : Gdb) (position : Nat) : Nat → Except Fault (Nat × Gdb)
  | 0 => return (position, g)
  | reste + 1 => do
      let g ← g.readRegister position (BitVec.ofNat 8 (16 - (reste + 1)))
      g.lireGeneraux (position + 8) reste

def inconnus (g : Gdb) (position : Nat) : Nat → Except Fault (Nat × Gdb)
  | 0 => return (position, g)
  | reste + 1 => do
      let g ← g.copier position (texte "xxxxxxxx")
      g.inconnus (position + 8) reste

def readGeneralRegisters (_ : Call) (g : Gdb) (_ : Texte) : Except Fault Gdb := do
  let (position, g) ← g.lireGeneraux 1 16
  let (position, g) ← g.inconnus position (8 * 3)
  let g ← g.copier position (texte "xxxxxxxx")
  let position := position + 8
  let g ← g.writeUint32 position (registersReadCpsr g.arm.reg)
  g.gdbSendBuffer

-- The loop of `read_memory`; `size` counts down to zero.
def lireOctets (g : Gdb) (address : Word) (position : Nat) : Nat → Except Fault Gdb
  | 0 => return g
  | size + 1 =>
      let (result, value) := memoryReadByte g.arm.mem address 0
      if result ≠ -1 then do
        let g ← g.copier position (hex2 value)
        g.lireOctets (address + 1) (position + 2) size
      else return g

def readMemory (c : Call) (g : Gdb) (data : Texte) : Except Fault Gdb := do
  let (address, size) := sscanfXX data c.address c.size
  let position := 1
  let g ←
    if address.toNat < g.arm.mem.size then do
      let g ← g.ecrire position 0
      g.lireOctets address position size.toNat
    else g.copier position (texte "E0E")
  g.gdbSendBuffer

def readSingleRegister (_ : Call) (g : Gdb) (data : Texte) : Except Fault Gdb := do
  let reg := atoi data
  let g ← g.readRegister 1 (reg.setWidth 8)
  g.gdbSendBuffer

def reason (_ : Call) (g : Gdb) (_ : Texte) : Except Fault Gdb := g.gdbSendStopReason

def setThread (_ : Call) (g : Gdb) (data : Texte) : Except Fault Gdb :=
  let type := data.headD 0
  let value := (atoi (data.drop 1)).toInt
  if (type = octet 'c' ∨ type = octet 'g') ∧ value < 1 ∧ value > -2 then g.gdbSendData (texte "OK")
  else g.gdbSendData (texte "E01")

def step (c : Call) (g : Gdb) (_ : Texte) : Except Fault Gdb :=
  (singleStep (c.hosts 0) g).gdbSendStopReason

def stepWithSignal (c : Call) (g : Gdb) (_ : Texte) : Except Fault Gdb :=
  (singleStepWithSignal (c.hosts 0) g).gdbSendStopReason

def writeRegister (g : Gdb) (reg : Word) (data : Texte) (value : Word) : Except Fault Gdb :=
  let value := readUint32 data value
  if h : reg.toNat < 16 then
    let reg : RegNum := ⟨reg.toNat, Nat.lt_trans h (by decide)⟩
    let r := registersWrite g.arm.reg reg (registersGetMode g.arm.reg) value
    return { g with arm := { g.arm with reg := r } }
  else .error .assertion

def ecrireGeneraux (c : Call) (g : Gdb) (position : Texte) : Nat → Except Fault (Texte × Gdb)
  | 0 => return (position, g)
  | reste + 1 => do
      let i := 16 - (reste + 1)
      let g ← g.writeRegister (BitVec.ofNat 32 i) position (c.value i)
      ecrireGeneraux c g (position.drop 8) reste

def writeGeneralRegisters (c : Call) (g : Gdb) (data : Texte) : Except Fault Gdb := do
  let (position, g) ← ecrireGeneraux c g data 16
  let position := position.drop (8 * 3 * 8)
  let position := position.drop 8
  let value := readUint32 position (c.value 16)
  let g := { g with arm := { g.arm with reg := registersWriteCpsr g.arm.reg value } }
  g.gdbSendData (texte "OK")

def writeSingleRegister (c : Call) (g : Gdb) (data : Texte) : Except Fault Gdb := do
  let reg := sscanfX data c.reg
  match index (octet '=') data with
  | none => .error .pointeur
  | some data =>
      let g ← g.writeRegister reg (data.drop 1) (c.value 0)
      g.gdbSendData (texte "OK")

-- One turn of the loop of `write_memory_binary`: the byte read and the text behind it.
def decoder (content : Texte) : Byte × Texte :=
  if content.headD 0 = 0x7d then
    let content := content.drop 1
    (content.headD 0 ^^^ 0x20, content.drop 1)
  else (content.headD 0, content.drop 1)

-- The loop of `write_memory_binary`: `content` is `none` when there was no `:` to start from.
def ecrireOctets (g : Gdb) (address : Word) (content : Option Texte) :
    Nat → Except Fault (Bool × Gdb)
  | 0 => return (true, g)
  | size + 1 =>
      match content with
      | none => .error .pointeur
      | some content =>
          let (value, content) := decoder content
          let (result, mem) := memoryWriteByte g.arm.mem address value
          let g := { g with arm := { g.arm with mem := mem } }
          if result = 0 then g.ecrireOctets (address + 1) (some content) size
          else return (false, g)

def writeMemoryBinary (c : Call) (g : Gdb) (data : Texte) : Except Fault Gdb := do
  let (address, size) := sscanfXX data c.address c.size
  let content := (index (octet ':') data).map (List.drop 1)
  let (write_ok, g) ←
    if address.toNat < g.arm.mem.size then g.ecrireOctets address content size.toNat
    else pure (false, g)
  if write_ok then g.gdbSendData (texte "OK")
  else g.gdbSendData (texte "E02")

def setBreakpoint (c : Call) (g : Gdb) (data : Texte) : Except Fault Gdb :=
  let (type, address, _) := sscanfHhxXX data c.type c.address c.length
  if type ≠ 0 then g.gdbSendData (texte "E03")
  else do
    let (result, g) ← g.gdbAddBreakpoint address
    if result ≠ 0 then g.gdbSendData (texte "OK")
    else g.gdbSendData (texte "E04")

def removeBreakpoint (c : Call) (g : Gdb) (data : Texte) : Except Fault Gdb :=
  let (type, address, _) := sscanfHhxXX data c.type c.address c.length
  if type ≠ 0 then g.gdbSendData (texte "E03")
  else do
    let (result, g) ← g.gdbRemoveBreakpoint address
    if result ≠ 0 then g.gdbSendData (texte "OK")
    else g.gdbSendData (texte "E05")

abbrev Handler := Call → Gdb → Texte → Except Fault Gdb

def handlers : List (Byte × Handler) :=
  [(octet 'c', cont),
    (octet 'C', contWithSignal),
    (octet 'k', killRequest),
    (octet 'q', query),
    (octet 'g', readGeneralRegisters),
    (octet 'm', readMemory),
    (octet 'p', readSingleRegister),
    (octet '?', reason),
    (octet 'H', setThread),
    (octet 's', step),
    (octet 'S', stepWithSignal),
    (octet 'G', writeGeneralRegisters),
    (octet 'X', writeMemoryBinary),
    (octet 'P', writeSingleRegister),
    (octet 'z', removeBreakpoint),
    (octet 'Z', setBreakpoint)]

def handler (index : Byte) : Option Handler := handlers.lookup index

-- `packet` is the memory from the received packet on, `handler` the table in force.
def gdbPacketAnalysis (handler : Byte → Option Handler) (c : Call) (g : Gdb) (packet : Texte)
    (length : Nat) : Except Fault Gdb :=
  let i := max 1 (length - 3)
  let check := ((packet.take i).drop 1).sum
  let given := sscanfX (packet.drop (i + 1)) c.given
  if check.setWidth 32 = given then
    let g := g.gdbSendAck
    let packet := packet.set i 0
    match handler (packet.getD 1 0) with
    | some f => f c g (packet.drop 2)
    | none => g.gdbSendData (texte "")
  else return g.gdbRequireRetransmission

end Gdb

end Armator
