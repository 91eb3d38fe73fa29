import Armator.Architecture.BreakpointSet
import Armator.Architecture.BinaryWrites
import Armator.Architecture.GeneralRegisters
import Armator.Properties.Continue

namespace Armator

open DoWhile

-- The target as its debugger thinks of it: the code of the last step, the machine, and the set of
-- the breakpoints.
structure Target where
  code : Int
  arm : ArmCore
  breakpoints : Finset Word

inductive Command where
  | why
  | readRegisters
  | writeRegisters (v : Nat → Word) (cpsr : Word)
  | readRegister (n : Nat)
  | writeRegister (n : Nat) (x : Word)
  | readMemory (address size : Word)
  | download (address : Word) (bs : List Byte)
  | insert (address : Word)
  | remove (address : Word)
  | step
  | resume
  | select (kind : Byte)
  | query (name : Texte)
  | unsupported

instance (s : Finset Word) : DecidablePred (stopped (s : Set Word)) := fun x =>
  inferInstanceAs (Decidable (x.2.pc ∈ s ∨ x.1 ≠ 0))

namespace Target

def machine (t : Target) : Int × ArmCore := (t.code, t.arm)

def withMachine (t : Target) (x : Int × ArmCore) : Target := { t with code := x.1, arm := x.2 }

def withRegisters (t : Target) (r : Registers) : Target := { t with arm := { t.arm with reg := r } }

def withMemory (t : Target) (mem : Memory) : Target := { t with arm := { t.arm with mem := mem } }

def edit (t : Target) (e : Edit) (refusal : Texte) : Texte × Target :=
  (if (e.apply t.breakpoints).1 = 0 then refusal else texte "OK",
    { t with breakpoints := (e.apply t.breakpoints).2 })

-- The bytes that lie in the memory are stored; the others are what makes the answer an error.
def download (t : Target) (address : Word) (bs : List Byte) : Texte × Target :=
  if address.toNat < t.arm.mem.size then
    let n := accessible t.arm.mem.size address bs.length
    (if n = bs.length then texte "OK" else texte "E02",
      t.withMemory (t.arm.mem.storeBytes address (bs.take n)))
  else (texte "E02", t)

-- The reply to a command and the target after it. A command that resumes the machine has none as
-- long as nothing stops it.
def answer (t : Target) (c : Call) : Command → Option (Texte × Target)
  | .why => some (Gdb.stopReason t.code, t)
  | .readRegisters => some (registersText t.arm, t)
  | .writeRegisters v cpsr =>
      some (texte "OK", t.withRegisters (registersWriteCpsr (writtenRegisters t.arm.reg v) cpsr))
  | .readRegister n => some (hex8 (generalRegister t.arm n), t)
  | .writeRegister n x =>
      some (texte "OK", t.withRegisters
        (registersWrite t.arm.reg (Fin.ofNat 18 n) (registersGetMode t.arm.reg) x))
  | .readMemory address size => some (memoryReply t.arm.mem address size, t)
  | .download address bs => some (t.download address bs)
  | .insert address => some (t.edit (.add address) (texte "E04"))
  | .remove address => some (t.edit (.remove address) (texte "E05"))
  | .step =>
      let x := machineStep (c.hosts 0) t.machine
      some (Gdb.stopReason x.1, t.withMachine x)
  | .resume =>
      (loop machineStep (stopped t.breakpoints) c.hosts t.machine c.fuel).map fun x =>
        (Gdb.stopReason x.1, t.withMachine x)
  | .select kind =>
      some (if kind = octet 'c' ∨ kind = octet 'g' then texte "OK" else texte "E01", t)
  | .query name => some (Gdb.reponse name, t)
  | .unsupported => some ([], t)

def interrupt (t : Target) (h : Host) (e : Byte) : Target :=
  { t with arm := (armException h t.arm e).2 }

end Target

inductive Message where
  | ask (command : Command)
  | acknowledge

inductive Event where
  | message (c : Call) (m : Message)
  | interrupt (h : Host) (e : Byte)

namespace Event

def messages : List Event → List (Call × Message)
  | [] => []
  | .message c m :: es => (c, m) :: messages es
  | .interrupt _ _ :: es => messages es

def interrupts : List Event → List (Host × Byte)
  | [] => []
  | .message _ _ :: es => interrupts es
  | .interrupt h e :: es => (h, e) :: interrupts es

end Event

def Target.session (t : Target) : List Event → Option (List Texte × Target)
  | [] => some ([], t)
  | .message c (.ask command) :: es => do
      let (s, t) ← t.answer c command
      let (replies, t) ← t.session es
      return (s :: replies, t)
  | .message _ .acknowledge :: es => t.session es
  | .interrupt h e :: es => (t.interrupt h e).session es

def transcript (replies : List Texte) : Texte :=
  replies.flatMap fun s => texte "+" ++ frame s

end Armator
