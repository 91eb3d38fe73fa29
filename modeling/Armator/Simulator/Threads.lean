import Armator.Library.Mutex
import Armator.Simulator.Scanner

namespace Armator

def Parser.avec (d : Parser) (arm : ArmCore) : Parser := { d with gdb := { d.gdb with arm := arm } }

namespace Gdb

-- `check == given` in `gdb_packet_analysis`
def checksumOk (c : Call) (packet : Texte) (length : Nat) : Bool :=
  let i := max 1 (length - 3)
  (((packet.take i).drop 1).sum).setWidth 32 = sscanfX (packet.drop (i + 1)) c.given

-- `packet[i] = '\0'`
def packetClos (packet : Texte) (length : Nat) : Texte := packet.set (max 1 (length - 3)) 0

end Gdb

inductive Fil where
  | gdb
  | irq
deriving DecidableEq

instance : Fintype Fil := ⟨{.gdb, .irq}, fun i => by cases i <;> decide⟩

def Fil.Etat : Fil → Type
  | .gdb => Except Fault Parser
  | .irq => Unit

namespace Threads

def prive (f : Parser → Except Fault Parser) (r : Except Fault Parser) : Except Fault Parser :=
  r >>= f

def acces (f : Parser → Except Fault Parser) :
    Except Fault Parser × ArmCore → Except Fault Parser × ArmCore
  | (.error e, arm) => (.error e, arm)
  | (.ok d, arm) =>
      match f (d.avec arm) with
      | .ok d => (.ok d, d.gdb.arm)
      | .error e => (.error e, arm)

-- A call that fails does not return, and one that goes on for ever does not either: the thread
-- comes no further, and an unlock that it still has before it is not reached.
def arrete : (i : Fil) → i.Etat → Prop
  | .gdb, r => ∃ e, r = .error e
  | .irq, _ => False

def surGdb (f : Gdb → Except Fault Gdb) (d : Parser) : Except Fault Parser := do
  let gdb ← f d.gdb
  return { d with gdb := gdb }

-- What `gdb_listener` does on a token: only the call of a handler takes the lock.
def jeton (handler : Byte → Option Gdb.Handler) : Jeton → Mutex.Block (Except Fault Parser) ArmCore
  | .plus => ⟨[prive Parser.handleError], none⟩
  | .moins => ⟨[prive Parser.handleError, prive (surGdb fun g => .ok g.gdbTransmitPacket)], none⟩
  | .autre c => ⟨[prive fun d => d.addCharacterToError c], none⟩
  | .ligne => ⟨[], none⟩
  | .trame text suite call =>
      let packet := text ++ 0 :: suite
      if Gdb.checksumOk call packet text.length then
        let packet := Gdb.packetClos packet text.length
        match handler (packet.getD 1 0) with
        | some f =>
            ⟨[prive Parser.handleError, prive (surGdb fun g => .ok g.gdbSendAck)],
              some [acces (surGdb fun g => f call g (packet.drop 2))]⟩
        | none =>
            ⟨[prive Parser.handleError, prive (surGdb fun g => .ok g.gdbSendAck),
              prive (surGdb fun g => g.gdbSendData (texte ""))], none⟩
      else
        ⟨[prive Parser.handleError, prive (surGdb fun g => .ok g.gdbRequireRetransmission)], none⟩

def interruption (h : Host) (irq : Byte) : Mutex.Block Unit ArmCore :=
  ⟨[], some [fun p => ((), (armException h p.2 irq).2)]⟩

def demarrer (d : Parser) (gdb : List (Mutex.Block (Except Fault Parser) ArmCore))
    (irq : List (Mutex.Block Unit ArmCore)) : Mutex.Serial Fil.Etat ArmCore where
  mine
    | .gdb => .ok d
    | .irq => ()
  shared := d.gdb.arm
  program
    | .gdb => gdb
    | .irq => irq

end Threads

inductive Tour where
  | jeton (t : Jeton)
  | irq (h : Host) (e : Byte)

namespace Tour

def pas (handler : Byte → Option Gdb.Handler) (d : Parser) : Tour → Except Fault Parser
  | .jeton t => d.action handler t
  | .irq h e => .ok (d.avec (armException h d.gdb.arm e).2)

def jetons : List Tour → List Jeton
  | [] => []
  | .jeton t :: es => t :: jetons es
  | .irq _ _ :: es => jetons es

def irqs : List Tour → List (Host × Byte)
  | [] => []
  | .jeton _ :: es => irqs es
  | .irq h e :: es => (h, e) :: irqs es

end Tour

end Armator
