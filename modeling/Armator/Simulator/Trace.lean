import Armator.Library.Recorded
import Armator.Simulator.Instruction

namespace Armator

-- `arm_mode_names` has no name for the other numbers.
def armGetModeName (mode : Byte) : Option String :=
  if mode = USR then some "USR"
  else if mode = FIQ then some "FIQ"
  else if mode = IRQ then some "IRQ"
  else if mode = SVC then some "SVC"
  else if mode = ABT then some "ABT"
  else if mode = UND then some "UND"
  else if mode = SYS then some "SYS"
  else none

namespace Trace

def MEMORY : Word := 32

def REGISTERS : Word := 64

inductive Acces where
  | WRITE
  | READ
  deriving DecidableEq

inductive Cause where
  | OTHER_ACCESS
  | OPCODE_FETCH
  deriving DecidableEq

inductive Appel where
  | register (cycle : Word) (type : Acces) (reg : RegNum) (mode : Byte) (value : Word)
  | memory (cycle : Word) (type : Acces) (size : Byte) (cause : Cause) (address value : Word)

-- What a line shows in the build without `ARM_TRACE_FORMAT`, where the mark of a sequential access
-- is empty.
inductive Ligne where
  | register (cycle : Word) (type : Acces) (reg : RegNum) (mode_name : Option String) (value : Word)
  | memory (cycle : Word) (type : Acces) (size : Byte) (cause : Cause) (address value : Word)

-- The variables of `trace.c`; no other function looks at them.
structure Etat where
  output : List Ligne
  last_address : Word
  enabled : Bool
  trace_flags : Word

def traceMemory (t : Etat) (cycle : Word) (type : Acces) (size : Byte) (cause : Cause)
    (address value : Word) : Etat :=
  if t.enabled ∧ t.trace_flags &&& MEMORY ≠ 0 then
    { t with
      last_address := address
      output := t.output ++ [.memory cycle type size cause address value] }
  else t

def traceRegister (t : Etat) (cycle : Word) (type : Acces) (reg : RegNum) (mode : Byte)
    (value : Word) : Etat :=
  if t.enabled ∧ t.trace_flags &&& REGISTERS ≠ 0 then
    { t with output := t.output ++ [.register cycle type reg (armGetModeName mode) value] }
  else t

def Etat.appeler (t : Etat) : Appel → Etat
  | .register cycle type reg mode value => traceRegister t cycle type reg mode value
  | .memory cycle type size cause address value => traceMemory t cycle type size cause address value

-- What a function of the simulator does besides its work on the machine: a call of `trace.c`, or a
-- shift of the C language by an amount that the language may not define.
inductive Fait where
  | appel (a : Appel)
  | decalage (n : Int)

abbrev Calcul (α : Type) := Recorded.Program ArmCore Fait α

def lire {α : Type} (f : ArmCore → α) : Calcul α := fun p => return (f p, p)

def noter (f : ArmCore → Appel) : Calcul Unit := do tell [.appel (f (← get))]

def Fait.appels : List Fait → List Appel := List.filterMap fun
  | .appel a => some a
  | .decalage _ => none

def Fait.decalages : List Fait → List Int := List.filterMap fun
  | .appel _ => none
  | .decalage n => some n

def armReadRegisterInternal (reg : RegNum) (mode : Byte) : Calcul Word := do
  let value ← lire fun p => Armator.armReadRegisterInternal p reg mode
  noter fun p => .register p.cycle_count .READ reg mode value
  return value

def armReadRegister (reg : RegNum) : Calcul Word := do
  armReadRegisterInternal reg (← lire fun p => registersGetMode p.reg)

def armReadCpsr : Calcul Word := do
  let value ← lire fun p => registersReadCpsr p.reg
  noter fun p => .register p.cycle_count .READ 16 0 value
  return value

def armReadSpsr : Calcul Word := do
  let mode ← lire fun p => registersGetMode p.reg
  let value ← lire fun p => registersReadSpsr p.reg mode
  noter fun p => .register p.cycle_count .READ 17 mode value
  return value

def armWriteRegisterInternal (reg : RegNum) (mode : Byte) (value : Word) : Calcul Unit := do
  modify fun p => Armator.armWriteRegisterInternal p reg mode value
  noter fun p => .register p.cycle_count .WRITE reg mode value

def armWriteRegister (reg : RegNum) (value : Word) : Calcul Unit := do
  armWriteRegisterInternal reg (← lire fun p => registersGetMode p.reg) value

def armWriteCpsr (value : Word) : Calcul Unit := do
  modify fun p => Armator.armWriteCpsr p value
  noter fun p => .register p.cycle_count .WRITE 16 0 value

def armWriteSpsr (value : Word) : Calcul Unit := do
  modify fun p => Armator.armWriteSpsr p value
  noter fun p => .register p.cycle_count .WRITE 17 (registersGetMode p.reg) value

def armReadByte (address : Word) (value : Byte) : Calcul (Int × Byte) := do
  let (result, value) ← lire fun p => Armator.armReadByte p address value
  noter fun p => .memory p.cycle_count .READ 1 .OTHER_ACCESS address (value.setWidth 32)
  return (result, value)

def armReadHalf (h : Host) (address : Word) (value : Half) : Calcul (Int × Half) := do
  let (result, value) ← lire fun p => Armator.armReadHalf h p address value
  noter fun p => .memory p.cycle_count .READ 2 .OTHER_ACCESS address (value.setWidth 32)
  return (result, value)

def armReadWord (h : Host) (address : Word) (value : Word) : Calcul (Int × Word) := do
  let (result, value) ← lire fun p => Armator.armReadWord h p address value
  noter fun p => .memory p.cycle_count .READ 4 .OTHER_ACCESS address value
  return (result, value)

def armFetch (h : Host) (value : Word) : Calcul (Int × Word) := do
  let address ← lire fun p => registersRead p.reg 15 (registersGetMode p.reg)
  let (result, value) ← modifyGet fun p =>
    let (result, value, p) := Armator.armFetch h p value
    ((result, value), p)
  noter fun p => .memory p.cycle_count .READ 4 .OPCODE_FETCH address value
  return (result, value)

def armWriteByte (address : Word) (value : Byte) : Calcul Int := do
  let result ← modifyGet fun p => Armator.armWriteByte p address value
  noter fun p => .memory p.cycle_count .WRITE 1 .OTHER_ACCESS address (value.setWidth 32)
  return result

def armWriteHalf (h : Host) (address : Word) (value : Half) : Calcul Int := do
  let result ← modifyGet fun p => Armator.armWriteHalf h p address value
  noter fun p => .memory p.cycle_count .WRITE 2 .OTHER_ACCESS address (value.setWidth 32)
  return result

def armWriteWord (h : Host) (address : Word) (value : Word) : Calcul Int := do
  let result ← modifyGet fun p => Armator.armWriteWord h p address value
  noter fun p => .memory p.cycle_count .WRITE 4 .OTHER_ACCESS address value
  return result

-- The condition is read off the status, which is read once.
def condNotRespect (ins : Word) : Calcul Int := do
  let _ ← armReadCpsr
  lire fun p => Armator.condNotRespect p ins

end Trace

end Armator
