import Armator.Simulator.Memory
import Armator.Simulator.Registers

namespace Armator

-- What the build and the C standard leave open: the byte order, the contents of the
-- uninitialised variables, and the results of shifts by more than 31.
structure Host where
  BIG_ENDIAN_SIMULATOR : Bool
  ins : Word
  value : Word
  value8 : Byte
  value16 : Half
  result : Int
  instruction : Word
  shlOut : Word → Nat → Word
  shrOut : Word → Nat → Word

namespace Host

def ENDIANESS (h : Host) : Bool := h.BIG_ENDIAN_SIMULATOR

def shl (h : Host) (x : Word) (n : Nat) : Word := if n < 32 then x <<< n else h.shlOut x n

def shr (h : Host) (x : Word) (n : Nat) : Word := if n < 32 then x >>> n else h.shrOut x n

end Host

-- `asr` and `ror` of `util.c`. `32 - shift` is an `int`: where it is negative it is no amount.
def complement (shift : Byte) : Nat := ((32 : Word) - shift.setWidth 32).toNat

def asr (h : Host) (value : Word) (shift : Byte) : Word :=
  h.shr value shift.toNat |||
    (if getBit value 31 ≠ 0 then h.shl (BitVec.allOnes 32) (complement shift) else 0)

def ror (h : Host) (value : Word) (rotation : Byte) : Word :=
  h.shr value rotation.toNat ||| h.shl value (complement rotation)

structure ArmCore where
  cycle_count : Word
  reg : Registers
  mem : Memory
  console : List Byte

def armCurrentModeHasSpsr (p : ArmCore) : Bool := registersCurrentModeHasSpsr p.reg

def armInAPrivilegedMode (p : ArmCore) : Bool := registersInAPrivilegedMode p.reg

def armReadRegisterInternal (p : ArmCore) (reg : RegNum) (mode : Byte) : Word :=
  let value := registersRead p.reg reg mode
  if reg = 15 then (value + 4) &&& 0xFFFFFFFD else value

def armReadRegister (p : ArmCore) (reg : RegNum) : Word :=
  armReadRegisterInternal p reg (registersGetMode p.reg)

def armReadCpsr (p : ArmCore) : Word := registersReadCpsr p.reg

def armReadSpsr (p : ArmCore) : Word := registersReadSpsr p.reg (registersGetMode p.reg)

def armWriteRegisterInternal (p : ArmCore) (reg : RegNum) (mode : Byte) (value : Word) : ArmCore :=
  { p with reg := registersWrite p.reg reg mode value }

def armWriteRegister (p : ArmCore) (reg : RegNum) (value : Word) : ArmCore :=
  armWriteRegisterInternal p reg (registersGetMode p.reg) value

def armWriteCpsr (p : ArmCore) (value : Word) : ArmCore :=
  { p with reg := registersWriteCpsr p.reg value }

def armWriteSpsr (p : ArmCore) (value : Word) : ArmCore :=
  { p with reg := registersWriteSpsr p.reg (registersGetMode p.reg) value }

def armReadByte (p : ArmCore) (address : Word) (value : Byte) : Int × Byte :=
  memoryReadByte p.mem address value

def armReadHalf (h : Host) (p : ArmCore) (address : Word) (value : Half) : Int × Half :=
  memoryReadHalf p.mem address value h.ENDIANESS

def armReadWord (h : Host) (p : ArmCore) (address : Word) (value : Word) : Int × Word :=
  memoryReadWord p.mem address value h.ENDIANESS

def armFetch (h : Host) (p : ArmCore) (value : Word) : Int × Word × ArmCore :=
  let mode := registersGetMode p.reg
  let address := registersRead p.reg 15 mode
  let reg := registersWrite p.reg 15 mode (address + 4)
  let (result, value) := memoryReadWord p.mem address value h.ENDIANESS
  (result, value, { p with reg := reg, cycle_count := p.cycle_count + 1 })

def armWriteByte (p : ArmCore) (address : Word) (value : Byte) : Int × ArmCore :=
  let (result, mem) := memoryWriteByte p.mem address value
  (result, { p with mem := mem })

def armWriteHalf (h : Host) (p : ArmCore) (address : Word) (value : Half) : Int × ArmCore :=
  let (result, mem) := memoryWriteHalf p.mem address value h.ENDIANESS
  (result, { p with mem := mem })

def armWriteWord (h : Host) (p : ArmCore) (address : Word) (value : Word) : Int × ArmCore :=
  let (result, mem) := memoryWriteWord p.mem address value h.ENDIANESS
  (result, { p with mem := mem })

def condNotRespect (p : ArmCore) (ins : Word) : Int :=
  let cond := (getBits ins 31 28).setWidth 8
  let cpsr := armReadCpsr p
  let flagZ := (getBit cpsr bitZ).setWidth 8
  let flagN := (getBit cpsr bitN).setWidth 8
  let flagC := (getBit cpsr bitC).setWidth 8
  let flagV := (getBit cpsr bitV).setWidth 8
  match cond.toNat with
  | 0 => if flagZ = 0 then 1 else 0
  | 1 => if flagZ = 1 then 1 else 0
  | 2 => if flagC = 0 then 1 else 0
  | 3 => if flagC = 1 then 1 else 0
  | 4 => if flagN = 0 then 1 else 0
  | 5 => if flagN = 0 then 1 else 0
  | 6 => if flagV = 0 then 1 else 0
  | 7 => if flagV = 1 then 1 else 0
  | 8 => if flagC ≠ 1 ∨ flagZ ≠ 0 then 1 else 0
  | 9 => if flagC ≠ 0 ∧ flagZ ≠ 1 then 1 else 0
  | 10 => if flagN ≠ flagV then 1 else 0
  | 11 => if flagN = flagV then 1 else 0
  | 12 => if flagZ ≠ 0 ∨ flagN ≠ flagV then 1 else 0
  | 13 =>
      -- `flagZ =! 1` assigns `!1` to `flagZ` and tests it.
      let flagZ := cNot 1
      if flagZ ≠ 0 ∧ flagN = flagV then 1 else 0
  | 14 => 0
  | 15 => 2
  | _ => 1

end Armator
