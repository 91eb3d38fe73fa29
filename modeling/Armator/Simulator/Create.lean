import Armator.Simulator.Exception

namespace Armator

def armCreate (h : Host) (reg : Registers) (mem : Memory) : ArmCore :=
  let p : ArmCore := { cycle_count := 0, reg := reg, mem := mem, console := [] }
  let p := (armException h p (BitVec.ofInt 8 RESET)).2
  armWriteRegister p 13 (BitVec.ofNat 32 mem.size)

-- The build that the makefile makes, with zeros wherever the standard leaves a value open.
def Host.blank : Host where
  BIG_ENDIAN_SIMULATOR := true
  ins := 0
  value := 0
  value8 := 0
  value16 := 0
  result := 0
  instruction := 0
  shlOut := fun _ _ => 0
  shrOut := fun _ _ => 0

def Memory.ofWords (words : List Word) : Memory where
  size := 4 * words.length
  data := fun address =>
    (words.getD (address.toNat / 4) 0 >>> (8 * (3 - address.toNat % 4))).setWidth 8

def afterReset (words : List Word) : ArmCore :=
  armCreate Host.blank ⟨fun _ => 0⟩ (Memory.ofWords words)

end Armator
