import Armator.Simulator.Constants
import Mathlib.Logic.Function.Basic

namespace Armator

-- Cells at `size` and beyond are the bytes that lie behind the allocated block.
structure Memory where
  size : Nat
  data : Word → Byte

namespace Memory

def set (mem : Memory) (address : Word) (value : Byte) : Memory :=
  { mem with data := Function.update mem.data address value }

def horsPlage (mem : Memory) (address : Word) : Prop :=
  address < 0 ∨ mem.size ≤ address.toNat

instance (mem : Memory) (address : Word) : Decidable (mem.horsPlage address) :=
  inferInstanceAs (Decidable (_ ∨ _))

theorem horsPlage_iff (mem : Memory) (address : Word) :
    mem.horsPlage address ↔ mem.size ≤ address.toNat := by
  simp [horsPlage]

end Memory

-- Reads take the old contents of `*value` and return the new ones.
def memoryReadByte (mem : Memory) (address : Word) (value : Byte) : Int × Byte :=
  if mem.horsPlage address then (-1, value)
  else (0, mem.data address)

def memoryReadHalf (mem : Memory) (address : Word) (value : Half) (be : Bool) : Int × Half :=
  if mem.horsPlage address then (-1, value)
  else
    let tmp := (mem.data (address + 1)).setWidth 16 + (mem.data address).setWidth 16 <<< 8
    (0, if be then tmp else reverse2 tmp)

def memoryReadWord (mem : Memory) (address : Word) (value : Word) (be : Bool) : Int × Word :=
  if mem.horsPlage address then (-1, value)
  else
    let tmp := (List.range 4).foldl
      (fun (tmp : Word) i => tmp + (mem.data (address + BitVec.ofNat 32 i)).setWidth 32 <<< ((3 - i) * 8)) 0
    (0, if be then tmp else reverse4 tmp)

def memoryWriteByte (mem : Memory) (address : Word) (value : Byte) : Int × Memory :=
  if mem.horsPlage address then (-1, mem)
  else (0, mem.set address value)

def memoryWriteHalf (mem : Memory) (address : Word) (value : Half) (be : Bool) : Int × Memory :=
  if mem.horsPlage address then (-1, mem)
  else
    (0, (List.range 2).foldl
      (fun (mem : Memory) i =>
        if be then
          mem.set (address + BitVec.ofNat 32 i)
            ((getBits (value.setWidth 32) (8 * (2 - i)) (8 * (1 - i))).setWidth 8)
        else
          mem.set (address + BitVec.ofNat 32 i)
            ((getBits (value.setWidth 32) (8 * (i + 1)) (8 * i)).setWidth 8)) mem)

def memoryWriteWord (mem : Memory) (address : Word) (value : Word) (be : Bool) : Int × Memory :=
  if mem.horsPlage address then (-1, mem)
  else
    (0, (List.range 4).foldl
      (fun (mem : Memory) i =>
        if be then
          mem.set (address + BitVec.ofNat 32 i) ((getBits value (8 * (4 - i)) (8 * (3 - i))).setWidth 8)
        else
          mem.set (address + BitVec.ofNat 32 i) ((getBits value (8 * (i + 1)) (8 * i)).setWidth 8)) mem)

end Armator
