import Armator.Simulator.Memory

namespace Armator

-- The functions of `memory.c` once more, with the indexes at which they read or write `data`.
structure Journal where
  mem : Memory
  indices : List Word

namespace Journal

def lire (j : Journal) (i : Word) : Byte × Journal :=
  (j.mem.data i, { j with indices := j.indices ++ [i] })

def ecrire (j : Journal) (i : Word) (value : Byte) : Journal where
  mem := j.mem.set i value
  indices := j.indices ++ [i]

def readByte (j : Journal) (address : Word) (value : Byte) : (Int × Byte) × Journal :=
  if j.mem.horsPlage address then ((-1, value), j)
  else
    let (value, j) := j.lire address
    ((0, value), j)

def readHalf (j : Journal) (address : Word) (value : Half) (be : Bool) : (Int × Half) × Journal :=
  if j.mem.horsPlage address then ((-1, value), j)
  else
    let (faible, j) := j.lire (address + 1)
    let (fort, j) := j.lire address
    let tmp := faible.setWidth 16 + fort.setWidth 16 <<< 8
    ((0, if be then tmp else reverse2 tmp), j)

def readWord (j : Journal) (address : Word) (value : Word) (be : Bool) : (Int × Word) × Journal :=
  if j.mem.horsPlage address then ((-1, value), j)
  else
    let (tmp, j) := (List.range 4).foldl
      (fun (tmp, j) i =>
        let (x, j) := lire j (address + BitVec.ofNat 32 i)
        (tmp + x.setWidth 32 <<< ((3 - i) * 8), j)) ((0 : Word), j)
    ((0, if be then tmp else reverse4 tmp), j)

def writeByte (j : Journal) (address : Word) (value : Byte) : Int × Journal :=
  if j.mem.horsPlage address then (-1, j)
  else (0, j.ecrire address value)

def writeHalf (j : Journal) (address : Word) (value : Half) (be : Bool) : Int × Journal :=
  if j.mem.horsPlage address then (-1, j)
  else
    (0, (List.range 2).foldl
      (fun j i =>
        if be then
          ecrire j (address + BitVec.ofNat 32 i)
            ((getBits (value.setWidth 32) (8 * (2 - i)) (8 * (1 - i))).setWidth 8)
        else
          ecrire j (address + BitVec.ofNat 32 i)
            ((getBits (value.setWidth 32) (8 * (i + 1)) (8 * i)).setWidth 8)) j)

def writeWord (j : Journal) (address : Word) (value : Word) (be : Bool) : Int × Journal :=
  if j.mem.horsPlage address then (-1, j)
  else
    (0, (List.range 4).foldl
      (fun j i =>
        if be then
          ecrire j (address + BitVec.ofNat 32 i)
            ((getBits value (8 * (4 - i)) (8 * (3 - i))).setWidth 8)
        else
          ecrire j (address + BitVec.ofNat 32 i)
            ((getBits value (8 * (i + 1)) (8 * i)).setWidth 8)) j)

end Journal

end Armator
