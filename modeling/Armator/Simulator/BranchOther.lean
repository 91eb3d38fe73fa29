import Armator.Simulator.DataProcessing

namespace Armator

def armBranch (p : ArmCore) (ins : Word) : Int × ArmCore :=
  if condNotRespect p ins = 0 ∨ condNotRespect p ins = 2 then
    let bit_l := (getBit ins 24).setWidth 8
    let signed_immed_24 := getBits ins 23 0
    let signed_immed_24 :=
      if getBit ins 23 ≠ 0 then setBits signed_immed_24 30 24 0xFF else signed_immed_24
    let p :=
      if bit_l ≠ 0 ∨ getBits ins 31 28 = 15 then armWriteRegister p 14 (armReadRegister p 15)
      else p
    if getBits ins 31 28 = 15 then
      let p := armWriteRegister p 16 (setBit (armReadRegister p 16) 5)
      (0, armWriteRegister p 15
        (armReadRegister p 15 + (signed_immed_24 <<< 2) + (bit_l.setWidth 32 <<< 1) - 4))
    else
      (0, armWriteRegister p 15 (armReadRegister p 15 + (signed_immed_24 <<< 2) - 4))
  else (-1, p)

def armCoprocessorOthersSwi (p : ArmCore) (ins : Word) : Int × ArmCore :=
  if getBit ins 24 ≠ 0 then (SOFTWARE_INTERRUPT, p)
  else (UNDEFINED_INSTRUCTION, p)

def fonctionBX (p : ArmCore) (ins : Word) : Int × ArmCore :=
  let p :=
    if getBit ins 0 ≠ 0 then armWriteRegister p 16 (clrBit (armReadRegister p 16) 5)
    else armWriteRegister p 16 (setBit (armReadRegister p 16) 5)
  (0, armWriteRegister p 15 (armReadRegister p (regNum (getBits ins 3 0)) &&& 0xFFFFFFFE))

def msrOperand (h : Host) (p : ArmCore) (ins : Word) : Word :=
  if getBit ins 25 ≠ 0 then
    let r := getBits ins 7 0
    let val := (getBits ins 11 8).toNat * 2
    h.shr r val ||| h.shl r (32 - val)
  else armReadRegister p (regNum (getBits ins 3 0))

def msrByteMask (ins : Word) : Word :=
  let byte_mask := 0
  let byte_mask := if getBit ins 16 ≠ 0 then byte_mask ||| 0x000000FF else byte_mask
  let byte_mask := if getBit ins 17 ≠ 0 then byte_mask ||| 0x0000FF00 else byte_mask
  let byte_mask := if getBit ins 18 ≠ 0 then byte_mask ||| 0x00FF0000 else byte_mask
  if getBit ins 19 ≠ 0 then byte_mask ||| 0xFF000000 else byte_mask

def fonctionMSR (h : Host) (p : ArmCore) (ins : Word) : Int × ArmCore :=
  let operand := msrOperand h p ins
  let byte_mask := msrByteMask ins
  if operand &&& UnallocMask ≠ 0 then (DATA_ABORT, p)
  else if cNot (getBit ins 22) ≠ 0 then
    -- `!(mask)` is the logical negation, not the complement.
    let ecrire (mask : Word) : Int × ArmCore :=
      (0, armWriteCpsr p ((armReadCpsr p &&& cNot mask) ||| (operand &&& mask)))
    if armInAPrivilegedMode p then
      if operand &&& StateMask ≠ 0 then (DATA_ABORT, p)
      else ecrire (byte_mask &&& (UserMask ||| PrivMask))
    else ecrire (byte_mask &&& UserMask)
  else if armCurrentModeHasSpsr p then
    let mask := byte_mask &&& (UserMask ||| PrivMask ||| StateMask)
    (0, armWriteSpsr p ((armReadSpsr p &&& cNot mask) ||| (operand &&& mask)))
  else (DATA_ABORT, p)

def armMiscellaneous (h : Host) (p : ArmCore) (ins : Word) : Int × ArmCore :=
  if condNotRespect p ins = 0 then
    if cNot (getBit ins 27) &&& cNot (getBit ins 26) &&& getBit ins 24 &&& cNot (getBit ins 23) &&&
        getBit ins 21 &&& cNot (getBit ins 20) ≠ 0 then
      fonctionMSR h p ins
    else if getBits ins 27 20 = 18 then fonctionBX p ins
    else (UNDEFINED_INSTRUCTION, p)
  else (UNDEFINED_INSTRUCTION, p)

end Armator
