import Armator.Simulator.DataProcessing

namespace Armator

def avancer (adresse offset u : Word) : Word :=
  adresse + (if u ≠ 0 then offset else -offset)

-- Both branches of `arm_load_store` index before the access and after it in the same way.
def preIndexer (p : ArmCore) (rn : RegNum) (adresse offset u w p_bit : Word) : Word × ArmCore :=
  if p_bit ≠ 0 then
    let adresse := avancer adresse offset u
    (adresse, if w ≠ 0 then armWriteRegister p rn adresse else p)
  else (adresse, p)

def postIndexer (p : ArmCore) (rn : RegNum) (adresse offset u w p_bit : Word) : Int × ArmCore :=
  if p_bit = 0 then
    if w ≠ 0 then (UNDEFINED_INSTRUCTION, p)
    else (0, armWriteRegister p rn (avancer adresse offset u))
  else (0, p)

def terminer (acces : Int × ArmCore) (rn : RegNum) (adresse offset u w p_bit : Word) :
    Int × ArmCore :=
  if acces.1 = -1 then (DATA_ABORT, acces.2)
  else postIndexer acces.2 rn adresse offset u w p_bit

def chargerWordByte (h : Host) (p : ArmCore) (rn rd : RegNum) (b adresse value : Word) :
    Int × ArmCore :=
  if b ≠ 0 then
    let (result, value8) :=
      if rn ≠ 15 then armReadByte p adresse h.value8 else (h.result, h.value8)
    (result, armWriteRegister p rd (value8.setWidth 32))
  else
    let (result, value) :=
      if rn ≠ 15 then armReadWord h p adresse value else (h.result, value)
    (result, armWriteRegister p rd value)

def rangerWordByte (h : Host) (p : ArmCore) (rn rd : RegNum) (b adresse value : Word) :
    Int × ArmCore :=
  let value := if rn ≠ 15 then armReadRegister p rd else value
  let value8 := if rn ≠ 15 then (armReadRegister p rd).setWidth 8 else h.value8
  if b ≠ 0 then armWriteByte p adresse value8
  else armWriteWord h p adresse value

def offsetWordByte (h : Host) (p : ArmCore) (ins : Word) : Word :=
  if getBit ins 25 ≠ 0 then
    let rm := regNum (getBits ins 3 0)
    let rm_value := armReadRegister p rm
    let shift_op := (getBits ins 6 5).toNat
    let shift_imm := (getBits ins 11 7).toNat
    effectuerDecalage h shift_op shift_imm rm_value
  else getBits ins 11 0

def offsetHalf (p : ArmCore) (ins : Word) : Word :=
  if getBit ins 22 ≠ 0 then
    let immedL := getBits ins 3 0
    let immedH := getBits ins 11 8
    (immedH <<< 4) ||| immedL
  else armReadRegister p (regNum (getBits ins 3 0))

def armLoadStoreWordByte (h : Host) (p : ArmCore) (ins : Word) (rn rd : RegNum)
    (u p_bit w l adresse value : Word) : Int × ArmCore :=
  let b := getBit ins 22
  if getBit ins 25 ≠ 0 ∧ getBit ins 4 ≠ 0 then (UNDEFINED_INSTRUCTION, p)
  else
    let offset := offsetWordByte h p ins
    let (adresse, p) := preIndexer p rn adresse offset u w p_bit
    let acces :=
      if l ≠ 0 then chargerWordByte h p rn rd b adresse value
      else rangerWordByte h p rn rd b adresse value
    terminer acces rn adresse offset u w p_bit

def rangerHalf (h : Host) (p : ArmCore) (rd : RegNum) (adresse : Word) : Int × ArmCore :=
  armWriteHalf h p adresse ((armReadRegister p rd).setWidth 16)

def chargerHalf (h : Host) (p : ArmCore) (rd : RegNum) (adresse : Word) : Int × ArmCore :=
  let (result, value) := armReadHalf h p adresse h.value16
  (result, armWriteRegister p rd (value.setWidth 32))

def armLoadStoreHalf (h : Host) (p : ArmCore) (ins : Word) (rn rd : RegNum)
    (u p_bit w l adresse : Word) : Int × ArmCore :=
  if rn = 15 then (UNDEFINED_INSTRUCTION, p)
  else if getBits ins 27 25 = 0 ∧ getBit ins 7 = 1 ∧ getBit ins 4 = 1 then
    let sh := (getBits ins 6 5).setWidth 8
    let acces_mem : Byte := (l.setWidth 8 <<< 2) ||| sh
    let offset := offsetHalf p ins
    let (adresse, p) := preIndexer p rn adresse offset u w p_bit
    match acces_mem.toNat with
    | 1 => terminer (rangerHalf h p rd adresse) rn adresse offset u w p_bit
    | 5 => terminer (chargerHalf h p rd adresse) rn adresse offset u w p_bit
    | _ => (UNDEFINED_INSTRUCTION, p)
  else (UNDEFINED_INSTRUCTION, p)

def armLoadStore (h : Host) (p : ArmCore) (ins : Word) : Int × ArmCore :=
  if condNotRespect p ins ≠ 0 then (-1, p)
  else
    let rn := regNum (getBits ins 19 16)
    let rd := regNum (getBits ins 15 12)
    let u := getBit ins 23
    let p_bit := getBit ins 24
    let w := getBit ins 21
    let l := getBit ins 20
    let adresse := armReadRegister p rn
    let value := if rn = 15 then adresse + 8 else h.value
    if getBits ins 27 26 = 1 then armLoadStoreWordByte h p ins rn rd u p_bit w l adresse value
    else armLoadStoreHalf h p ins rn rd u p_bit w l adresse

def transfererMot (h : Host) (p : ArmCore) (l : Word) (reg_num : RegNum) (adresse value : Word) :
    Int × Word × ArmCore :=
  if l ≠ 0 then
    let (result, value) := armReadWord h p adresse value
    (result, value, armWriteRegister p reg_num value)
  else
    let value := armReadRegister p reg_num
    let (result, p) := armWriteWord h p adresse value
    (result, value, p)

-- The `for` loop of `arm_load_store_multiple`, over the register numbers that remain.
def transferer (h : Host) (l u : Word) (list_reg : Half) :
    List RegNum → ArmCore → Word → Word → Int × ArmCore × Word
  | [], p, _, adresse => (0, p, adresse)
  | reg_num :: reste, p, value, adresse =>
      if getBit list_reg reg_num ≠ 0 then
        let (result, value, p) := transfererMot h p l reg_num adresse value
        if result = -1 then (DATA_ABORT, p, adresse)
        else transferer h l u list_reg reste p value (adresse + (if u ≠ 0 then 4 else -4))
      else transferer h l u list_reg reste p value adresse

def armLoadStoreMultiple (h : Host) (p : ArmCore) (ins : Word) : Int × ArmCore :=
  if condNotRespect p ins ≠ 0 then (-1, p)
  else
    let p_bit := getBit ins 24
    let u := getBit ins 23
    let s := getBit ins 22
    let w := getBit ins 21
    let l := getBit ins 20
    let rn := regNum (getBits ins 19 16)
    let list_reg : Half := (getBits ins 15 0).setWidth 16
    let adresse := armReadRegister p rn
    let adresse := if p_bit ≠ 0 then adresse + (if u ≠ 0 then 4 else -4) else adresse
    if list_reg = 0 ∨ (getBit ins rn ≠ 0 ∧ w ≠ 0) then (UNDEFINED_INSTRUCTION, p)
    else if s = 0 then
      let (code, p, adresse) :=
        transferer h l u list_reg ((List.range 15).map (Fin.ofNat 18)) p h.value adresse
      if code ≠ 0 then (code, p)
      else if getBit list_reg 15 ≠ 0 then (UNDEFINED_INSTRUCTION, p)
      else if w ≠ 0 then (0, armWriteRegister p rn adresse)
      else (0, p)
    else (UNDEFINED_INSTRUCTION, p)

def armCoprocessorLoadStore (p : ArmCore) (_ins : Word) : Int × ArmCore :=
  (UNDEFINED_INSTRUCTION, p)

end Armator
