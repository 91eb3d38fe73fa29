import Armator.Simulator.Trace

namespace Armator

-- The functions that lead to a traced access or to a shift once more, with these in the order of
-- the source.
namespace Trace

def shl (h : Host) (x : Word) (n : Int) : Calcul Word := do
  tell [.decalage n]
  return h.shl x n.toNat

def shr (h : Host) (x : Word) (n : Int) : Calcul Word := do
  tell [.decalage n]
  return h.shr x n.toNat

-- `get_bit(r, 31)`.
def signBit (h : Host) (r : Word) : Calcul Byte := do
  let x ← shr h r 31
  return (x &&& 1).setWidth 8

def effectuerDecalage (h : Host) (decalage val : Nat) (r : Word) : Calcul Word :=
  if decalage = LSL then shl h r val
  else if decalage = LSR then shr h r val
  else if decalage = ASR then do
    let bit31 ← signBit h r
    if bit31 = 1 then
      let masque : Word := ~~~0
      let masque ← shl h masque (32 - val)
      let x ← shr h r val
      return x ||| masque
    else shr h r val
  else do
    let x ← shr h r val
    let y ← shl h r (32 - val)
    return x ||| y

def poserFlag (b : Bool) (k : Nat) : Calcul Unit := do
  let cpsr ← armReadCpsr
  armWriteCpsr (if b then cpsr ||| ~~~masqueFlag k else cpsr &&& masqueFlag k)

-- The status is read again for the messages on the standard output.
def updateFlags (temp : BitVec 64) (bit_S : Word) (rd_num : RegNum) : Calcul Int := do
  if bit_S = 1 ∧ rd_num = 15 then
    if ← lire armCurrentModeHasSpsr then
      armWriteCpsr (← armReadSpsr)
      let _ ← armReadCpsr
      return 0
    else return UNDEFINED_INSTRUCTION
  else if bit_S = 1 then
    let res : Word := temp.setWidth 32
    let _ ← armReadCpsr
    poserFlag (temp = 0) bitZ
    poserFlag (getBit temp 31 = 1) bitN
    poserFlag (getBit temp 32 = 1) bitC
    poserFlag (temp ≠ res.setWidth 64) bitV
    let _ ← armReadCpsr
    return 0
  else
    let _ ← armReadCpsr
    return 0

def effectuerOperation (opeCode : Nat) (rn operande2 : Word) (ins : Word) : Calcul Int := do
  let rd_num := regNum (getBits ins 15 12)
  let cpsr ← armReadCpsr
  let flagC := (getBit cpsr bitC).setWidth 64
  let bit_S := getBit ins 20
  let rn := rn.setWidth 64
  let operande2 := operande2.setWidth 64
  let ecrire (temp : BitVec 64) : Calcul Int := do
    armWriteRegister rd_num (temp.setWidth 32)
    updateFlags temp bit_S rd_num
  let comparer (temp : BitVec 64) : Calcul Int := updateFlags temp 1 rd_num
  match opeCode with
  | 0 => ecrire (rn &&& operande2)
  | 1 => ecrire (rn ^^^ operande2)
  | 2 => ecrire (rn - operande2)
  | 3 => ecrire (operande2 - rn)
  | 4 => ecrire (rn + operande2)
  | 5 => ecrire (rn + operande2 + flagC)
  | 6 => ecrire (rn - operande2 + flagC - 1)
  | 7 => ecrire (operande2 - rn + flagC - 1)
  | 8 => comparer (rn &&& operande2)
  | 9 => comparer (rn ^^^ operande2)
  | 10 => comparer (rn - operande2)
  | 11 => comparer (rn + operande2)
  | 12 => ecrire (rn ||| operande2)
  | 13 => ecrire operande2
  | 14 => ecrire (rn &&& ~~~operande2)
  | 15 => ecrire (~~~operande2)
  | _ => return 1

def armDataProcessingShift (h : Host) (ins : Word) : Calcul Int := do
  if (← condNotRespect ins) ≠ 0 then return 1
  else
    let rm_valeur ← armReadRegister (regNum (getBits ins 3 0))
    let decalage := determinerDecalage (getBit ins 6) (getBit ins 5)
    let bit_4 := (getBit ins 4).setWidth 8
    let suite (valeur : Nat) : Calcul Int := do
      let rm_valeur ← effectuerDecalage h decalage valeur rm_valeur
      let opCode := (getBits ins 24 21).toNat
      let rn_valeur ← armReadRegister (regNum (getBits ins 19 16))
      effectuerOperation opCode rn_valeur rm_valeur ins
    if bit_4 = 0 then suite (getBits ins 11 7).toNat
    else
      let bit_7 := (getBit ins 7).setWidth 8
      if bit_7 ≠ 0 then return UNDEFINED_INSTRUCTION
      else
        let rs_valeur ← armReadRegister (regNum (getBits ins 11 8))
        suite (getBits rs_valeur 4 0).toNat

def armDataProcessingImmediateMsr (h : Host) (ins : Word) : Calcul Int := do
  if (← condNotRespect ins) ≠ 0 then return 1
  else
    let valeur_I := getBits ins 7 0
    let valeur := (getBits ins 11 8).toNat * 2
    let valeur_I ← effectuerDecalage h ROR valeur valeur_I
    let opCode := (getBits ins 24 21).toNat
    let rn_valeur ← armReadRegister (regNum (getBits ins 19 16))
    effectuerOperation opCode rn_valeur valeur_I ins

def brancher (ins : Word) : Calcul Int := do
  let bit_l := (getBit ins 24).setWidth 8
  let signed_immed_24 := getBits ins 23 0
  let signed_immed_24 :=
    if getBit ins 23 ≠ 0 then setBits signed_immed_24 30 24 0xFF else signed_immed_24
  if bit_l ≠ 0 ∨ getBits ins 31 28 = 15 then
    armWriteRegister 14 (← armReadRegister 15)
  if getBits ins 31 28 = 15 then
    armWriteRegister 16 (setBit (← armReadRegister 16) 5)
    let pc ← armReadRegister 15
    armWriteRegister 15 (pc + (signed_immed_24 <<< 2) + (bit_l.setWidth 32 <<< 1) - 4)
  else
    let pc ← armReadRegister 15
    armWriteRegister 15 (pc + (signed_immed_24 <<< 2) - 4)
  return 0

-- `||` evaluates the condition a second time where it is not 0.
def armBranch (ins : Word) : Calcul Int := do
  if (← condNotRespect ins) = 0 then brancher ins
  else if (← condNotRespect ins) = 2 then brancher ins
  else return -1

def fonctionBX (ins : Word) : Calcul Int := do
  if getBit ins 0 ≠ 0 then armWriteRegister 16 (clrBit (← armReadRegister 16) 5)
  else armWriteRegister 16 (setBit (← armReadRegister 16) 5)
  armWriteRegister 15 ((← armReadRegister (regNum (getBits ins 3 0))) &&& 0xFFFFFFFE)
  return 0

def msrOperand (h : Host) (ins : Word) : Calcul Word := do
  if getBit ins 25 ≠ 0 then
    let r := getBits ins 7 0
    let val := (getBits ins 11 8).toNat * 2
    let x ← shr h r val
    let y ← shl h r (32 - val)
    return x ||| y
  else armReadRegister (regNum (getBits ins 3 0))

def fonctionMSR (h : Host) (ins : Word) : Calcul Int := do
  let operand ← msrOperand h ins
  let byte_mask := msrByteMask ins
  if operand &&& UnallocMask ≠ 0 then return DATA_ABORT
  else if cNot (getBit ins 22) ≠ 0 then
    let ecrire (mask : Word) : Calcul Int := do
      armWriteCpsr (((← armReadCpsr) &&& cNot mask) ||| (operand &&& mask))
      return 0
    if ← lire armInAPrivilegedMode then
      if operand &&& StateMask ≠ 0 then return DATA_ABORT
      else ecrire (byte_mask &&& (UserMask ||| PrivMask))
    else ecrire (byte_mask &&& UserMask)
  else if ← lire armCurrentModeHasSpsr then
    let mask := byte_mask &&& (UserMask ||| PrivMask ||| StateMask)
    armWriteSpsr (((← armReadSpsr) &&& cNot mask) ||| (operand &&& mask))
    return 0
  else return DATA_ABORT

def armMiscellaneous (h : Host) (ins : Word) : Calcul Int := do
  if (← condNotRespect ins) = 0 then
    if cNot (getBit ins 27) &&& cNot (getBit ins 26) &&& getBit ins 24 &&& cNot (getBit ins 23) &&&
        getBit ins 21 &&& cNot (getBit ins 20) ≠ 0 then
      fonctionMSR h ins
    else if getBits ins 27 20 = 18 then fonctionBX ins
    else return UNDEFINED_INSTRUCTION
  else return UNDEFINED_INSTRUCTION

def preIndexer (rn : RegNum) (adresse offset u w p_bit : Word) : Calcul Word := do
  if p_bit ≠ 0 then
    let adresse := avancer adresse offset u
    if w ≠ 0 then armWriteRegister rn adresse
    return adresse
  else return adresse

def postIndexer (rn : RegNum) (adresse offset u w p_bit : Word) : Calcul Int := do
  if p_bit = 0 then
    if w ≠ 0 then return UNDEFINED_INSTRUCTION
    else
      armWriteRegister rn (avancer adresse offset u)
      return 0
  else return 0

def terminer (result : Int) (rn : RegNum) (adresse offset u w p_bit : Word) : Calcul Int := do
  if result = -1 then return DATA_ABORT
  else postIndexer rn adresse offset u w p_bit

def chargerWordByte (h : Host) (rn rd : RegNum) (b adresse value : Word) : Calcul Int := do
  if b ≠ 0 then
    let (result, value8) ←
      if rn ≠ 15 then armReadByte adresse h.value8 else pure (h.result, h.value8)
    armWriteRegister rd (value8.setWidth 32)
    return result
  else
    let (result, value) ←
      if rn ≠ 15 then armReadWord h adresse value else pure (h.result, value)
    armWriteRegister rd value
    return result

def rangerWordByte (h : Host) (rn rd : RegNum) (b adresse value : Word) : Calcul Int := do
  let suite (value : Word) (value8 : Byte) : Calcul Int :=
    if b ≠ 0 then armWriteByte adresse value8
    else armWriteWord h adresse value
  if rn ≠ 15 then
    let value ← armReadRegister rd
    let value8 ← armReadRegister rd
    suite value (value8.setWidth 8)
  else suite value h.value8

def accederWordByte (h : Host) (rn rd : RegNum) (b u p_bit w l adresse value offset : Word) :
    Calcul Int := do
  let adresse ← preIndexer rn adresse offset u w p_bit
  let result ←
    if l ≠ 0 then chargerWordByte h rn rd b adresse value
    else rangerWordByte h rn rd b adresse value
  terminer result rn adresse offset u w p_bit

-- The register of the offset is read before bit 4 is looked at.
def armLoadStoreWordByte (h : Host) (ins : Word) (rn rd : RegNum)
    (u p_bit w l adresse value : Word) : Calcul Int := do
  let b := getBit ins 22
  if getBit ins 25 ≠ 0 then
    let rm_value ← armReadRegister (regNum (getBits ins 3 0))
    let shift_op := (getBits ins 6 5).toNat
    let shift_imm := (getBits ins 11 7).toNat
    if getBit ins 4 ≠ 0 then return UNDEFINED_INSTRUCTION
    else
      let offset ← effectuerDecalage h shift_op shift_imm rm_value
      accederWordByte h rn rd b u p_bit w l adresse value offset
  else accederWordByte h rn rd b u p_bit w l adresse value (getBits ins 11 0)

def offsetHalf (ins : Word) : Calcul Word := do
  if getBit ins 22 ≠ 0 then
    let immedL := getBits ins 3 0
    let immedH := getBits ins 11 8
    return (immedH <<< 4) ||| immedL
  else armReadRegister (regNum (getBits ins 3 0))

def rangerHalf (h : Host) (rd : RegNum) (adresse : Word) : Calcul Int := do
  armWriteHalf h adresse ((← armReadRegister rd).setWidth 16)

def chargerHalf (h : Host) (rd : RegNum) (adresse : Word) : Calcul Int := do
  let (result, value) ← armReadHalf h adresse h.value16
  armWriteRegister rd (value.setWidth 32)
  return result

def armLoadStoreHalf (h : Host) (ins : Word) (rn rd : RegNum) (u p_bit w l adresse : Word) :
    Calcul Int := do
  if rn = 15 then return UNDEFINED_INSTRUCTION
  else if getBits ins 27 25 = 0 ∧ getBit ins 7 = 1 ∧ getBit ins 4 = 1 then
    let sh := (getBits ins 6 5).setWidth 8
    let acces_mem : Byte := (l.setWidth 8 <<< 2) ||| sh
    let offset ← offsetHalf ins
    let adresse ← preIndexer rn adresse offset u w p_bit
    match acces_mem.toNat with
    | 1 => terminer (← rangerHalf h rd adresse) rn adresse offset u w p_bit
    | 5 => terminer (← chargerHalf h rd adresse) rn adresse offset u w p_bit
    | _ => return UNDEFINED_INSTRUCTION
  else return UNDEFINED_INSTRUCTION

def armLoadStore (h : Host) (ins : Word) : Calcul Int := do
  if (← condNotRespect ins) ≠ 0 then return -1
  else
    let rn := regNum (getBits ins 19 16)
    let rd := regNum (getBits ins 15 12)
    let u := getBit ins 23
    let p_bit := getBit ins 24
    let w := getBit ins 21
    let l := getBit ins 20
    let adresse ← armReadRegister rn
    let value := if rn = 15 then adresse + 8 else h.value
    if getBits ins 27 26 = 1 then armLoadStoreWordByte h ins rn rd u p_bit w l adresse value
    else armLoadStoreHalf h ins rn rd u p_bit w l adresse

def transfererMot (h : Host) (l : Word) (reg_num : RegNum) (adresse value : Word) :
    Calcul (Int × Word) := do
  if l ≠ 0 then
    let (result, value) ← armReadWord h adresse value
    armWriteRegister reg_num value
    return (result, value)
  else
    let value ← armReadRegister reg_num
    let result ← armWriteWord h adresse value
    return (result, value)

def transferer (h : Host) (l u : Word) (list_reg : Half) :
    List RegNum → Word → Word → Calcul (Int × Word)
  | [], _, adresse => return (0, adresse)
  | reg_num :: reste, value, adresse => do
      if getBit list_reg reg_num ≠ 0 then
        let (result, value) ← transfererMot h l reg_num adresse value
        if result = -1 then return (DATA_ABORT, adresse)
        else transferer h l u list_reg reste value (adresse + (if u ≠ 0 then 4 else -4))
      else transferer h l u list_reg reste value adresse

def armLoadStoreMultiple (h : Host) (ins : Word) : Calcul Int := do
  if (← condNotRespect ins) ≠ 0 then return -1
  else
    let p_bit := getBit ins 24
    let u := getBit ins 23
    let s := getBit ins 22
    let w := getBit ins 21
    let l := getBit ins 20
    let rn := regNum (getBits ins 19 16)
    let list_reg : Half := (getBits ins 15 0).setWidth 16
    let adresse ← armReadRegister rn
    let adresse := if p_bit ≠ 0 then adresse + (if u ≠ 0 then 4 else -4) else adresse
    if list_reg = 0 ∨ (getBit ins rn ≠ 0 ∧ w ≠ 0) then return UNDEFINED_INSTRUCTION
    else if s = 0 then
      let (code, adresse) ←
        transferer h l u list_reg ((List.range 15).map (Fin.ofNat 18)) h.value adresse
      if code ≠ 0 then return code
      else if getBit list_reg 15 ≠ 0 then return UNDEFINED_INSTRUCTION
      else if w ≠ 0 then
        armWriteRegister rn adresse
        return 0
      else return 0
    else return UNDEFINED_INSTRUCTION

def aiguiller (h : Host) (ins : Word) : Calcul Int := do
  let function_to_use := (ins >>> 25) &&& 7
  match function_to_use.toNat with
  | 0 =>
      if getBit ins 24 = 1 ∧ getBit ins 23 = 0 ∧ getBit ins 20 = 0 then armMiscellaneous h ins
      else if getBit ins 4 = 1 ∧ getBit ins 7 = 1 then armLoadStore h ins
      else if getBit ins 24 = 1 ∧ getBit ins 23 = 0 ∧ getBit ins 20 = 0 then armMiscellaneous h ins
      else if getBit ins 4 = 1 ∧ getBit ins 7 = 1 then armLoadStore h ins
      else armDataProcessingShift h ins
  | 1 =>
      if getBit ins 24 = 1 ∧ getBit ins 23 = 0 ∧ getBit ins 21 = 0 ∧ getBit ins 20 = 0 then
        if getBit ins 21 ≠ 0 then armMiscellaneous h ins
        else return UNDEFINED_INSTRUCTION
      else if getBit ins 24 = 1 ∧ getBit ins 23 = 0 ∧ getBit ins 21 = 0 ∧ getBit ins 20 = 0 then
        return UNDEFINED_INSTRUCTION
      else armDataProcessingImmediateMsr h ins
  | 2 => armLoadStore h ins
  | 3 =>
      if getBits ins 24 20 = 0x1F ∧ getBits ins 7 4 = 0xF then return UNDEFINED_INSTRUCTION
      else if getBits ins 24 20 = 0x1F ∧ getBits ins 7 4 = 0xF then return UNDEFINED_INSTRUCTION
      else armLoadStore h ins
  | 4 => armLoadStoreMultiple h ins
  | 5 => armBranch ins
  | 6 => return UNDEFINED_INSTRUCTION
  | 7 => return if getBit ins 24 ≠ 0 then SOFTWARE_INTERRUPT else UNDEFINED_INSTRUCTION
  | _ => return -1

def armExecuteInstruction (h : Host) : Calcul Int := do
  let (_, ins) ← armFetch h h.ins
  aiguiller h ins

def armExceptionReset (exception : Byte) : Calcul Int := do
  let cpsr := 0x1d3 ||| Exception_bit_9
  if exception.toNat = RESET then
    armWriteCpsr cpsr
    armWriteRegister 15 0
  return exception.toNat

def armException (h : Host) (exception : Byte) : Calcul Int := do
  if exception.toNat = SOFTWARE_INTERRUPT then
    let address ← armReadRegister 15
    let (_, instruction) ← armReadWord h (address - 8) h.instruction
    let instruction := instruction &&& 0xFFFFFF
    if instruction = 0x123456 then return END_SIMULATION
    else if instruction = 0x000001 then
      let value ← armReadRegister 0
      modify fun p => putchar p value
      return 0
    else armExceptionReset exception
  else armExceptionReset exception

def armStep (h : Host) : Calcul Int := do
  let result ← armExecuteInstruction h
  if result ≠ 0 then armException h (BitVec.ofInt 8 result)
  else return result

end Trace

end Armator
