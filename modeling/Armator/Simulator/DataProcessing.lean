import Armator.Simulator.Core

namespace Armator

def regNum (x : Word) : RegNum := Fin.ofNat 18 x.toNat

def determinerDecalage (bit6 bit5 : Word) : Nat :=
  if bit6 = 0 ∧ bit5 = 0 then LSL
  else if bit6 = 0 ∧ bit5 = 1 then LSR
  else if bit6 = 1 ∧ bit5 = 0 then ASR
  else ROR

def effectuerDecalage (h : Host) (decalage val : Nat) (r : Word) : Word :=
  if decalage = LSL then h.shl r val
  else if decalage = LSR then h.shr r val
  else if decalage = ASR then
    let bit31 := (getBit r 31).setWidth 8
    if bit31 = 1 then
      let masque : Word := ~~~0
      h.shr r val ||| h.shl masque (32 - val)
    else h.shr r val
  else h.shr r val ||| h.shl r (32 - val)

def masqueFlag (k : Nat) : Word := ~~~(1 <<< k)

def updateFlags (temp : BitVec 64) (p : ArmCore) (bit_S : Word) (rd_num : RegNum) : Int × ArmCore :=
  if bit_S = 1 ∧ rd_num = 15 then
    if armCurrentModeHasSpsr p then (0, armWriteCpsr p (armReadSpsr p))
    else (UNDEFINED_INSTRUCTION, p)
  else if bit_S = 1 then
    let res : Word := temp.setWidth 32
    let p :=
      if temp = 0 then armWriteCpsr p (armReadCpsr p ||| ~~~masqueFlag bitZ)
      else armWriteCpsr p (armReadCpsr p &&& masqueFlag bitZ)
    let bitPoidsFort := getBit temp 31
    let p :=
      if bitPoidsFort = 1 then armWriteCpsr p (armReadCpsr p ||| ~~~masqueFlag bitN)
      else armWriteCpsr p (armReadCpsr p &&& masqueFlag bitN)
    let p :=
      if getBit temp 32 = 1 then armWriteCpsr p (armReadCpsr p ||| ~~~masqueFlag bitC)
      else armWriteCpsr p (armReadCpsr p &&& masqueFlag bitC)
    let p :=
      if temp = res.setWidth 64 then armWriteCpsr p (armReadCpsr p &&& masqueFlag bitV)
      else armWriteCpsr p (armReadCpsr p ||| ~~~masqueFlag bitV)
    (0, p)
  else (0, p)

def effectuerOperation (opeCode : Nat) (rn operande2 : Word) (p : ArmCore) (ins : Word) :
    Int × ArmCore :=
  let rd_num := regNum (getBits ins 15 12)
  let cpsr := armReadCpsr p
  let flagC := (getBit cpsr bitC).setWidth 64
  let bit_S := getBit ins 20
  let rn := rn.setWidth 64
  let operande2 := operande2.setWidth 64
  let ecrire (temp : BitVec 64) : Int × ArmCore :=
    updateFlags temp (armWriteRegister p rd_num (temp.setWidth 32)) bit_S rd_num
  let comparer (temp : BitVec 64) : Int × ArmCore := updateFlags temp p 1 rd_num
  match opeCode with
  | 0 => ecrire (rn &&& operande2)
  | 1 => ecrire (rn ^^^ operande2)
  | 2 => ecrire (rn - operande2)
  | 3 => ecrire (operande2 - rn)
  | 4 => ecrire (rn + operande2)
  | 5 => ecrire (rn + operande2 + flagC)
  | 6 => ecrire (rn - operande2 + flagC - 1)
  | 7 => ecrire (operande2 - rn + flagC - 1)
  | 8 => comparer (rn &&& operande2)
  | 9 => comparer (rn ^^^ operande2)
  | 10 => comparer (rn - operande2)
  | 11 => comparer (rn + operande2)
  | 12 => ecrire (rn ||| operande2)
  | 13 => ecrire operande2
  | 14 => ecrire (rn &&& ~~~operande2)
  | 15 => ecrire (~~~operande2)
  | _ => (1, p)

def armDataProcessingShift (h : Host) (p : ArmCore) (ins : Word) : Int × ArmCore :=
  if condNotRespect p ins ≠ 0 then (1, p)
  else
    let rm_num := regNum (getBits ins 3 0)
    let rm_valeur := armReadRegister p rm_num
    let decalage := determinerDecalage (getBit ins 6) (getBit ins 5)
    let bit_4 := (getBit ins 4).setWidth 8
    let suite (valeur : Nat) : Int × ArmCore :=
      let rm_valeur := effectuerDecalage h decalage valeur rm_valeur
      let opCode := (getBits ins 24 21).toNat
      let rn_num := regNum (getBits ins 19 16)
      let rn_valeur := armReadRegister p rn_num
      effectuerOperation opCode rn_valeur rm_valeur p ins
    if bit_4 = 0 then suite (getBits ins 11 7).toNat
    else
      let bit_7 := (getBit ins 7).setWidth 8
      if bit_7 ≠ 0 then (UNDEFINED_INSTRUCTION, p)
      else
        let rs_num := regNum (getBits ins 11 8)
        let rs_valeur := armReadRegister p rs_num
        suite (getBits rs_valeur 4 0).toNat

def armDataProcessingImmediateMsr (h : Host) (p : ArmCore) (ins : Word) : Int × ArmCore :=
  if condNotRespect p ins ≠ 0 then (1, p)
  else
    let valeur_I := getBits ins 7 0
    let valeur := (getBits ins 11 8).toNat * 2
    let valeur_I := effectuerDecalage h ROR valeur valeur_I
    let opCode := (getBits ins 24 21).toNat
    let rn_num := regNum (getBits ins 19 16)
    let rn_valeur := armReadRegister p rn_num
    effectuerOperation opCode rn_valeur valeur_I p ins

end Armator
