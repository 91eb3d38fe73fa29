import Armator.Simulator.BranchOther
import Armator.Simulator.Exception
import Armator.Simulator.LoadStore

namespace Armator

-- The `switch` of `arm_execute_instruction`, its doubled labels read in textual order.
def aiguiller (h : Host) (p : ArmCore) (ins : Word) : Int × ArmCore :=
  let function_to_use := (ins >>> 25) &&& 7
  match function_to_use.toNat with
  | 0 =>
      if getBit ins 24 = 1 ∧ getBit ins 23 = 0 ∧ getBit ins 20 = 0 then armMiscellaneous h p ins
      else if getBit ins 4 = 1 ∧ getBit ins 7 = 1 then armLoadStore h p ins
      else if getBit ins 24 = 1 ∧ getBit ins 23 = 0 ∧ getBit ins 20 = 0 then armMiscellaneous h p ins
      else if getBit ins 4 = 1 ∧ getBit ins 7 = 1 then armLoadStore h p ins
      else armDataProcessingShift h p ins
  | 1 =>
      if getBit ins 24 = 1 ∧ getBit ins 23 = 0 ∧ getBit ins 21 = 0 ∧ getBit ins 20 = 0 then
        if getBit ins 21 ≠ 0 then armMiscellaneous h p ins
        else (UNDEFINED_INSTRUCTION, p)
      else if getBit ins 24 = 1 ∧ getBit ins 23 = 0 ∧ getBit ins 21 = 0 ∧ getBit ins 20 = 0 then
        (UNDEFINED_INSTRUCTION, p)
      else armDataProcessingImmediateMsr h p ins
  | 2 => armLoadStore h p ins
  | 3 =>
      if getBits ins 24 20 = 0x1F ∧ getBits ins 7 4 = 0xF then (UNDEFINED_INSTRUCTION, p)
      else if getBits ins 24 20 = 0x1F ∧ getBits ins 7 4 = 0xF then (UNDEFINED_INSTRUCTION, p)
      else armLoadStore h p ins
  | 4 => armLoadStoreMultiple h p ins
  | 5 => armBranch p ins
  | 6 => armCoprocessorLoadStore p ins
  | 7 => armCoprocessorOthersSwi p ins
  | _ => (-1, p)

def armExecuteInstruction (h : Host) (p : ArmCore) : Int × ArmCore :=
  let (_, ins, p) := armFetch h p h.ins
  aiguiller h p ins

def armStep (h : Host) (p : ArmCore) : Int × ArmCore :=
  let (result, p) := armExecuteInstruction h p
  if result ≠ 0 then armException h p (BitVec.ofInt 8 result)
  else (result, p)

end Armator
