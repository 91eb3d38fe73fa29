import Armator.Simulator.Core

namespace Armator

def CP15_reg1_EEbit : Word := 0

def Exception_bit_9 : Word := CP15_reg1_EEbit <<< 9

def putchar (p : ArmCore) (value : Word) : ArmCore :=
  { p with console := p.console ++ [value.setWidth 8] }

-- The end of `arm_exception`, reached when the software interrupt is not handled there.
def armExceptionReset (p : ArmCore) (exception : Byte) : Int × ArmCore :=
  let cpsr := 0x1d3 ||| Exception_bit_9
  if exception.toNat = RESET then
    (exception.toNat, armWriteRegister (armWriteCpsr p cpsr) 15 0)
  else (exception.toNat, p)

def armException (h : Host) (p : ArmCore) (exception : Byte) : Int × ArmCore :=
  if exception.toNat = SOFTWARE_INTERRUPT then
    let address := armReadRegister p 15 - 8
    let instruction := (armReadWord h p address h.instruction).2 &&& 0xFFFFFF
    if instruction = 0x123456 then (END_SIMULATION, p)
    else if instruction = 0x000001 then (0, putchar p (armReadRegister p 0))
    else armExceptionReset p exception
  else armExceptionReset p exception

end Armator
