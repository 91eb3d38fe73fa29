import Armator.Simulator.Util

namespace Armator

-- The arguments are `int`s: of `cond`, `opcode` and `type_decal` every bit is placed.
def construireInstruction (cond I opcode S Rn Rd shifter_operand : Word) : Word :=
  (0 : Word) + cond <<< 28 + (I &&& 0b1) <<< 25 + opcode <<< 21 + (S &&& 0b1) <<< 20 +
    (Rn &&& 0xF) <<< 16 + (Rd &&& 0xF) <<< 12 + (shifter_operand &&& 0xFFF)

def construireShifterIm (rotate immediate : Word) : Half :=
  ((0 : Word) + (rotate &&& 0xF) <<< 8 + (immediate &&& 0xFF)).setWidth 16

def construireShifterVal (valeur type_decal Rm : Word) : Half :=
  ((0 : Word) + (valeur &&& 0x1F) <<< 7 + type_decal <<< 5 + (Rm &&& 0xF)).setWidth 16

def construireShifterRs (Rs type_decal Rm : Word) : Half :=
  ((0 : Word) + (Rs &&& 0xF) <<< 8 + type_decal <<< 5 + (1 : Word) <<< 4 + (Rm &&& 0xF)).setWidth 16

end Armator
