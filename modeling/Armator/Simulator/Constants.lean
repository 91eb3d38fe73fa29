import Armator.Simulator.Util

namespace Armator

def USR : Byte := 0x10
def FIQ : Byte := 0x11
def IRQ : Byte := 0x12
def SVC : Byte := 0x13
def ABT : Byte := 0x17
def UND : Byte := 0x1b
def SYS : Byte := 0x1f

def RESET : Int := 1
def DATA_ABORT : Int := 2
def FAST_INTERRUPT : Int := 3
def INTERRUPT : Int := 4
def IMPRECISE_ABORT : Int := 5
def PREFETCH_ABORT : Int := 6
def UNDEFINED_INSTRUCTION : Int := 7
def SOFTWARE_INTERRUPT : Int := 8
def END_SIMULATION : Int := 9

def bitN : Nat := 31
def bitZ : Nat := 30
def bitC : Nat := 29
def bitV : Nat := 28

def LSL : Nat := 0
def LSR : Nat := 1
def ASR : Nat := 2
def ROR : Nat := 3

def UnallocMask : Word := 0x0FFFFF00
def UserMask : Word := 0xF0000000
def PrivMask : Word := 0x0000000F
def StateMask : Word := 0x00000020

end Armator
