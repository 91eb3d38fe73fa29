import Armator.Architecture.BuiltStep
import Armator.Architecture.CoreFrames
import Armator.Architecture.TracedStep

namespace Armator

open Recorded

namespace Trace

-- The machine that a trace tells of; it does not tell what is printed.
structure Machine where
  cycle_count : Word
  reg : Registers
  mem : Memory

def machine (p : ArmCore) : Machine := ⟨p.cycle_count, p.reg, p.mem⟩

def shown (r : Registers) (reg : RegNum) (mode : Byte) : Word :=
  let value := registersRead r reg mode
  if reg = 15 then (value + 4) &&& 0xFFFFFFFD else value

def valueRead (be : Bool) (m : Memory) (size : Byte) (address value : Word) : Word :=
  if size = 1 then (memoryReadByte m address (value.setWidth 8)).2.setWidth 32
  else if size = 2 then (memoryReadHalf m address (value.setWidth 16) be).2.setWidth 32
  else (memoryReadWord m address value be).2

def written (be : Bool) (m : Memory) (size : Byte) (address value : Word) : Memory :=
  if size = 1 then (memoryWriteByte m address (value.setWidth 8)).2
  else if size = 2 then (memoryWriteHalf m address (value.setWidth 16) be).2
  else (memoryWriteWord m address value be).2

def Appel.apply (be : Bool) : Appel → Machine → Option Machine
  | .register cycle .WRITE reg mode value, m =>
      if cycle = m.cycle_count then some { m with reg := registersWrite m.reg reg mode value }
      else none
  | .register cycle .READ reg mode value, m =>
      if cycle = m.cycle_count ∧ value = shown m.reg reg mode then some m else none
  | .memory cycle .WRITE size _ address value, m =>
      if cycle = m.cycle_count then some { m with mem := written be m.mem size address value }
      else none
  | .memory cycle .READ size .OTHER_ACCESS address value, m =>
      if cycle = m.cycle_count ∧ value = valueRead be m.mem size address value then some m else none
  | .memory cycle .READ size .OPCODE_FETCH address value, m =>
      if cycle = m.cycle_count + 1 ∧ address = m.reg.registre PC ∧
          value = valueRead be m.mem size address value then
        some { m with cycle_count := cycle, reg := m.reg.set PC (address + 4) }
      else none

def Fait.apply (be : Bool) : Fait → Machine → Option Machine
  | .appel a, m => a.apply be m
  | .decalage _, m => some m

def Tells {α : Type} (be : Bool) (x : Calcul α) : Prop := Replays machine (Fait.apply be) x

theorem replay_appels (be : Bool) (fs : List Fait) (m : Machine) :
    replay (Appel.apply be) (Fait.appels fs) m = replay (Fait.apply be) fs m := by
  induction fs generalizing m with
  | nil => rfl
  | cons f fs ih =>
      cases f with
      | appel a => exact congrArg (Option.bind _) (funext ih)
      | decalage n => exact ih m

section Memory

variable (be : Bool) (m : Memory) (address : Word)

theorem setWidth_back {w : Nat} (hw : w ≤ 32) (value : BitVec w) :
    ((value.setWidth 32).setWidth w) = value := by
  rw [BitVec.setWidth_setWidth_of_le _ hw, BitVec.setWidth_eq]

theorem valueRead_byte (value : Byte) :
    valueRead be m 1 address ((memoryReadByte m address value).2.setWidth 32) =
      (memoryReadByte m address value).2.setWidth 32 := by
  rw [valueRead, if_pos rfl, setWidth_back (by decide)]
  unfold memoryReadByte
  split <;> rfl

theorem valueRead_half (value : Half) :
    valueRead be m 2 address ((memoryReadHalf m address value be).2.setWidth 32) =
      (memoryReadHalf m address value be).2.setWidth 32 := by
  rw [valueRead, if_neg (by decide), if_pos rfl, setWidth_back (by decide)]
  unfold memoryReadHalf
  split <;> rfl

theorem valueRead_word (value : Word) :
    valueRead be m 4 address (memoryReadWord m address value be).2 =
      (memoryReadWord m address value be).2 := by
  rw [valueRead, if_neg (by decide), if_neg (by decide)]
  unfold memoryReadWord
  split <;> rfl

theorem written_byte (value : Byte) :
    written be m 1 address (value.setWidth 32) = (memoryWriteByte m address value).2 := by
  rw [written, if_pos rfl, setWidth_back (by decide)]

theorem written_half (value : Half) :
    written be m 2 address (value.setWidth 32) = (memoryWriteHalf m address value be).2 := by
  rw [written, if_neg (by decide), if_pos rfl, setWidth_back (by decide)]

theorem written_word (value : Word) :
    written be m 4 address value = (memoryWriteWord m address value be).2 := by
  rw [written, if_neg (by decide), if_neg (by decide)]

end Memory

section Core

variable {be : Bool}

theorem tells_lire {α : Type} (f : ArmCore → α) : Tells be (lire f) := fun _ => rfl

theorem tells_armReadRegister (reg : RegNum) : Tells be (armReadRegister reg) :=
  .single fun p => ⟨.appel <| .register p.cycle_count .READ reg (registersGetMode p.reg)
    (Armator.armReadRegister p reg), rfl, if_pos ⟨rfl, rfl⟩⟩

theorem tells_armReadCpsr : Tells be armReadCpsr :=
  .single fun p => ⟨.appel <| .register p.cycle_count .READ 16 0 (Armator.armReadCpsr p), rfl,
    if_pos ⟨rfl, rfl⟩⟩

theorem tells_armReadSpsr : Tells be armReadSpsr :=
  .single fun p => ⟨.appel <| .register p.cycle_count .READ 17 (registersGetMode p.reg)
    (Armator.armReadSpsr p), rfl, if_pos ⟨rfl, rfl⟩⟩

theorem tells_armWriteRegister (reg : RegNum) (value : Word) :
    Tells be (armWriteRegister reg value) :=
  .single fun p => ⟨.appel <| .register p.cycle_count .WRITE reg (registersGetMode p.reg) value, rfl,
    if_pos rfl⟩

theorem tells_armWriteCpsr (value : Word) : Tells be (armWriteCpsr value) :=
  .single fun p => ⟨.appel <| .register p.cycle_count .WRITE 16 0 value, rfl, if_pos rfl⟩

theorem tells_armWriteSpsr (value : Word) : Tells be (armWriteSpsr value) := by
  refine .single fun p => ?_
  have hmode : registersGetMode (registersWrite p.reg 17 (registersGetMode p.reg) value) =
      registersGetMode p.reg := registersGetMode_write _ _ _ _ (by decide)
  refine ⟨.appel <| .register p.cycle_count .WRITE 17 (registersGetMode p.reg) value, ?_, if_pos rfl⟩
  exact congrArg (fun mode => [Fait.appel (.register p.cycle_count .WRITE 17 mode value)]) hmode

theorem tells_armReadByte (address : Word) (value : Byte) : Tells be (armReadByte address value) :=
  .single fun p => ⟨.appel <| .memory p.cycle_count .READ 1 .OTHER_ACCESS address
    ((Armator.armReadByte p address value).2.setWidth 32), rfl,
    if_pos ⟨rfl, (valueRead_byte be p.mem address value).symm⟩⟩

theorem tells_armWriteByte (address : Word) (value : Byte) :
    Tells be (armWriteByte address value) := by
  refine .single fun p => ⟨.appel <| .memory p.cycle_count .WRITE 1 .OTHER_ACCESS address
    (value.setWidth 32), rfl, (if_pos rfl).trans ?_⟩
  exact congrArg (fun m => some { machine p with mem := m }) (written_byte be p.mem address value)

section Endianess

variable {h : Host} (hbe : h.ENDIANESS = be)

include hbe

theorem tells_armReadHalf (address : Word) (value : Half) :
    Tells be (armReadHalf h address value) := by
  subst hbe
  exact .single fun p => ⟨.appel <| .memory p.cycle_count .READ 2 .OTHER_ACCESS address
    ((Armator.armReadHalf h p address value).2.setWidth 32), rfl,
    if_pos ⟨rfl, (valueRead_half _ p.mem address value).symm⟩⟩

theorem tells_armReadWord (address value : Word) : Tells be (armReadWord h address value) := by
  subst hbe
  exact .single fun p => ⟨.appel <| .memory p.cycle_count .READ 4 .OTHER_ACCESS address
    (Armator.armReadWord h p address value).2, rfl,
    if_pos ⟨rfl, (valueRead_word _ p.mem address value).symm⟩⟩

theorem tells_armFetch (value : Word) : Tells be (armFetch h value) := by
  subst hbe
  exact .single fun p => ⟨.appel <| .memory (p.cycle_count + 1) .READ 4 .OPCODE_FETCH (p.reg.registre PC)
    (Armator.armFetch h p value).2.1, rfl,
    if_pos ⟨rfl, rfl, (valueRead_word _ p.mem (p.reg.registre PC) value).symm⟩⟩

theorem tells_armWriteHalf (address : Word) (value : Half) :
    Tells be (armWriteHalf h address value) := by
  subst hbe
  refine .single fun p => ⟨.appel <| .memory p.cycle_count .WRITE 2 .OTHER_ACCESS address
    (value.setWidth 32), rfl, (if_pos rfl).trans ?_⟩
  exact congrArg (fun m => some { machine p with mem := m }) (written_half _ p.mem address value)

theorem tells_armWriteWord (address value : Word) : Tells be (armWriteWord h address value) := by
  subst hbe
  refine .single fun p => ⟨.appel <| .memory p.cycle_count .WRITE 4 .OTHER_ACCESS address value, rfl,
    (if_pos rfl).trans ?_⟩
  exact congrArg (fun m => some { machine p with mem := m }) (written_word _ p.mem address value)

end Endianess

theorem tells_putchar (value : Word) :
    Tells be (modify fun p => putchar p value : Calcul Unit) := fun _ => rfl

theorem tells_shl (h : Host) (x : Word) (n : Int) : Tells be (shl h x n) :=
  .single fun _ => ⟨.decalage n, rfl, rfl⟩

theorem tells_shr (h : Host) (x : Word) (n : Int) : Tells be (shr h x n) :=
  .single fun _ => ⟨.decalage n, rfl, rfl⟩

theorem tells_primitive {decale : Prop} {h h' : Host} {α : Type} {x y : Calcul α}
    (hbe : h.ENDIANESS = be) (hx : Primitive decale h h' α x y) : Tells be x := by
  cases hx with
  | lire f => exact tells_lire f
  | armReadRegister reg => exact tells_armReadRegister reg
  | armReadCpsr => exact tells_armReadCpsr
  | armReadSpsr => exact tells_armReadSpsr
  | armWriteRegister reg value => exact tells_armWriteRegister reg value
  | armWriteCpsr value => exact tells_armWriteCpsr value
  | armWriteSpsr value => exact tells_armWriteSpsr value
  | armReadByte address value => exact tells_armReadByte address value
  | armReadHalf address value => exact tells_armReadHalf hbe address value
  | armReadWord address value => exact tells_armReadWord hbe address value
  | armFetch value => exact tells_armFetch hbe value
  | armWriteByte address value => exact tells_armWriteByte address value
  | armWriteHalf address value => exact tells_armWriteHalf hbe address value
  | armWriteWord address value => exact tells_armWriteWord hbe address value
  | putchar value => exact tells_putchar value
  | shl hd x n => exact tells_shl h x n
  | shr hd x n => exact tells_shr h x n

theorem tells_armStep {h : Host} (hbe : h.ENDIANESS = be) : Tells be (armStep h) := by
  have hbuilt : Bati True h h.shlOut h.shrOut (armStep h) _ := built_armStep trivial
  exact hbuilt.replays fun _ _ _ hx => tells_primitive hbe hx

end Core

end Trace

end Armator
