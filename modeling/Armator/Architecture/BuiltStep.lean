import Armator.Simulator.TracedStep

namespace Armator

open Recorded

def Host.elsewhere (h : Host) (shlOut shrOut : Word → Nat → Word) : Host :=
  { h with shlOut := shlOut, shrOut := shrOut }

namespace Trace

-- What the functions of the simulator are made of, beside the same on another host; `decale` is
-- for those that evaluate shifts.
inductive Primitive (decale : Prop) (h h' : Host) : (α : Type) → Calcul α → Calcul α → Prop
  | lire {α : Type} (f : ArmCore → α) : Primitive decale h h' α (lire f) (lire f)
  | armReadRegister (reg : RegNum) :
      Primitive decale h h' Word (armReadRegister reg) (armReadRegister reg)
  | armReadCpsr : Primitive decale h h' Word armReadCpsr armReadCpsr
  | armReadSpsr : Primitive decale h h' Word armReadSpsr armReadSpsr
  | armWriteRegister (reg : RegNum) (value : Word) :
      Primitive decale h h' Unit (armWriteRegister reg value) (armWriteRegister reg value)
  | armWriteCpsr (value : Word) :
      Primitive decale h h' Unit (armWriteCpsr value) (armWriteCpsr value)
  | armWriteSpsr (value : Word) :
      Primitive decale h h' Unit (armWriteSpsr value) (armWriteSpsr value)
  | armReadByte (address : Word) (value : Byte) :
      Primitive decale h h' (Int × Byte) (armReadByte address value) (armReadByte address value)
  | armReadHalf (address : Word) (value : Half) :
      Primitive decale h h' (Int × Half) (armReadHalf h address value)
        (armReadHalf h' address value)
  | armReadWord (address value : Word) :
      Primitive decale h h' (Int × Word) (armReadWord h address value)
        (armReadWord h' address value)
  | armFetch (value : Word) :
      Primitive decale h h' (Int × Word) (armFetch h value) (armFetch h' value)
  | armWriteByte (address : Word) (value : Byte) :
      Primitive decale h h' Int (armWriteByte address value) (armWriteByte address value)
  | armWriteHalf (address : Word) (value : Half) :
      Primitive decale h h' Int (armWriteHalf h address value) (armWriteHalf h' address value)
  | armWriteWord (address value : Word) :
      Primitive decale h h' Int (armWriteWord h address value) (armWriteWord h' address value)
  | putchar (value : Word) :
      Primitive decale h h' Unit (modify fun p => Armator.putchar p value)
        (modify fun p => Armator.putchar p value)
  | shl (hd : decale) (x : Word) (n : Int) :
      Primitive decale h h' Word (shl h x n) (shl h' x n)
  | shr (hd : decale) (x : Word) (n : Int) :
      Primitive decale h h' Word (shr h x n) (shr h' x n)

-- `x` and `y` are one function of the simulator, on a host and on another.
abbrev Bati (decale : Prop) (h : Host) (s t : Word → Nat → Word) {α : Type}
    (x y : Calcul α) : Prop :=
  Built (Primitive decale h (h.elsewhere s t)) x y

section Instruction

variable {decale : Prop} {h : Host} {s t : Word → Nat → Word} (ins : Word)

theorem built_condNotRespect (ins : Word) :
    Bati decale h s t (condNotRespect ins) (condNotRespect ins) :=
  .bind (.prim .armReadCpsr) fun _ => .prim (.lire _)

theorem built_poserFlag (b : Bool) (k : Nat) : Bati decale h s t (poserFlag b k) (poserFlag b k) :=
  .bind (.prim .armReadCpsr) fun _ => .prim (.armWriteCpsr _)

theorem built_updateFlags (temp : BitVec 64) (bit_S : Word) (rd_num : RegNum) :
    Bati decale h s t (updateFlags temp bit_S rd_num) (updateFlags temp bit_S rd_num) := by
  have hlast : Bati decale h s t (do let _ ← armReadCpsr; return (0 : Int))
      (do let _ ← armReadCpsr; return (0 : Int)) :=
    .bind (.prim .armReadCpsr) fun _ => .pure 0
  unfold updateFlags
  refine .ite ?_ (.ite ?_ hlast)
  · refine .bind (.prim (.lire _)) fun _ => .ite ?_ (.pure _)
    exact .bind (.prim .armReadSpsr) fun _ => .bind (.prim (.armWriteCpsr _)) fun _ => hlast
  · refine .bind (.prim .armReadCpsr) fun _ => .bind (built_poserFlag _ _) fun _ => ?_
    refine .bind (built_poserFlag _ _) fun _ => .bind (built_poserFlag _ _) fun _ => ?_
    exact .bind (built_poserFlag _ _) fun _ => hlast

theorem built_effectuerOperation (opeCode : Nat) (rn operande2 : Word) :
    Bati decale h s t (effectuerOperation opeCode rn operande2 ins)
      (effectuerOperation opeCode rn operande2 ins) := by
  have hecrire (temp : BitVec 64) : Bati decale h s t (do
      armWriteRegister (regNum (getBits ins 15 12)) (temp.setWidth 32)
      updateFlags temp (getBit ins 20) (regNum (getBits ins 15 12))) (do
      armWriteRegister (regNum (getBits ins 15 12)) (temp.setWidth 32)
      updateFlags temp (getBit ins 20) (regNum (getBits ins 15 12))) :=
    .bind (.prim (.armWriteRegister _ _)) fun _ => built_updateFlags _ _ _
  unfold effectuerOperation
  refine .bind (.prim .armReadCpsr) fun _ => ?_
  dsimp only
  split
  all_goals first
    | exact hecrire _
    | exact built_updateFlags _ _ _
    | exact .pure 1

theorem built_deplacer {α : Type} {x : Calcul α} (hx : Bati decale h s t x x) (reg reg' : RegNum)
    (f : Word → Word) :
    Bati decale h s t (do
      let value ← armReadRegister reg
      armWriteRegister reg' (f value)
      x) (do
      let value ← armReadRegister reg
      armWriteRegister reg' (f value)
      x) :=
  .bind (.prim (.armReadRegister _)) fun _ => .bind (.prim (.armWriteRegister _ _)) fun _ => hx

theorem built_brancher : Bati decale h s t (brancher ins) (brancher ins) := by
  have hfin : Bati decale h s t (return (0 : Int)) (return (0 : Int)) := .pure 0
  have hlast := fun f => built_deplacer hfin 15 15 f
  have hrest := fun f g => Built.ite (c := getBits ins 31 28 = 15)
    (built_deplacer (hlast f) 16 16 fun value => setBit value 5) (hlast g)
  exact .ite (built_deplacer (hrest _ _) 15 14 fun value => value) (hrest _ _)

theorem built_armBranch : Bati decale h s t (armBranch ins) (armBranch ins) := by
  unfold armBranch
  refine .bind (built_condNotRespect ins) fun _ => .ite (built_brancher ins) ?_
  exact .bind (built_condNotRespect ins) fun _ => .ite (built_brancher ins) (.pure _)

theorem built_fonctionBX : Bati decale h s t (fonctionBX ins) (fonctionBX ins) := by
  have hfin : Bati decale h s t (return (0 : Int)) (return (0 : Int)) := .pure 0
  have hlast := built_deplacer hfin (regNum (getBits ins 3 0)) 15 fun value => value &&& 0xFFFFFFFE
  exact .ite (built_deplacer hlast 16 16 _) (built_deplacer hlast 16 16 _)

theorem built_effectuerDecalage (hd : decale) (decalage val : Nat) (r : Word) :
    Bati decale h s t (effectuerDecalage h decalage val r)
      (effectuerDecalage (h.elsewhere s t) decalage val r) := by
  have hl (x : Word) (n : Int) : Bati decale h s t (shl h x n) (shl (h.elsewhere s t) x n) :=
    .prim (.shl hd x n)
  have hr (x : Word) (n : Int) : Bati decale h s t (shr h x n) (shr (h.elsewhere s t) x n) :=
    .prim (.shr hd x n)
  unfold effectuerDecalage signBit
  refine .ite (hl _ _) (.ite (hr _ _) (.ite ?_ ?_))
  · refine .bind (.bind (hr _ _) fun _ => .pure _) fun _ => .ite ?_ (hr _ _)
    exact .bind (hl _ _) fun _ => .bind (hr _ _) fun _ => .pure _
  · exact .bind (hr _ _) fun _ => .bind (hl _ _) fun _ => .pure _

theorem built_armDataProcessingShift (hd : decale) :
    Bati decale h s t (armDataProcessingShift h ins)
      (armDataProcessingShift (h.elsewhere s t) ins) := by
  have hsuite (d n : Nat) (r : Word) : Bati decale h s t
      (do
        let rm_valeur ← effectuerDecalage h d n r
        let rn_valeur ← armReadRegister (regNum (getBits ins 19 16))
        effectuerOperation (getBits ins 24 21).toNat rn_valeur rm_valeur ins)
      (do
        let rm_valeur ← effectuerDecalage (h.elsewhere s t) d n r
        let rn_valeur ← armReadRegister (regNum (getBits ins 19 16))
        effectuerOperation (getBits ins 24 21).toNat rn_valeur rm_valeur ins) :=
    .bind (built_effectuerDecalage hd _ _ _) fun _ => .bind (.prim (.armReadRegister _)) fun _ =>
      built_effectuerOperation ins _ _ _
  unfold armDataProcessingShift
  refine .bind (built_condNotRespect ins) fun _ => .ite (.pure _) ?_
  refine .bind (.prim (.armReadRegister _)) fun _ => .ite (hsuite _ _ _) (.ite (.pure _) ?_)
  exact .bind (.prim (.armReadRegister _)) fun _ => hsuite _ _ _

theorem built_armDataProcessingImmediateMsr (hd : decale) :
    Bati decale h s t (armDataProcessingImmediateMsr h ins)
      (armDataProcessingImmediateMsr (h.elsewhere s t) ins) := by
  unfold armDataProcessingImmediateMsr
  refine .bind (built_condNotRespect ins) fun _ => .ite (.pure _) ?_
  refine .bind (built_effectuerDecalage hd _ _ _) fun _ => ?_
  exact .bind (.prim (.armReadRegister _)) fun _ => built_effectuerOperation ins _ _ _

theorem built_msrOperand (hd : decale) :
    Bati decale h s t (msrOperand h ins) (msrOperand (h.elsewhere s t) ins) := by
  unfold msrOperand
  refine .ite ?_ (.prim (.armReadRegister _))
  exact .bind (.prim (.shr hd _ _)) fun _ => .bind (.prim (.shl hd _ _)) fun _ => .pure _

theorem built_fonctionMSR
    (ho : Bati decale h s t (msrOperand h ins) (msrOperand (h.elsewhere s t) ins)) :
    Bati decale h s t (fonctionMSR h ins) (fonctionMSR (h.elsewhere s t) ins) := by
  have hecrire (f : Word → Word) : Bati decale h s t (do
      armWriteCpsr (f (← armReadCpsr))
      return (0 : Int)) (do
      armWriteCpsr (f (← armReadCpsr))
      return (0 : Int)) :=
    .bind (.prim .armReadCpsr) fun _ => .bind (.prim (.armWriteCpsr _)) fun _ => .pure 0
  unfold fonctionMSR
  refine .bind ho fun _ => .ite (.pure _) (.ite ?_ ?_)
  · refine .bind (.prim (.lire _)) fun _ => .ite (.ite (.pure _) ?_) ?_
    · exact hecrire _
    · exact hecrire _
  · refine .bind (.prim (.lire _)) fun _ => .ite ?_ (.pure _)
    exact .bind (.prim .armReadSpsr) fun _ => .bind (.prim (.armWriteSpsr _)) fun _ => .pure _

theorem built_armMiscellaneous
    (ho : Bati decale h s t (msrOperand h ins) (msrOperand (h.elsewhere s t) ins)) :
    Bati decale h s t (armMiscellaneous h ins) (armMiscellaneous (h.elsewhere s t) ins) := by
  unfold armMiscellaneous
  refine .bind (built_condNotRespect ins) fun _ => .ite ?_ (.pure _)
  exact .ite (built_fonctionMSR ins ho) (.ite (built_fonctionBX ins) (.pure _))

theorem built_preIndexer (rn : RegNum) (adresse offset u w p_bit : Word) :
    Bati decale h s t (preIndexer rn adresse offset u w p_bit)
      (preIndexer rn adresse offset u w p_bit) := by
  unfold preIndexer
  refine .ite (.ite ?_ (.pure _)) (.pure _)
  exact .bind (.prim (.armWriteRegister _ _)) fun _ => .pure _

theorem built_terminer (acces : Int) (rn : RegNum) (adresse offset u w p_bit : Word) :
    Bati decale h s t (terminer acces rn adresse offset u w p_bit)
      (terminer acces rn adresse offset u w p_bit) := by
  unfold terminer postIndexer
  refine .ite (.pure _) (.ite (.ite (.pure _) ?_) (.pure _))
  exact .bind (.prim (.armWriteRegister _ _)) fun _ => .pure _

theorem built_offsetHalf : Bati decale h s t (offsetHalf ins) (offsetHalf ins) :=
  .ite (.pure _) (.prim (.armReadRegister _))

theorem built_chargerWordByte (rn rd : RegNum) (b adresse value : Word) :
    Bati decale h s t (chargerWordByte h rn rd b adresse value)
      (chargerWordByte (h.elsewhere s t) rn rd b adresse value) := by
  have hrd (value : Word) (result : Int) :
      Bati decale h s t (do armWriteRegister rd value; return result)
        (do armWriteRegister rd value; return result) :=
    .bind (.prim (.armWriteRegister _ _)) fun _ => .pure _
  unfold chargerWordByte
  dsimp only
  refine .ite (.ite ?_ ?_) (.ite ?_ ?_)
  · exact .bind (.prim (.armReadByte _ _)) fun _ => hrd _ _
  · exact .bind (.pure _) fun _ => hrd _ _
  · exact .bind (.prim (.armReadWord _ _)) fun _ => hrd _ _
  · exact .bind (.pure _) fun _ => hrd _ _

theorem built_rangerWordByte (rn rd : RegNum) (b adresse value : Word) :
    Bati decale h s t (rangerWordByte h rn rd b adresse value)
      (rangerWordByte (h.elsewhere s t) rn rd b adresse value) := by
  have hstore (value : Word) (value8 : Byte) :
      Bati decale h s t
        (if b ≠ 0 then armWriteByte adresse value8 else armWriteWord h adresse value)
        (if b ≠ 0 then armWriteByte adresse value8
          else armWriteWord (h.elsewhere s t) adresse value) :=
    .ite (.prim (.armWriteByte _ _)) (.prim (.armWriteWord _ _))
  unfold rangerWordByte
  refine .ite ?_ (hstore _ _)
  exact .bind (.prim (.armReadRegister _)) fun _ => .bind (.prim (.armReadRegister _)) fun _ =>
    hstore _ _

theorem built_accederWordByte (rn rd : RegNum) (b u p_bit w l adresse value offset : Word) :
    Bati decale h s t (accederWordByte h rn rd b u p_bit w l adresse value offset)
      (accederWordByte (h.elsewhere s t) rn rd b u p_bit w l adresse value offset) := by
  unfold accederWordByte
  refine .bind (built_preIndexer _ _ _ _ _ _) fun _ => .ite ?_ ?_
  · exact .bind (built_chargerWordByte _ _ _ _ _) fun _ => built_terminer _ _ _ _ _ _ _
  · exact .bind (built_rangerWordByte _ _ _ _ _) fun _ => built_terminer _ _ _ _ _ _ _

theorem built_armLoadStoreWordByte (hd : decale) (rn rd : RegNum)
    (u p_bit w l adresse value : Word) :
    Bati decale h s t (armLoadStoreWordByte h ins rn rd u p_bit w l adresse value)
      (armLoadStoreWordByte (h.elsewhere s t) ins rn rd u p_bit w l adresse value) := by
  unfold armLoadStoreWordByte
  refine .ite ?_ (built_accederWordByte _ _ _ _ _ _ _ _ _ _)
  refine .bind (.prim (.armReadRegister _)) fun _ => .ite (.pure _) ?_
  exact .bind (built_effectuerDecalage hd _ _ _) fun _ =>
    built_accederWordByte _ _ _ _ _ _ _ _ _ _

theorem built_armLoadStoreHalf (rn rd : RegNum) (u p_bit w l adresse : Word) :
    Bati decale h s t (armLoadStoreHalf h ins rn rd u p_bit w l adresse)
      (armLoadStoreHalf (h.elsewhere s t) ins rn rd u p_bit w l adresse) := by
  unfold armLoadStoreHalf
  refine .ite (.pure _) (.ite ?_ (.pure _))
  refine .bind (built_offsetHalf ins) fun _ => .bind (built_preIndexer _ _ _ _ _ _) fun _ => ?_
  split
  · refine .bind ?_ fun _ => built_terminer _ _ _ _ _ _ _
    exact .bind (.prim (.armReadRegister _)) fun _ => .prim (.armWriteHalf _ _)
  · refine .bind ?_ fun _ => built_terminer _ _ _ _ _ _ _
    refine .bind (.prim (.armReadHalf _ _)) fun _ => ?_
    exact .bind (.prim (.armWriteRegister _ _)) fun _ => .pure _
  · exact .pure _

theorem built_armLoadStore (hd : decale) :
    Bati decale h s t (armLoadStore h ins) (armLoadStore (h.elsewhere s t) ins) := by
  unfold armLoadStore
  refine .bind (built_condNotRespect ins) fun _ => .ite (.pure _) ?_
  refine .bind (.prim (.armReadRegister _)) fun _ => .ite ?_ ?_
  · exact built_armLoadStoreWordByte ins hd _ _ _ _ _ _ _ _
  · exact built_armLoadStoreHalf ins _ _ _ _ _ _ _

theorem built_transfererMot (l : Word) (reg_num : RegNum) (adresse value : Word) :
    Bati decale h s t (transfererMot h l reg_num adresse value)
      (transfererMot (h.elsewhere s t) l reg_num adresse value) := by
  unfold transfererMot
  refine .ite ?_ ?_
  · refine .bind (.prim (.armReadWord _ _)) fun _ => ?_
    exact .bind (.prim (.armWriteRegister _ _)) fun _ => .pure _
  · refine .bind (.prim (.armReadRegister _)) fun _ => ?_
    exact .bind (.prim (.armWriteWord _ _)) fun _ => .pure _

theorem built_transferer (l u : Word) (list_reg : Half) (regs : List RegNum)
    (value adresse : Word) : Bati decale h s t (transferer h l u list_reg regs value adresse)
      (transferer (h.elsewhere s t) l u list_reg regs value adresse) := by
  induction regs generalizing value adresse with
  | nil => exact .pure _
  | cons r rs ih =>
      unfold transferer
      refine .ite ?_ (ih _ _)
      exact .bind (built_transfererMot _ _ _ _) fun _ => .ite (.pure _) (ih _ _)

theorem built_armLoadStoreMultiple :
    Bati decale h s t (armLoadStoreMultiple h ins)
      (armLoadStoreMultiple (h.elsewhere s t) ins) := by
  unfold armLoadStoreMultiple
  refine .bind (built_condNotRespect ins) fun _ => .ite (.pure _) ?_
  refine .bind (.prim (.armReadRegister _)) fun _ => .ite (.pure _) (.ite ?_ (.pure _))
  refine .bind (built_transferer _ _ _ _ _ _) fun _ => .ite (.pure _) (.ite (.pure _) ?_)
  exact .ite (.bind (.prim (.armWriteRegister _ _)) fun _ => .pure _) (.pure _)

theorem built_aiguiller (hd : decale) :
    Bati decale h s t (aiguiller h ins) (aiguiller (h.elsewhere s t) ins) := by
  have hls : Bati decale h s t (armLoadStore h ins) (armLoadStore (h.elsewhere s t) ins) :=
    built_armLoadStore ins hd
  have hmisc : Bati decale h s t (armMiscellaneous h ins)
      (armMiscellaneous (h.elsewhere s t) ins) :=
    built_armMiscellaneous ins (built_msrOperand ins hd)
  unfold aiguiller
  dsimp only
  split
  · exact .ite hmisc (.ite hls (.ite hmisc (.ite hls (built_armDataProcessingShift ins hd))))
  · exact .ite (.ite hmisc (.pure _)) (.ite (.pure _) (built_armDataProcessingImmediateMsr ins hd))
  · exact hls
  · exact .ite (.pure _) (.ite (.pure _) hls)
  · exact built_armLoadStoreMultiple ins
  · exact built_armBranch ins
  · exact .pure _
  · exact .pure _
  · exact .pure _

theorem built_armExecuteInstruction (hd : decale) :
    Bati decale h s t (armExecuteInstruction h) (armExecuteInstruction (h.elsewhere s t)) :=
  .bind (.prim (.armFetch _)) fun _ => built_aiguiller _ hd

theorem built_armException (exception : Byte) :
    Bati decale h s t (armException h exception) (armException (h.elsewhere s t) exception) := by
  have hreset : Bati decale h s t (armExceptionReset exception) (armExceptionReset exception) := by
    unfold armExceptionReset
    refine .ite (.bind (.prim (.armWriteCpsr _)) fun _ => ?_) (.pure _)
    exact .bind (.prim (.armWriteRegister _ _)) fun _ => .pure _
  unfold armException
  refine .ite ?_ hreset
  refine .bind (.prim (.armReadRegister _)) fun _ => .bind (.prim (.armReadWord _ _)) fun _ => ?_
  refine .ite (.pure _) (.ite ?_ hreset)
  refine .bind (.prim (.armReadRegister _)) fun _ => ?_
  exact .bind (.prim (.putchar _)) fun _ => .pure _

theorem built_armStep (hd : decale) :
    Bati decale h s t (armStep h) (armStep (h.elsewhere s t)) := by
  unfold armStep
  refine .bind (built_armExecuteInstruction hd) fun _ => .ite (built_armException _) (.pure _)

end Instruction

end Trace

end Armator
