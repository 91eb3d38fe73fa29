import Armator.Architecture.Assembly
import Armator.Properties.ArithmeticFlags
import Armator.Properties.Confinement
import Armator.Properties.LogicalFlags

namespace Armator

open BitFields DoWhile

theorem encoding_exact :
    (∀ w, kindOf w = .dataProcessing ↔ ∃ i : Operation, i.Traite ∧ i.word = w) ∧
    (∀ i j : Operation, i.word = j.word → i = j) ∧
    ∀ (h : Host) (p : ArmCore) (i : Operation), i.Traite → aiguiller h p i.word = i.effet h p :=
  ⟨exists_word_iff, fun i _ hw => i.word_injective hw, fun h p i hi => aiguiller_word h p i hi⟩

-- A shift by 32 gives the number back, as where the amount is taken modulo 32, or nothing.
def Host.Usual (h : Host) : Prop := ∀ r, h.shlOut r 32 = r ∨ h.shlOut r 32 = 0

section Operands

variable {h : Host} {q : ArmCore} {e : Etat} {v : Word}

theorem effectuerDecalage_value (hh : h.Usual) {s : Shift} {r : Word} {n : Nat} (hn : n < 32)
    (hv : s.value r n = some v) : effectuerDecalage h s.code n r = v := by
  rw [Shift.value] at hv
  split at hv
  · cases hv
  · rename_i hdefined
    obtain rfl := Option.some.inj hv
    by_cases h0 : n = 0
    · subst h0
      rw [effectuerDecalage_zero]
      cases s with
      | lsl => exact (BitVec.shiftLeft_zero r).symm
      | lsr => exact (BitVec.ushiftRight_zero r).symm
      | asr =>
          have h31 : ¬ bit r 31 = true := fun hb => hdefined ⟨rfl, rfl, hb⟩
          rw [if_neg h31]
          exact BitVec.sshiftRight_zero.symm
      | ror =>
          have hr : Shift.apply .ror r 0 = r := by simp [Shift.apply, BitVec.rotateRight_def]
          rw [hr]
          rcases hh r with hs | hs
          · rw [hs, BitVec.or_self]
          · rw [hs]
            exact BitVec.or_zero
    · exact effectuerDecalage_shift h s n r hn (Or.inr (by omega))

theorem fetch_value (hh : h.Usual)
    (hread : ∀ r : Fin 16, armReadRegister q (registre r) = e.read r) {o : Operand}
    (hv : o.value e = some v) : o.fetch h q = v := by
  cases o with
  | immediate rotate imm =>
      have hrot := rotate.isLt
      refine effectuerDecalage_value (s := .ror) hh (by omega) ?_
      rw [Operand.value] at hv
      rw [Shift.value, if_neg (by simp), ← hv, Shift.apply, Nat.mul_comm]
  | shifted valeur type_decal rm =>
      rw [Operand.fetch, hread]
      exact effectuerDecalage_value hh valeur.isLt hv
  | byRegister rs type_decal rm =>
      rw [Operand.fetch, hread, hread]
      exact effectuerDecalage_value hh (Nat.mod_lt _ (by decide)) hv

end Operands

theorem tempFlags_tempOf (op : Nat) (rn operande2 cpsr : Word) (hop : op < 16) :
    tempFlags (tempOf op rn operande2 cpsr) = flagsAfter op rn operande2 (flagsOf cpsr).c := by
  rw [flagsAfter]
  by_cases h15 : op = 15
  · rw [if_pos h15, h15]
    exact tempFlags_not operande2
  · rw [if_neg h15]
    rcases logical_or_arithmetic op hop with hl | ha
    · rw [if_pos hl, tempOf_logical op rn operande2 cpsr hl h15 (flagsOf cpsr).c, tempFlags_word]
    · have hl : ¬ isLogical op := by
        unfold isLogical isAddition isSubtraction at *
        omega
      obtain ⟨hlow, hup⟩ := exactValue_bounds op rn operande2 (flagsOf cpsr).c
      rw [if_neg hl, armResult_arithmetic op rn operande2 ha,
        tempOf_arithmetic op rn operande2 cpsr ha]
      exact tempFlags_ofInt _ hlow hup

section Step

variable {h : Host} {p₀ p : ArmCore} {e e' : Etat} {i : Operation}

theorem operationWrite_shows {q : ArmCore} (hm : p₀.mode ∈ armModes) (hq : Shows p₀ e q)
    (rn v : Word) :
    Shows p₀
      (if isComparison i.opcode then e else e.write i.rd (armResult i.opcode rn v e.flags.c))
      (operationWrite i.opcode rn v q i.word) := by
  obtain ⟨_, _, _, _, _, _, hrd, _⟩ := i.word_fields
  have hfin : Fin.ofNat 16 i.rd.val = i.rd := Fin.ext (Nat.mod_eq_of_lt i.rd.isLt)
  rw [operationWrite]
  split
  · exact hq
  · have hw := hq.write hm (rdNum i.word) (rdNum_lt i.word) (armResult i.opcode rn v e.flags.c)
    rw [hrd, hfin] at hw
    rw [tempOf_setWidth i.opcode rn v q.cpsr i.opcode.isLt]
    rw [← hq.flags] at hw ⊢
    exact hw

theorem executeDataProcessing_shows (hh : h.Usual) (hm : p₀.mode ∈ armModes)
    (hp : Shows p₀ e p) (hpc : bit e.pc 1 = false) (hx : i.exec e = some e') :
    (executeDataProcessing h p.fetched i.word).1 = 0 ∧
      Shows p₀ e' (executeDataProcessing h p.fetched i.word).2 := by
  rw [Operation.exec] at hx
  split at hx
  · rename_i ha
    obtain ⟨v, hv, rfl⟩ := Option.map_eq_some_iff.mp hx
    obtain ⟨_, _, _, hop, h20, hrn, hrd, _⟩ := i.word_fields
    have hread (r : Fin 16) : armReadRegister p.fetched (registre r) = e.read r := by
      rw [hp.read hpc (registre r) r.isLt]
      exact congrArg e.read (Fin.ext (Nat.mod_eq_of_lt r.isLt))
    have hval := (operande2_word h p.fetched i).trans (fetch_value hh hread hv)
    have hn : armReadRegister p.fetched (rnNum i.word) = e.read i.rn := by
      rw [Fin.ext (b := registre i.rn) hrn, hread]
    have hwrite := operationWrite_shows (i := i) hm hp.fetched (e.read i.rn) v
    have hflags : flagsOf p.fetched.cpsr = e.flags := hp.fetched.flags
    rw [executeDataProcessing, hop, hn, hval, Operation.result]
    cases hs : i.s with
    | true =>
        have hd : rdNum i.word ≠ 15 := fun hd => ha.dest hs (Fin.ext (by rw [← hrd, hd]; rfl))
        rw [effectuerOperation_flags _ _ _ _ _ i.opcode.isLt (Or.inr (h20.trans hs)) hd,
          tempFlags_tempOf _ _ _ _ i.opcode.isLt, hflags,
          ← operationWrite_cpsr i.opcode (e.read i.rn) v p.fetched i.word]
        exact ⟨rfl, hwrite.putFlags _⟩
    | false =>
        have hn : ¬ setsFlags i.opcode i.word := by
          rintro (hc | hb)
          · rw [ha.comparison hc] at hs
            cases hs
          · rw [h20, hs] at hb
            cases hb
        rw [effectuerOperation_plain _ _ _ _ _ i.opcode.isLt hn]
        exact ⟨rfl, hwrite⟩
  · cases hx

theorem armStep_shows (hh : h.Usual) (hm : p₀.mode ∈ armModes) (hp : Shows p₀ e p)
    (hpc : bit e.pc 1 = false) (hw : p.fetchedWord h = i.word) (hx : i.exec e = some e') :
    (armStep h p).1 = 0 ∧ Shows p₀ e' (armStep h p).2 := by
  have hexec := executeDataProcessing_shows hh hm hp hpc hx
  rw [Operation.exec] at hx
  split at hx
  · rename_i ha
    have h15 : condField i.word ≠ 15 := by
      rw [i.word_fields.cond]
      exact fun hc => ha.cond (Fin.ext hc)
    have hc : condNotRespect p.fetched (p.fetchedWord h) = 0 := by
      have hflags : flagsOf p.fetched.cpsr = e.flags := hp.fetched.flags
      rw [hw, condNotRespect_eq, if_neg h15, i.word_fields.cond, hflags, ha.accepted]
      rfl
    have he : armExecuteInstruction h p = executeDataProcessing h p.fetched i.word := by
      rw [armExecuteInstruction_accepted h p hc, hw,
        (kindOf_word i).mpr fun hcmp => Or.inl (ha.comparison hcmp)]
      rfl
    rw [armStep_of_zero h p (by rw [he]; exact hexec.1), he]
    exact hexec
  · cases hx

end Step

section Run

variable {prog : Programme} {be : Bool} {p : ArmCore}

theorem Programme.fetch_aligned {mem : Memory} (hl : prog.Loaded be mem) {pc : Word} {i : Operation}
    (hf : prog.fetch pc = some i) : pc.toNat % 4 = 0 := by
  have hbase := hl.aligned
  rw [Programme.fetch] at hf
  split at hf
  · rename_i hpc
    rw [BitVec.toNat_sub] at hpc
    have hlt := prog.base.isLt
    omega
  · cases hf

theorem machineStep_shows {h : Host} (hh : h.Usual) (hbe : h.ENDIANESS = be)
    (hm : p.mode ∈ armModes) (hl : prog.Loaded be p.mem) {e e' : Etat} {x : Int × ArmCore}
    (hx : Shows p e x.2) (hstep : prog.step e = some e') :
    (machineStep h x).1 = 0 ∧ Shows p e' (machineStep h x).2 := by
  obtain ⟨i, hf, hexec⟩ := Option.bind_eq_some_iff.mp hstep
  have hpc := aligned_bit_one _ (Programme.fetch_aligned hl hf)
  refine armStep_shows hh hm hx hpc ?_ hexec
  rw [ArmCore.fetchedWord, hx.mem, hx.pc, hbe, hl.words _ _ hf]

theorem run_shows {hosts : Nat → Host} (hh : ∀ k, (hosts k).Usual)
    (hbe : ∀ k, (hosts k).ENDIANESS = be) (hm : p.mode ∈ armModes) (hl : prog.Loaded be p.mem)
    {n : Nat} {e : Etat} (hrun : prog.run p.etat n = some e) :
    (iterate machineStep hosts (0, p) n).1 = 0 ∧ Shows p e (iterate machineStep hosts (0, p) n).2 :=
  iterate_follows (R := fun (e : Etat) (x : Int × ArmCore) => x.1 = 0 ∧ Shows p e x.2)
    ⟨rfl, shows_etat p⟩
    (fun k _ _ _ hx hstep => machineStep_shows (hh k) (hbe k) hm hl hx.2 hstep) hrun

end Run

theorem program_runs (prog : Programme) (be : Bool) (hosts : Nat → Host) (p : ArmCore)
    (hh : ∀ k, (hosts k).Usual) (hbe : ∀ k, (hosts k).ENDIANESS = be) (hm : p.mode ∈ armModes)
    (hl : prog.Loaded be p.mem) (n : Nat) (e : Etat) (hrun : prog.run p.etat n = some e) :
    (iterate machineStep hosts (0, p) n).1 = 0 ∧ Shows p e (p.after hosts n) :=
  run_shows hh hbe hm hl hrun

-- MOV R0, #1; ADDS R0, R0, R0; SUB PC, PC, #12, which goes back to the addition.
def doubling : Programme where
  base := 0
  code := [⟨14, 13, false, 0, 0, .immediate 0 1⟩, ⟨14, 4, true, 0, 0, .shifted 0 .lsl 0⟩,
    ⟨14, 2, false, 15, 15, .immediate 0 12⟩]

def doublingCore : ArmCore :=
  { afterReset [0, 0, 0] with
    mem := (afterReset [0, 0, 0]).mem.storeBytes 0 (assembled true doubling.code) }

theorem program_runs_doubling :
    ∃ e, e.reg 0 = 4 ∧ e.pc = 4 ∧
      (iterate machineStep (fun _ => Host.blank) (0, doublingCore) 5).1 = 0 ∧
        Shows doublingCore e (doublingCore.after (fun _ => Host.blank) 5) :=
  ⟨_, by decide, by decide, program_runs doubling true (fun _ => Host.blank) doublingCore
    (fun _ _ => Or.inr rfl) (fun _ => rfl) (by decide)
    (doubling.loaded_storeBytes true _ (by decide) (by decide) (by decide)) 5 _ rfl⟩

end Armator
