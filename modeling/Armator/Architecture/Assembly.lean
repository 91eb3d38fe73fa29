import Armator.Architecture.AluSpec
import Armator.Architecture.BinaryWrites
import Armator.Architecture.Encoding
import Armator.Architecture.Footprint
import Armator.Library.DoWhile

namespace Armator

open BitFields ByteLanes

structure Etat where
  reg : Fin 15 → Word
  pc : Word
  flags : Flags

def numero (r : Fin 15) : RegNum := r.castLE (by decide)

theorem numero_ne (r : Fin 15) : numero r ≠ 15 ∧ numero r ≠ 16 := by
  revert r
  decide

namespace Etat

def read (e : Etat) (r : Fin 16) : Word :=
  if h : r.val < 15 then e.reg ⟨r.val, h⟩ else e.pc + 8

def write (e : Etat) (r : Fin 16) (value : Word) : Etat :=
  if h : r.val < 15 then { e with reg := Function.update e.reg ⟨r.val, h⟩ value }
  else { e with pc := value }

def next (e : Etat) : Etat := { e with pc := e.pc + 4 }

end Etat

-- An arithmetic shift of a negative number by 0 is the one that hosts do not agree on.
def Shift.value (s : Shift) (r : Word) (n : Nat) : Option Word :=
  if n = 0 ∧ s = .asr ∧ bit r 31 = true then none else some (s.apply r n)

def Operand.value (e : Etat) : Operand → Option Word
  | .immediate rotate imm => some ((imm.setWidth 32).rotateRight (2 * rotate))
  | .shifted valeur type_decal rm => type_decal.value (e.read rm) valeur
  | .byRegister rs type_decal rm => type_decal.value (e.read rm) ((e.read rs).toNat % 2 ^ 5)

-- N and Z are those of the architecture but for MVN; an arithmetic result that is no word sets
-- both C and V.
def flagsAfter (op : Nat) (rn operande2 : Word) (c : Bool) : Flags :=
  let result := armResult op rn operande2 c
  if op = 15 then ⟨bit result 31, false, true, true⟩
  else if isLogical op then ⟨bit result 31, result = 0, false, false⟩
  else
    let e := exactValue op rn.toNat operande2.toNat c
    ⟨bit result 31, e = 0, e < 0 ∨ 2 ^ 32 ≤ e, e < 0 ∨ 2 ^ 32 ≤ e⟩

namespace Operation

-- What the simulator takes for a data-processing instruction, and does not leave the program by.
structure Admis (i : Operation) (f : Flags) : Prop where
  cond : i.cond ≠ 15
  accepted : conditionAccepted i.cond f = true
  comparison : isComparison i.opcode → i.s = true
  dest : i.s = true → i.rd ≠ 15

instance (i : Operation) (f : Flags) : Decidable (i.Admis f) :=
  decidable_of_iff
    (i.cond ≠ 15 ∧ conditionAccepted i.cond f = true ∧ (isComparison i.opcode → i.s = true) ∧
      (i.s = true → i.rd ≠ 15))
    ⟨fun h => ⟨h.1, h.2.1, h.2.2.1, h.2.2.2⟩, fun h => ⟨h.cond, h.accepted, h.comparison, h.dest⟩⟩

def result (i : Operation) (e : Etat) (operande2 : Word) : Etat :=
  let e' := e.next
  let e' :=
    if isComparison i.opcode then e'
    else e'.write i.rd (armResult i.opcode (e.read i.rn) operande2 e.flags.c)
  if i.s then { e' with flags := flagsAfter i.opcode (e.read i.rn) operande2 e.flags.c } else e'

def exec (i : Operation) (e : Etat) : Option Etat :=
  if i.Admis e.flags then (i.operand.value e).map (i.result e) else none

end Operation

-- A program lies at `base`, one word for each instruction. It says nothing about the machine that
-- leaves it.
structure Programme where
  base : Word
  code : List Operation

namespace Programme

def fetch (prog : Programme) (pc : Word) : Option Operation :=
  if (pc - prog.base).toNat % 4 = 0 then prog.code[(pc - prog.base).toNat / 4]? else none

def step (prog : Programme) (e : Etat) : Option Etat := (prog.fetch e.pc).bind fun i => i.exec e

def run (prog : Programme) (e : Etat) (n : Nat) : Option Etat := DoWhile.advance prog.step e n

structure Loaded (prog : Programme) (be : Bool) (mem : Memory) : Prop where
  aligned : prog.base.toNat % 4 = 0
  words : ∀ pc i, prog.fetch pc = some i → ∀ ins, memoryReadWord mem pc ins be = (0, i.word)

end Programme

def assembled (be : Bool) : List Operation → List Byte
  | [] => []
  | i :: code => (List.range 4).map (fun k => lane i.word (laneIndex 4 be k)) ++ assembled be code

theorem length_assembled (be : Bool) (code : List Operation) :
    (assembled be code).length = 4 * code.length := by
  induction code with
  | nil => rfl
  | cons i code ih =>
      rw [assembled, List.length_append, ih, List.length_map, List.length_range, List.length_cons]
      omega

theorem assembled_getElem (be : Bool) {code : List Operation} {j : Nat} {i : Operation}
    (h : code[j]? = some i) {k : Nat} (hk : k < 4) :
    (assembled be code)[4 * j + k]? = some (lane i.word (laneIndex 4 be k)) := by
  induction code generalizing j with
  | nil => simp at h
  | cons i' code ih =>
      rw [assembled]
      cases j with
      | zero =>
          obtain rfl := Option.some.inj h
          rw [List.getElem?_append_left (by simpa using hk)]
          simp [hk]
      | succ j =>
          have hidx : 4 * (j + 1) + k - 4 = 4 * j + k := by omega
          rw [List.getElem?_append_right (by simp; omega), List.length_map, List.length_range, hidx]
          exact ih h

namespace Programme

theorem fetch_eq_some {prog : Programme} {pc : Word} {i : Operation} (h : prog.fetch pc = some i) :
    ∃ j, prog.code[j]? = some i ∧ pc = prog.base + BitVec.ofNat 32 (4 * j) := by
  rw [fetch] at h
  split at h
  · rename_i h4
    refine ⟨_, h, ?_⟩
    have hd : 4 * ((pc - prog.base).toNat / 4) = (pc - prog.base).toNat := by omega
    rw [hd, BitVec.ofNat_toNat, BitVec.setWidth_eq, BitVec.add_comm, BitVec.sub_add_cancel]
  · cases h

theorem loaded_storeBytes (prog : Programme) (be : Bool) (mem : Memory)
    (ha : prog.base.toNat % 4 = 0) (hfit : prog.base.toNat + 4 * prog.code.length ≤ mem.size)
    (hsize : mem.size ≤ 2 ^ 32) :
    prog.Loaded be (mem.storeBytes prog.base (assembled be prog.code)) := by
  refine ⟨ha, fun pc i hf ins => ?_⟩
  obtain ⟨j, hj, rfl⟩ := fetch_eq_some hf
  have hjlt : j < prog.code.length := (List.getElem?_eq_some_iff.mp hj).1
  have hlen := length_assembled be prog.code
  have hpc : (prog.base + BitVec.ofNat 32 (4 * j)).toNat = prog.base.toNat + 4 * j := by
    rw [BitVec.toNat_add, BitVec.toNat_ofNat]
    omega
  have hin : ¬ (mem.storeBytes prog.base (assembled be prog.code)).horsPlage
      (prog.base + BitVec.ofNat 32 (4 * j)) := by
    rw [Memory.horsPlage_iff, hpc]
    change ¬ mem.size ≤ _
    omega
  rw [memoryReadWord_word _ _ _ _ hin]
  congr 1
  refine (word_eq_iff _ be _ _).mpr fun k hk => ?_
  have hbyte := assembled_getElem be hj hk
  obtain ⟨hlt, hget⟩ := List.getElem?_eq_some_iff.mp hbyte
  have hdata := storeBytes_data mem prog.base (assembled be prog.code) (by omega) ⟨4 * j + k, hlt⟩
  rw [BitVec.add_assoc, BitVec.ofNat_add_ofNat, hdata]
  exact hget

end Programme

-- The machine `p` shows the state `e`, and is as `p₀` was but for what a program of
-- data-processing instructions can change.
structure Shows (p₀ : ArmCore) (e : Etat) (p : ArmCore) : Prop where
  reg : ∀ r : Fin 15, armReadRegister p (numero r) = e.reg r
  pc : p.pc = e.pc
  flags : flagsOf p.cpsr = e.flags
  control : ∀ i < 28, bit p.cpsr i = bit p₀.cpsr i
  mem : p.mem = p₀.mem
  console : p.console = p₀.console
  within : Within p₀.mode p₀ p

def ArmCore.etat (p : ArmCore) : Etat :=
  ⟨fun r => armReadRegister p (numero r), p.pc, flagsOf p.cpsr⟩

theorem shows_etat (p : ArmCore) : Shows p p.etat p :=
  ⟨fun _ => rfl, rfl, rfl, fun _ _ => rfl, rfl, rfl, .refl _ _⟩

namespace Shows

variable {p₀ p : ArmCore} {e : Etat}

theorem mode (h : Shows p₀ e p) : p.mode = p₀.mode :=
  registersGetMode_congr _ _ fun i hi => h.control i (by omega)

theorem fetched (h : Shows p₀ e p) : Shows p₀ e.next p.fetched where
  reg r := by
    rw [fetched_armReadRegister _ _ (numero_ne r).1]
    exact h.reg r
  pc := by
    rw [fetched_pc, h.pc]
    rfl
  flags := by
    rw [fetched_cpsr]
    exact h.flags
  control i hi := by
    rw [fetched_cpsr]
    exact h.control i hi
  mem := h.mem
  console := h.console
  within := h.within.trans (.pc _ p _)

theorem read (h : Shows p₀ e p) (hpc : bit e.pc 1 = false) (n : RegNum) (hn : n.val < 16) :
    armReadRegister p.fetched n = e.read (Fin.ofNat 16 n.val) := by
  have hval : (Fin.ofNat 16 n.val).val = n.val := Nat.mod_eq_of_lt hn
  rw [Etat.read]
  split
  · rename_i hlt
    rw [hval] at hlt
    rw [fetched_armReadRegister _ _ (Fin.ne_of_val_ne (Nat.ne_of_lt hlt)), ← h.reg]
    congr 1
    exact Fin.ext hval.symm
  · rename_i hge
    have h15 : n = 15 := Fin.ext (by change n.val = 15; omega)
    rw [h15, fetched_armReadPc _ (by rw [h.pc]; exact hpc), h.pc]

theorem write (h : Shows p₀ e p) (hm : p₀.mode ∈ armModes) (n : RegNum) (hn : n.val < 16)
    (value : Word) :
    Shows p₀ (e.write (Fin.ofNat 16 n.val) value) (armWriteRegister p n value) := by
  have hval : (Fin.ofNat 16 n.val).val = n.val := Nat.mod_eq_of_lt hn
  obtain ⟨h16, h17⟩ := ne_of_val_lt hn
  have hcpsr := armWriteRegister_cpsr p n value h16
  have hwithin := Within.write p n value
  rw [h.mode] at hwithin
  rw [Etat.write]
  split
  · rename_i hlt
    have h15 : n ≠ 15 := by
      rintro rfl
      exact absurd hlt (by decide)
    refine ⟨fun r => ?_, ?_, ?_, ?_, h.mem, h.console, h.within.trans hwithin⟩
    · by_cases hr : numero r = n
      · have hr' : r = ⟨(Fin.ofNat 16 n.val).val, hlt⟩ := Fin.ext (by rw [hval, ← hr]; rfl)
        have hb : bank (n, p.mode) ≠ none := by
          rw [h.mode]
          exact bank_isSome n _ hm h17
        rw [hr, armReadRegister_write_same p n value h16 h15 hb, hr']
        dsimp only
        rw [Function.update_self]
      · have hr' : r ≠ ⟨(Fin.ofNat 16 n.val).val, hlt⟩ := by
          rintro rfl
          exact hr (Fin.ext hval)
        rw [armReadRegister_write_other p n value _ h16 (Ne.symm hr), h.reg]
        dsimp only
        rw [Function.update_of_ne hr']
    · rw [armWriteRegister_pc _ _ _ h15]
      exact h.pc
    · rw [hcpsr]
      exact h.flags
    · rw [hcpsr]
      exact h.control
  · rename_i hge
    have h15 : n = 15 := Fin.ext (by change n.val = 15; omega)
    subst h15
    refine ⟨fun r => ?_, ?_, ?_, ?_, h.mem, h.console, h.within.trans hwithin⟩
    · rw [armReadRegister_write_other p 15 value _ h16 (numero_ne r).1.symm]
      exact h.reg r
    · exact armWriteRegister_fifteen_pc p value
    · rw [hcpsr]
      exact h.flags
    · rw [hcpsr]
      exact h.control

theorem putFlags (h : Shows p₀ e p) (f : Flags) :
    Shows p₀ { e with flags := f } (armWriteCpsr p (putFlags p.cpsr f)) := by
  have hmode : (armWriteCpsr p (Armator.putFlags p.cpsr f)).mode = p.mode :=
    armWriteCpsr_mode p _ fun i hi => bit_putFlags_low _ _ _ (by omega)
  refine ⟨fun r => ?_, ?_, ?_, ?_, h.mem, h.console, h.within.trans (.cpsr _ _ _)⟩
  · rw [armReadRegister_writeCpsr p _ _ (numero_ne r).2 hmode]
    exact h.reg r
  · exact h.pc
  · rw [armWriteCpsr_cpsr, flagsOf_putFlags]
  · intro i hi
    rw [armWriteCpsr_cpsr, bit_putFlags_low _ _ _ hi]
    exact h.control i hi

end Shows

end Armator
