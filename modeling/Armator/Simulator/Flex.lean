import Armator.Library.Placed
import Armator.Simulator.Text
import Mathlib.Logic.Function.Basic

namespace Armator

namespace Flex

def YY_BUF_SIZE : Nat := 16384

def YY_READ_BUF_SIZE : Nat := 8192

def YY_END_OF_BUFFER_CHAR : Byte := 0

def YY_END_OF_BUFFER : Nat := 6

def yyAccept : List Nat := [0, 0, 0, 6, 4, 5, 4, 1, 2, 0, 0, 0, 3, 0]

def yyEc : List Nat :=
  [0, 1, 1, 1, 1, 1, 1, 1, 1, 1, 2, 1, 1, 1, 1, 1, 1, 1, 1, 1, 1, 1, 1, 1, 1, 1, 1, 1, 1, 1, 1, 1,
    1, 1, 1, 3, 4, 1, 1, 1, 1, 1, 1, 5, 1, 6, 1, 1, 7, 7, 7, 7, 7, 7, 7, 7, 7, 7, 1, 1, 1, 1, 1, 1,
    1, 7, 7, 7, 7, 7, 7, 1, 1, 1, 1, 1, 1, 1, 1, 1, 1, 1, 1, 1, 1, 1, 1, 1, 1, 1, 1, 1, 1, 1, 1, 1,
    1, 7, 7, 7, 7, 7, 7, 1, 1, 1, 1, 1, 1, 1, 1, 1, 1, 1, 1, 1, 1, 1, 1, 1, 1, 1, 1, 1, 1, 1, 1, 1,
    1, 1, 1, 1, 1, 1, 1, 1, 1, 1, 1, 1, 1, 1, 1, 1, 1, 1, 1, 1, 1, 1, 1, 1, 1, 1, 1, 1, 1, 1, 1, 1,
    1, 1, 1, 1, 1, 1, 1, 1, 1, 1, 1, 1, 1, 1, 1, 1, 1, 1, 1, 1, 1, 1, 1, 1, 1, 1, 1, 1, 1, 1, 1, 1,
    1, 1, 1, 1, 1, 1, 1, 1, 1, 1, 1, 1, 1, 1, 1, 1, 1, 1, 1, 1, 1, 1, 1, 1, 1, 1, 1, 1, 1, 1, 1, 1,
    1, 1, 1, 1, 1, 1, 1, 1, 1, 1, 1, 1, 1, 1, 1, 1, 1, 1, 1, 1, 1, 1, 1, 1, 1, 1, 1, 1, 1, 1, 1, 1]

def yyMeta : List Nat := [0, 1, 1, 1, 2, 1, 1, 1]

def yyBase : List Nat := [0, 0, 0, 13, 14, 14, 9, 14, 14, 8, 3, 2, 14, 14, 7]

def yyDef : List Nat := [0, 13, 1, 13, 13, 13, 14, 13, 13, 14, 13, 13, 13, 0, 13]

def yyNxt : List Nat :=
  [0, 4, 5, 4, 6, 7, 8, 4, 9, 12, 11, 10, 10, 13, 3, 13, 13, 13, 13, 13, 13, 13]

def yyChk : List Nat :=
  [0, 1, 1, 1, 1, 1, 1, 1, 14, 11, 10, 9, 6, 3, 13, 13, 13, 13, 13, 13, 13, 13]

def lire (table : List Nat) (i : Nat) : Except Fault Nat :=
  match table[i]? with
  | some x => .ok x
  | none => .error .debordement

-- `while (yy_chk[yy_base[yy_current_state] + yy_c] != yy_current_state)`
def chercher : Nat → Nat → Nat → Except Fault (Nat × Nat)
  | 0, _, _ => .error .sansFin
  | fuel + 1, state, c => do
      let base ← lire yyBase state
      let chk ← lire yyChk (base + c)
      if chk ≠ state then
        let state ← lire yyDef state
        let c ← (if state ≥ 14 then lire yyMeta c else pure c)
        chercher fuel state c
      else return (state, c)

def transition (state c : Nat) : Except Fault Nat := do
  let (state, c) ← chercher yyDef.length state c
  let base ← lire yyBase state
  lire yyNxt (base + c)

-- The bytes that a call of `read` finds; a call that fails (-1) is not among them.
structure Lecture where recu ::
  c : Byte
  s : Texte

def flux : List Lecture → Texte
  | [] => []
  | .recu c s :: ls => c :: s ++ flux ls

-- `YY_INPUT` with room for `max` bytes; what does not fit is left for the next call.
def yyInput (max : Nat) : List Lecture → Texte × List Lecture
  | [] => ([], [])
  | .recu c s :: ls =>
      match (c :: s).drop max with
      | [] => (c :: s, ls)
      | d :: t => ((c :: s).take max, .recu d t :: ls)

-- `YY_BUFFER_NEW`, `YY_BUFFER_NORMAL`, `YY_BUFFER_EOF_PENDING`
inductive Statut where
  | neuf
  | normal
  | finProche
deriving DecidableEq

-- The scanner and its buffer. Pointers into the buffer are indices; `buffer_n_chars` is the
-- buffer's own copy of `yy_n_chars`, and `lectures` is what is still to be read.
structure Guts where
  yy_ch_buf : Nat → Byte
  yy_buf_size : Nat
  buffer_n_chars : Nat
  yy_buffer_status : Statut
  yy_n_chars : Nat
  yytext_ptr : Nat
  yyleng : Nat
  yy_c_buf_p : Nat
  yy_hold_char : Byte
  yy_last_accepting_state : Nat
  yy_last_accepting_cpos : Nat
  lectures : List Lecture

structure Lu where
  act : Nat
  yytext : Texte
  suite : Texte
  lectures : List Lecture

-- The actions of the rules on `yyextra`; each one leaves something in the bytes of its text.
structure Actions (δ : Type) where
  regle : δ → Lu → Except Fault (δ × (Nat → Byte))
  eof : δ → Except Fault δ

inductive Etiquette where
  | debut
  | yy_match (state cp bp : Nat)
  | yy_find_action (state cp bp : Nat)

inductive Issue where
  | aller (g : Guts) (e : Etiquette)
  | action (act : Nat) (g : Guts)
  | retour

inductive Suivant where
  | endOfFile
  | continueScan
  | lastMatch

namespace Guts

def lireCar (g : Guts) (i : Nat) : Except Fault Byte :=
  if i < g.yy_buf_size + 2 then .ok (g.yy_ch_buf i) else .error .debordement

def ecrireCar (g : Guts) (i : Nat) (c : Byte) : Except Fault Guts :=
  if i < g.yy_buf_size + 2 then .ok { g with yy_ch_buf := Function.update g.yy_ch_buf i c }
  else .error .debordement

def retenir (g : Guts) (state cp : Nat) : Except Fault Guts := do
  let accept ← lire yyAccept state
  if accept ≠ 0 then
    return { g with yy_last_accepting_state := state, yy_last_accepting_cpos := cp }
  else return g

-- The loop at the label `yy_match`.
def yyMatch : Nat → Guts → Nat → Nat → Except Fault (Guts × Nat × Nat)
  | 0, _, _, _ => .error .sansFin
  | fuel + 1, g, state, cp => do
      let c ← g.lireCar cp
      let yy_c ← lire yyEc c.toNat
      let g ← g.retenir state cp
      let state ← transition state yy_c
      let base ← lire yyBase state
      if base ≠ 14 then yyMatch fuel g state (cp + 1) else return (g, state, cp + 1)

-- The loop of `yy_get_previous_state`, with `reste` characters before `yy_c_buf_p`.
def relire : Nat → Guts → Nat → Nat → Except Fault (Guts × Nat)
  | 0, g, state, _ => return (g, state)
  | reste + 1, g, state, cp => do
      let c ← g.lireCar cp
      let yy_c ← (if c ≠ 0 then lire yyEc c.toNat else pure 1)
      let g ← g.retenir state cp
      let state ← transition state yy_c
      relire reste g state (cp + 1)

def yyGetPreviousState (g : Guts) : Except Fault (Guts × Nat) :=
  relire (g.yy_c_buf_p - g.yytext_ptr) g 1 g.yytext_ptr

def yyTryNulTrans (g : Guts) (state : Nat) : Except Fault (Guts × Nat) := do
  let g ← g.retenir state g.yy_c_buf_p
  let state ← transition state 1
  return (g, if state = 13 then 0 else state)

def yyLoadBufferState (g : Guts) (buf_pos : Nat) : Except Fault Guts := do
  let g := { g with yy_n_chars := g.buffer_n_chars, yytext_ptr := buf_pos, yy_c_buf_p := buf_pos }
  let c ← g.lireCar g.yy_c_buf_p
  return { g with yy_hold_char := c }

def yyFlushBuffer (g : Guts) (courant : Bool) : Except Fault Guts := do
  let g := { g with buffer_n_chars := 0 }
  let g ← g.ecrireCar 0 YY_END_OF_BUFFER_CHAR
  let g ← g.ecrireCar 1 YY_END_OF_BUFFER_CHAR
  let g := { g with yy_buffer_status := .neuf }
  if courant then g.yyLoadBufferState 0 else return g

-- `yyrestart` with the same file: what `yy_init_buffer` sets besides stays as it is.
def yyrestart (g : Guts) : Except Fault Guts := do
  let g ← g.yyFlushBuffer true
  g.yyLoadBufferState 0

-- `*(dest++) = *(source++)`, `reste` times.
def deplacer : Nat → Guts → Nat → Nat → Except Fault Guts
  | 0, g, _, _ => return g
  | reste + 1, g, dest, source => do
      let c ← g.lireCar source
      let g ← g.ecrireCar dest c
      deplacer reste g (dest + 1) (source + 1)

-- An `int` expression converted to `yy_size_t`.
def numToRead (g : Guts) (number_to_move : Nat) : Nat :=
  (((g.yy_buf_size : Int) - number_to_move - 1) % 2 ^ 64).toNat

-- `while (num_to_read <= 0)`; doubling a size of `2 ^ 30` overflows an `int`.
def agrandir (number_to_move : Nat) : Nat → Guts → Except Fault (Guts × Nat)
  | 0, _ => .error .sansFin
  | fuel + 1, g =>
      if g.numToRead number_to_move = 0 then
        if g.yy_buf_size * 2 ≥ 2 ^ 31 then .error .debordement
        else if g.yy_buf_size * 2 = 0 then
          agrandir number_to_move fuel { g with yy_buf_size := g.yy_buf_size + g.yy_buf_size / 8 }
        else agrandir number_to_move fuel { g with yy_buf_size := g.yy_buf_size * 2 }
      else return (g, g.numToRead number_to_move)

def remplir (g : Guts) (number_to_move num_to_read : Nat) : Except Fault Guts :=
  let num_to_read := min num_to_read YY_READ_BUF_SIZE
  if number_to_move + num_to_read ≤ g.yy_buf_size + 2 then
    let (s, lectures) := yyInput num_to_read g.lectures
    .ok { g with
      yy_ch_buf := Placed.place g.yy_ch_buf number_to_move s
      yy_n_chars := s.length
      buffer_n_chars := s.length
      lectures := lectures }
  else .error .debordement

def lireSuite (g : Guts) (number_to_move : Nat) : Except Fault Guts :=
  if g.yy_buffer_status = .finProche then .ok { g with yy_n_chars := 0, buffer_n_chars := 0 }
  else do
    let (g, num_to_read) ← agrandir number_to_move 32 g
    g.remplir number_to_move num_to_read

def conclure (g : Guts) (number_to_move : Nat) : Except Fault (Guts × Suivant) :=
  if g.yy_n_chars = 0 then
    if number_to_move = 0 then do
      let g ← g.yyrestart
      return (g, .endOfFile)
    else .ok ({ g with yy_buffer_status := .finProche }, .lastMatch)
  else .ok (g, .continueScan)

-- The end of `yy_get_next_buffer`: a buffer that is too small is extended, and closed.
def clore (g : Guts) (number_to_move : Nat) : Except Fault Guts := do
  let g :=
    if g.yy_n_chars + number_to_move > g.yy_buf_size then
      { g with yy_buf_size := g.yy_n_chars + number_to_move + g.yy_n_chars / 2 - 2 }
    else g
  let g := { g with yy_n_chars := g.yy_n_chars + number_to_move }
  let g ← g.ecrireCar g.yy_n_chars YY_END_OF_BUFFER_CHAR
  let g ← g.ecrireCar (g.yy_n_chars + 1) YY_END_OF_BUFFER_CHAR
  return { g with yytext_ptr := 0 }

def yyGetNextBuffer (g : Guts) : Except Fault (Guts × Suivant) :=
  if g.yy_c_buf_p > g.yy_n_chars + 1 then .error .assertion
  else do
    let number_to_move := g.yy_c_buf_p - g.yytext_ptr - 1
    let g ← deplacer number_to_move g 0 g.yytext_ptr
    let g ← g.lireSuite number_to_move
    let (g, ret_val) ← g.conclure number_to_move
    let g ← g.clore number_to_move
    return (g, ret_val)

def yyDoBeforeAction (g : Guts) (cp bp : Nat) : Except Fault Guts := do
  let c ← g.lireCar cp
  let g := { g with yytext_ptr := bp, yyleng := cp - bp, yy_hold_char := c }
  let g ← g.ecrireCar cp 0
  return { g with yy_c_buf_p := cp }

-- "This was really a NUL."
def vraiNul (g : Guts) (yy_amount_of_matched_text : Nat) : Except Fault Issue := do
  let g := { g with yy_c_buf_p := g.yytext_ptr + yy_amount_of_matched_text }
  let (g, state) ← g.yyGetPreviousState
  let (g, next) ← g.yyTryNulTrans state
  if next ≠ 0 then
    let g := { g with yy_c_buf_p := g.yy_c_buf_p + 1 }
    return .aller g (.yy_match next g.yy_c_buf_p g.yytext_ptr)
  else return .aller g (.yy_find_action state g.yy_c_buf_p g.yytext_ptr)

def finDuTampon (g : Guts) (yy_amount_of_matched_text : Nat) : Except Fault Issue := do
  let (g, ret_val) ← g.yyGetNextBuffer
  match ret_val with
  | .endOfFile => return .retour
  | .continueScan =>
      let g := { g with yy_c_buf_p := g.yytext_ptr + yy_amount_of_matched_text }
      let (g, state) ← g.yyGetPreviousState
      return .aller g (.yy_match state g.yy_c_buf_p g.yytext_ptr)
  | .lastMatch =>
      let g := { g with yy_c_buf_p := g.yy_n_chars }
      let (g, state) ← g.yyGetPreviousState
      return .aller g (.yy_find_action state g.yy_c_buf_p g.yytext_ptr)

-- "We're scanning a new file or input source."
def connu (g : Guts) : Guts :=
  if g.yy_buffer_status = .neuf then
    { g with yy_n_chars := g.buffer_n_chars, yy_buffer_status := .normal }
  else g

-- `case YY_END_OF_BUFFER`
def yyEndOfBuffer (g : Guts) (cp : Nat) : Except Fault Issue := do
  let yy_amount_of_matched_text := cp - g.yytext_ptr - 1
  let g ← g.ecrireCar cp g.yy_hold_char
  let g := g.connu
  if g.yy_c_buf_p ≤ g.yy_n_chars then g.vraiNul yy_amount_of_matched_text
  else g.finDuTampon yy_amount_of_matched_text

def doAction (g : Guts) (act cp bp : Nat) : Except Fault Issue :=
  if act = 0 then do
    let g ← g.ecrireCar cp g.yy_hold_char
    return .aller g (.yy_find_action g.yy_last_accepting_state g.yy_last_accepting_cpos bp)
  else if act ≤ 5 then return .action act g
  else if act = YY_END_OF_BUFFER then g.yyEndOfBuffer cp
  else .error .assertion

def yyFindAction (g : Guts) (state cp bp : Nat) : Except Fault Issue := do
  let act ← lire yyAccept state
  if act = 0 then
    let cp := g.yy_last_accepting_cpos
    let act ← lire yyAccept g.yy_last_accepting_state
    let g ← g.yyDoBeforeAction cp bp
    g.doAction act cp bp
  else
    let g ← g.yyDoBeforeAction cp bp
    g.doAction act cp bp

def etape (g : Guts) : Etiquette → Except Fault Issue
  | .debut => do
      let cp := g.yy_c_buf_p
      let g ← g.ecrireCar cp g.yy_hold_char
      return .aller g (.yy_match 1 cp cp)
  | .yy_match state cp bp => do
      let (g, state, cp) ← yyMatch (g.yy_buf_size + 3 - cp) g state cp
      return .aller g (.yy_find_action state cp bp)
  | .yy_find_action state cp bp => g.yyFindAction state cp bp

def lu (g : Guts) (act : Nat) : Lu where
  act := act
  yytext := Placed.slice g.yy_ch_buf g.yytext_ptr g.yyleng
  suite := Placed.slice g.yy_ch_buf (g.yy_c_buf_p + 1) (g.yy_buf_size + 1 - g.yy_c_buf_p)
  lectures := g.lectures

def agir (g : Guts) (texte : Nat → Byte) : Guts :=
  { g with
    yy_ch_buf := fun i =>
      if g.yytext_ptr ≤ i ∧ i < g.yytext_ptr + g.yyleng then texte (i - g.yytext_ptr)
      else g.yy_ch_buf i }

end Guts

-- `yylex` from a label on; where the rule for `<<EOF>>` ends it, it returns.
def executer {δ : Type} (A : Actions δ) : Nat → Guts → Etiquette → δ → Except Fault δ
  | 0, _, _, _ => .error .sansFin
  | fuel + 1, g, e, d => do
      let i ← g.etape e
      match i with
      | .aller g e => executer A fuel g e d
      | .action act g =>
          let (d, texte) ← A.regle d (g.lu act)
          executer A fuel (g.agir texte) .debut d
      | .retour => A.eof d

-- The first `yylex` on a file: `yy_create_buffer` in a memory that holds anything.
def yyCreateBuffer (memoire : Nat → Byte) (lectures : List Lecture) : Except Fault Guts :=
  let g : Guts :=
    { yy_ch_buf := memoire
      yy_buf_size := YY_BUF_SIZE
      buffer_n_chars := 0
      yy_buffer_status := .neuf
      yy_n_chars := 0
      yytext_ptr := 0
      yyleng := 0
      yy_c_buf_p := 0
      yy_hold_char := 0
      yy_last_accepting_state := 0
      yy_last_accepting_cpos := 0
      lectures := lectures }
  g.yyFlushBuffer false

def yylex {δ : Type} (A : Actions δ) (memoire : Nat → Byte) (lectures : List Lecture) (fuel : Nat)
    (d : δ) : Except Fault δ := do
  let g ← yyCreateBuffer memoire lectures
  let g ← g.yyLoadBufferState 0
  executer A fuel g .debut d

end Flex

end Armator
