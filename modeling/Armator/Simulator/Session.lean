import Armator.Simulator.Flex
import Armator.Simulator.Lexer

namespace Armator

namespace Flex

-- The token that an action is called on; `call` is what the call of a handler leaves open.
def Lu.jeton (l : Lu) (call : Call) : Jeton :=
  match l.act with
  | 1 => .plus
  | 2 => .moins
  | 3 => .trame l.yytext l.suite call
  | 4 => .autre (l.yytext.headD 0)
  | _ => .ligne

def Appele (call : Call) : Jeton → Prop
  | .trame _ _ c => c = call
  | _ => True

-- The actions of the rules on `parser_data` and the number of actions so far; `textes` is what
-- each one leaves in the bytes of its text.
def parserActions (handler : Byte → Option Gdb.Handler) (calls : Nat → Call)
    (textes : Nat → Nat → Byte) : Actions (Parser × Nat) where
  regle p l := do
    let d ← p.1.action handler (l.jeton (calls p.2))
    return ((d, p.2 + 1), textes p.2)
  eof p := do
    let d ← p.1.handleError
    return (d, p.2)

end Flex

end Armator
