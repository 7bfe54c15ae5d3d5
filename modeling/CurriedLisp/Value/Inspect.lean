import CurriedLisp.Text.Quoted
import CurriedLisp.Value.Printer

set_option autoImplicit false

namespace CurriedLisp.Value

def inspect : Value → String
  | int n => Text.writeInt n
  | bool true => "True"
  | bool false => "False"
  | nil => "#nil"
  | unassigned => "#<unassigned>"
  | sym name => "Symbol(" ++ Text.quoted name ++ ")"
  | builtin key => "Builtin(name=" ++ Text.quoted key ++ ")"
  | pair first second => "Pair(first=" ++ first.inspect ++ ", second=" ++ second.inspect ++ ")"
  | closure id formals body scope => (closure id formals body scope).text

def inspectObstacle? : Value → Nat → Option Obstacle
  | pair _ _, 0 => some .tooDeep
  | pair first second, depth + 1 =>
      match first.inspectObstacle? depth with
      | some o => some o
      | none => second.inspectObstacle? depth
  | v, depth => v.obstacle? depth

def renderInspected (depth : Nat) (v : Value) : Except Obstacle String :=
  match v.inspectObstacle? depth with
  | some o => .error o
  | none => .ok v.inspect

end CurriedLisp.Value
