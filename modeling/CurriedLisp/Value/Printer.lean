import CurriedLisp.Text.Numeral
import CurriedLisp.Value.Basic

set_option autoImplicit false

/-!
The written form of values. `text` is total. `render` gives the same text but fails where an integer has too
many digits to be written or the nesting exceeds the given depth.
-/

namespace CurriedLisp

inductive Obstacle where
  | tooLong
  | tooDeep
deriving DecidableEq, Repr

namespace Value

def atomText : Value → String
  | int n => Text.writeInt n
  | bool true => "#true"
  | bool false => "#false"
  | nil => "#nil"
  | sym name => name
  | builtin key => "#<builtin " ++ key ++ ">"
  | _ => "#<unassigned>"

def header (formals : List String) : String := "(λ (" ++ " ".intercalate formals ++ ") "

-- Appends the written form of a value to a text, or, where `rest` holds, the written form of what follows
-- the first item of a list that ends in the value.
def write : Value → Bool → String → String
  | pair (sym "quote") (pair v nil), false, out => v.write false (out ++ "'")
  | pair first second, rest, out =>
      second.write true (first.write false (out ++ if rest then " " else "("))
  | nil, true, out => out ++ ")"
  | closure _ formals body _, false, out => body.write false (out ++ header formals) ++ ")"
  | closure _ formals body _, true, out =>
      body.write false (out ++ " . " ++ header formals) ++ "))"
  | v, false, out => out ++ v.atomText
  | v, true, out => out ++ " . " ++ v.atomText ++ ")"

def text (v : Value) : String := v.write false ""

-- The written form in messages about names and about the shape of lists, where a boolean that stands
-- alone is a capitalised word.
def label : Value → String
  | bool true => "True"
  | bool false => "False"
  | v => v.text

theorem write_append (v : Value) (rest : Bool) (start out : String) :
    v.write rest (start ++ out) = start ++ v.write rest out := by
  fun_induction write v rest out with
  | case1 v out ih => rw [write, String.append_assoc, ih]
  | case2 first second rest out notQuote ih1 ih2 =>
    rw [write, String.append_assoc, ih1, ih2]
    exact notQuote
  | case3 => simp only [write, String.append_assoc]
  | case4 _ _ _ _ _ ih => simp only [write, String.append_assoc, ih]
  | case5 _ _ _ _ _ ih => simp only [String.append_assoc] at ih; simp only [write, String.append_assoc, ih]
  | case6 v out _ _ notClosure =>
    cases v with
    | closure id formals body scope => exact absurd rfl (notClosure id formals body scope)
    | _ => simp_all [write, String.append_assoc]
  | case7 v out _ _ notClosure =>
    cases v with
    | closure id formals body scope => exact absurd rfl (notClosure id formals body scope)
    | _ => simp_all [write, String.append_assoc]

def obstacle? : Value → Nat → Option Obstacle
  | int n, _ => if Text.isWritable n then none else some .tooLong
  | pair _ _, 0 => some .tooDeep
  | closure _ _ _ _, 0 => some .tooDeep
  | pair first second, depth + 1 =>
      match first.obstacle? depth with
      | some o => some o
      | none => second.obstacle? (depth + 1)
  | closure _ _ body _, depth + 1 => body.obstacle? depth
  | _, _ => none

def render (depth : Nat) (v : Value) : Except Obstacle String :=
  match v.obstacle? depth with
  | some o => .error o
  | none => .ok v.text

def renderLabel (depth : Nat) (v : Value) : Except Obstacle String :=
  match v.obstacle? depth with
  | some o => .error o
  | none => .ok v.label

end Value

end CurriedLisp
