import CurriedLisp.Value.Basic

set_option autoImplicit false

namespace CurriedLisp

inductive Primitive where
  | add
  | sub
  | mul
  | div
  | mod
  | equalNumbers
  | less
  | greater
  | cons
  | head
  | tail
  | list
  | isNil
  | equal
  | not
deriving DecidableEq, Repr

inductive Complaint where
  | exactly (expected given : Nat)
  | atLeast (least : Nat)
  | notNumber (v : Value)
  | notPair (v : Value)
  | divisionByZero
  | tooDeep
deriving DecidableEq

namespace Primitive

def key : Primitive → String
  | add => "+"
  | sub => "-"
  | mul => "*"
  | div => "/"
  | mod => "mod"
  | equalNumbers => "="
  | less => "<"
  | greater => ">"
  | cons => "cons"
  | head => "head"
  | tail => "tail"
  | list => "list"
  | isNil => "nil?"
  | equal => "eq?"
  | not => "not"

def all : List Primitive :=
  [add, sub, mul, div, mod, equalNumbers, less, greater, cons, head, tail, list, isNil, equal, not]

def ofKey? (key : String) : Option Primitive := all.find? fun p => p.key == key

def number : Value → Except Complaint Int
  | .int n => .ok n
  | v => .error (.notNumber v)

def numbers (args : List Value) : Except Complaint (List Int) := args.mapM number

def sum (ns : List Int) : Int := ns.foldl (· + ·) 0

def product (ns : List Int) : Int := ns.foldl (· * ·) 1

def quotient (n d : Int) : Except Complaint Int :=
  if d = 0 then .error .divisionByZero else .ok (n.tdiv d)

def remainder (n d : Int) : Except Complaint Int := do
  let q ← quotient n d
  return n - d * q

def twoNumbers (args : List Value) : Except Complaint (Int × Int) :=
  match args with
  | [a, b] => do
      let m ← number a
      let n ← number b
      return (m, n)
  | _ => .error (.exactly 2 args.length)

def one (args : List Value) : Except Complaint Value :=
  match args with
  | [a] => .ok a
  | _ => .error (.exactly 1 args.length)

def two (args : List Value) : Except Complaint (Value × Value) :=
  match args with
  | [a, b] => .ok (a, b)
  | _ => .error (.exactly 2 args.length)

def onePair (args : List Value) : Except Complaint (Value × Value) := do
  match ← one args with
  | .pair first second => return (first, second)
  | v => .error (.notPair v)

-- The two count as built apart: a pair that they had in common would end its comparison at once.
def compare (depth : Nat) (a b : Value) : Except Complaint Bool :=
  match a.equal? b depth with
  | some answer => .ok answer
  | none => .error .tooDeep

def call (p : Primitive) (depth : Nat) (args : List Value) : Except Complaint Value :=
  match p with
  | add => do return .int (sum (← numbers args))
  | sub =>
      match args with
      | [] => .error (.atLeast 1)
      | [a] => do return .int (-(← number a))
      | a :: rest => do
          let first ← number a
          return .int (first - sum (← numbers rest))
  | mul => do return .int (product (← numbers args))
  | div =>
      match args with
      | a :: b :: rest => do
          let first ← number a
          return .int (← (← numbers (b :: rest)).foldlM quotient first)
      | _ => .error (.atLeast 2)
  | mod => do
      let (n, d) ← twoNumbers args
      return .int (← remainder n d)
  | equalNumbers => do
      let (a, b) ← twoNumbers args
      return .bool (a == b)
  | less => do
      let (a, b) ← twoNumbers args
      return .bool (decide (a < b))
  | greater => do
      let (a, b) ← twoNumbers args
      return .bool (decide (a > b))
  | cons => do
      let (a, b) ← two args
      return .pair a b
  | head => return (← onePair args).1
  | tail => return (← onePair args).2
  | list => .ok (.ofList args)
  | isNil => do return .bool (decide ((← one args) = .nil))
  | equal => do
      let (a, b) ← two args
      return .bool (← compare depth a b)
  | not => do return .bool (!(← one args).isTrue)

theorem ofKey_key (p : Primitive) : ofKey? p.key = some p := by cases p <;> decide

theorem key_of_ofKey {key : String} {p : Primitive} (found : ofKey? key = some p) : p.key = key := by
  simpa using List.find?_some found

end Primitive

end CurriedLisp
