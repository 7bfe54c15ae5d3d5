import CurriedLisp.Text.Quoted
import CurriedLisp.Value.Printer

set_option autoImplicit false

/-!
Failures. An `Error` is a fault of the program that is read or run; each belongs to one category and has one
message. A `Failure` is an error, a numeral that is too long, or exhausted nesting. Values that a message
names are kept in written form, for writing them may itself fail.
-/

namespace CurriedLisp

inductive Error where
  | unexpectedChar (position : Nat) (found : Char)
  | nothingToQuote
  | closeAfterQuote
  | unexpectedClose
  | unmatchedOpen
  | cannotDefine (shown : String)
  | cannotBind (shown : String)
  | parameterNotName (shown : String)
  | unbound (name : String)
  | unassigned (name : String)
  | defineArguments
  | lambdaArguments
  | ifArguments
  | letArguments
  | oneArgument (form : String)
  | exactArguments (operation : String) (expected given : Nat)
  | fewArguments (operation : String) (least : Nat)
  | manyArguments (closure : String) (arity given : Nat)
  | notNumber (operation shown : String)
  | notPair (operation shown : String)
  | notProcedure (shown : String)
  | unknownBuiltin (key : String)
  | divisionByZero (operation : String)
  | improperList (what shown : String)
  | repeatedParameter
  | bindingShape
  | clauseWithoutTest
  | noClause
  | recursion
  | raised (payload : Value)
deriving DecidableEq

inductive Category where
  | reading
  | naming
  | unbound
  | arity
  | typing
  | arithmetic
  | evaluation
  | recursion
  | raised
deriving DecidableEq, Repr

def Category.label : Category → String
  | reading => "SprigSyntaxError"
  | naming => "SprigInvalidSymbol"
  | unbound => "SprigUnboundSymbol"
  | arity => "SprigArityError"
  | typing => "SprigTypeError"
  | arithmetic => "SprigArithmeticError"
  | evaluation => "SprigEvaluationError"
  | recursion => "SprigRecursionError"
  | raised => "SprigUserError"

namespace Error

def category : Error → Category
  | unexpectedChar _ _ | nothingToQuote | closeAfterQuote | unexpectedClose | unmatchedOpen => .reading
  | cannotDefine _ | cannotBind _ | parameterNotName _ => .naming
  | unbound _ | unassigned _ => .unbound
  | defineArguments | lambdaArguments | ifArguments | letArguments | oneArgument _ => .arity
  | exactArguments _ _ _ | fewArguments _ _ | manyArguments _ _ _ => .arity
  | notNumber _ _ | notPair _ _ | notProcedure _ | unknownBuiltin _ => .typing
  | divisionByZero _ => .arithmetic
  | improperList _ _ | repeatedParameter | bindingShape | clauseWithoutTest | noClause => .evaluation
  | recursion => .recursion
  | raised _ => .raised

def message : Error → String
  | unexpectedChar position found =>
      "Unexpected char at " ++ toString position ++ ": " ++ Text.quoted (String.singleton found)
  | nothingToQuote => "Nothing to quote after \"'\""
  | closeAfterQuote => "Unexpected ')' after \"'\""
  | unexpectedClose => "Unexpected ')'"
  | unmatchedOpen => "Unmatched '('"
  | cannotDefine shown => "Cannot define " ++ shown ++ " as a symbol"
  | cannotBind shown => "Cannot bind " ++ shown ++ " as a symbol"
  | parameterNotName shown => "lambda parameter " ++ shown ++ " is not a symbol"
  | unbound name => "Cannot lookup unbound symbol " ++ name
  | unassigned name => "Symbol " ++ name ++ " referenced before its definition"
  | defineArguments => "define requires exactly 2 arguments"
  | lambdaArguments => "lambda requires at least a parameter list"
  | ifArguments => "if requires a condition, a then-expression and an optional else-expression"
  | letArguments => "let requires a binding list"
  | oneArgument form => form ++ " expects exactly one argument"
  | exactArguments operation expected given =>
      operation ++ " requires exactly " ++ toString expected ++ " argument(s), got " ++ toString given
  | fewArguments operation least =>
      operation ++ " requires at least " ++ toString least ++
        if least = 1 then " argument" else " arguments"
  | manyArguments closure arity given =>
      closure ++ " expects " ++ toString arity ++ " argument(s), got " ++ toString given
  | notNumber operation shown => operation ++ ": expected a number, got " ++ shown
  | notPair operation shown => operation ++ ": expected a pair, got " ++ shown
  | notProcedure shown => "Cannot apply non-procedure " ++ shown
  | unknownBuiltin key => "Unknown builtin " ++ key
  | divisionByZero operation => operation ++ ": division by zero"
  | improperList what shown => "Malformed " ++ what ++ ": expected a proper list, got " ++ shown
  | repeatedParameter => "lambda parameters must be distinct"
  | bindingShape => "let binding must be (name value)"
  | clauseWithoutTest => "cond clause must have a test"
  | noClause => "cond: no clause matched"
  | recursion => "maximum recursion depth exceeded"
  | raised payload => payload.text

end Error

inductive Failure where
  | error (e : Error)
  | numeral (e : Text.NumeralError)
  | tooDeep
deriving DecidableEq

def Failure.ofObstacle : Obstacle → Failure
  | .tooLong => .numeral .tooLongToWrite
  | .tooDeep => .tooDeep

end CurriedLisp
