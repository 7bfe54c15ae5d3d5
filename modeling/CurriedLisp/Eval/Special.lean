import CurriedLisp.Eval.Machine
import CurriedLisp.Keyword

set_option autoImplicit false

namespace CurriedLisp.Machine

variable {ρ : Type}

def runQuote : List Value → Eval ρ Value
  | [v] => return v
  | _ => .raise (.oneArgument "quote")

-- The name is checked before the value is evaluated.
def runDefine (m : Machine ρ) (scope : Nat) : List Value → Eval ρ Value
  | [.sym name, expr] => do
      let v ← m.eval expr scope
      Eval.define scope name v
      return v
  | [target, _] => do .raise (.cannotDefine (← m.label target))
  | _ => .raise .defineArguments

def formal (m : Machine ρ) : Value → Eval ρ String
  | .sym name => return name
  | v => do .raise (.parameterNotName (← m.label v))

def runLambda (m : Machine ρ) (scope : Nat) : List Value → Eval ρ Value
  | [] => .raise .lambdaArguments
  | parameters :: forms => do
      let parameters ← m.elements "lambda parameter list" parameters
      let names ← parameters.mapM m.formal
      if names.Nodup then Eval.newClosure names (.body forms) scope
      else .raise .repeatedParameter

def runIf (m : Machine ρ) (scope : Nat) : List Value → Eval ρ Value
  | [test, yes] => do if (← m.eval test scope).isTrue then m.eval yes scope else return .nil
  | [test, yes, no] => do if (← m.eval test scope).isTrue then m.eval yes scope else m.eval no scope
  | _ => .raise .ifArguments

def test (m : Machine ρ) (scope : Nat) (expr : Value) : Eval ρ Value :=
  if expr = .sym "else" then return .bool true else m.eval expr scope

-- A clause without results yields the value of its test.
def runCond (m : Machine ρ) (scope : Nat) : List Value → Eval ρ Value
  | [] => .raise .noClause
  | clause :: rest => do
      match ← m.elements "cond clause" clause with
      | [] => .raise .clauseWithoutTest
      | test :: results =>
          let v ← m.test scope test
          if v.isTrue then m.sequence scope v results else m.runCond scope rest

def binding (m : Machine ρ) (v : Value) : Eval ρ (String × Value) := do
  match ← m.elements "let binding" v with
  | [.sym name, expr] => return (name, expr)
  | [target, _] => .raise (.cannotBind (← m.label target))
  | _ => .raise .bindingShape

def bindAll (m : Machine ρ) (scope : Nat) : List (String × Value) → Eval ρ Unit
  | [] => return
  | (name, expr) :: rest => do
      let v ← m.eval expr scope
      Eval.define scope name v
      m.bindAll scope rest

-- The values are evaluated inside the new scope, where all names are reserved.
def runLet (m : Machine ρ) (scope : Nat) : List Value → Eval ρ Value
  | [] => .raise .letArguments
  | bindings :: forms => do
      let bindings ← (← m.elements "let binding list" bindings).mapM m.binding
      let inner ← Eval.newScope (some scope)
      m.reserve inner (bindings.map (·.1))
      m.bindAll inner bindings
      m.eval (.body forms) inner

def runEval (m : Machine ρ) (scope : Nat) : List Value → Eval ρ Value
  | [expr] => do
      let code ← m.eval expr scope
      m.eval code scope
  | _ => .raise (.oneArgument "eval")

def runError (m : Machine ρ) (scope : Nat) : List Value → Eval ρ Value
  | [expr] => do
      let payload ← m.eval expr scope
      let _ ← m.text payload
      .raise (.raised payload)
  | _ => .raise (.oneArgument "error")

def definedName? : Value → Option String
  | .pair (.sym "define") (.pair (.sym name) _) => some name
  | _ => none

def definedNames (forms : List Value) : List String := forms.filterMap definedName?

def runBegin (m : Machine ρ) (scope : Nat) (forms : List Value) : Eval ρ Value := do
  m.reserve scope (definedNames forms)
  m.sequence scope .nil forms

def runForm (m : Machine ρ) (k : Keyword) (args : List Value) (scope : Nat) : Eval ρ Value :=
  match k with
  | .quote => runQuote args
  | .define => m.runDefine scope args
  | .lambda => m.runLambda scope args
  | .ifElse => m.runIf scope args
  | .cond => m.runCond scope args
  | .letIn => m.runLet scope args
  | .eval => m.runEval scope args
  | .error => m.runError scope args
  | .begin => m.runBegin scope args

end CurriedLisp.Machine
