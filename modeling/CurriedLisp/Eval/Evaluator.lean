import CurriedLisp.Eval.Apply
import CurriedLisp.Eval.Special

set_option autoImplicit false

namespace CurriedLisp

variable {ρ : Type}

namespace Machine

def runCall (m : Machine ρ) (head rest : Value) (scope : Nat) : Eval ρ Value := do
  let proc ← m.eval head scope
  let args ← (← m.elements "application" rest).mapM (m.eval · scope)
  m.apply proc args

def run (m : Machine ρ) (expr : Value) (scope : Nat) : Eval ρ Value := do
  match expr with
  | .sym name => Eval.lookup scope name
  | .pair (.sym name) rest =>
      match Keyword.ofName? name with
      | some k => do m.runForm k (← m.elements (name ++ " form") rest) scope
      | none => m.runCall (.sym name) rest scope
  | .pair head rest => m.runCall head rest scope
  | _ => return expr

def step (m : Machine ρ) (expr : Value) (scope : Nat) : Eval ρ Value := do
  m.note (.begins expr scope)
  let older := (← Eval.store).scopes.size
  let v ← m.run expr scope
  m.note (.ends expr scope older v)
  return v

end Machine

def evaluate (mode : Mode ρ) : Nat → Value → Nat → Eval ρ Value
  | 0, _, _ => throw .tooDeep
  | depth + 1, expr, scope => Machine.step ⟨mode, depth, evaluate mode depth⟩ expr scope

def Machine.ofDepth (mode : Mode ρ) (depth : Nat) : Machine ρ := ⟨mode, depth, evaluate mode depth⟩

end CurriedLisp
