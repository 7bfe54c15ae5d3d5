import CurriedLisp.Scope.Basic

set_option autoImplicit false

namespace CurriedLisp

structure World (ρ : Type) where
  store : Store
  -- The reports, latest first.
  trace : List ρ

abbrev Eval (ρ : Type) := EStateM Failure (World ρ)

namespace Eval

variable {ρ α : Type}

def after (x : Eval ρ α) (w : World ρ) : World ρ :=
  match x w with
  | .ok _ w => w
  | .error _ w => w

def raise (e : Error) : Eval ρ α := throw (.error e)

def ofRender (r : Except Obstacle α) : Eval ρ α :=
  match r with
  | .ok a => pure a
  | .error o => throw (.ofObstacle o)

def ofError (r : Except Error α) : Eval ρ α :=
  match r with
  | .ok a => pure a
  | .error e => raise e

def store : Eval ρ Store := return (← get).store

def modifyStore (f : Store → Store) : Eval ρ Unit := modify fun w => { w with store := f w.store }

def newScope (outer : Option Nat) : Eval ρ Nat :=
  modifyGet fun w => (w.store.scopes.size, { w with store := w.store.addScope outer })

def newClosure (formals : List String) (body : Value) (scope : Nat) : Eval ρ Value :=
  modifyGet fun w =>
    (.closure w.store.closures formals body scope,
      { w with store := { w.store with closures := w.store.closures + 1 } })

def lookup (scope : Nat) (name : String) : Eval ρ Value := do ofError ((← store).lookup scope name)

def define (scope : Nat) (name : String) (value : Value) : Eval ρ Unit :=
  modifyStore (·.define scope name value)

def addTrace (report : ρ) : Eval ρ Unit := modify fun w => { w with trace := report :: w.trace }

theorem store_bind (f : Store → Eval ρ α) (w : World ρ) : (store >>= f) w = f w.store w := rfl

theorem lookup_run (scope : Nat) (name : String) (w : World ρ) :
    lookup scope name w =
      match w.store.lookup scope name with
      | .ok value => .ok value w
      | .error e => .error (.error e) w := by
  rw [lookup, store_bind]
  cases w.store.lookup scope name with
  | ok value => rfl
  | error e => rfl

end Eval

end CurriedLisp
