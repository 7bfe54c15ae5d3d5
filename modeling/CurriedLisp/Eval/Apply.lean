import CurriedLisp.Eval.Machine
import CurriedLisp.Eval.Primitive

set_option autoImplicit false

namespace CurriedLisp.Machine

variable {ρ : Type}

def complain (m : Machine ρ) (operation : String) : Complaint → Eval ρ Value
  | .exactly expected given => .raise (.exactArguments operation expected given)
  | .atLeast least => .raise (.fewArguments operation least)
  | .notNumber v => do .raise (.notNumber operation (← m.text v))
  | .notPair v => do .raise (.notPair operation (← m.text v))
  | .divisionByZero => .raise (.divisionByZero operation)
  | .tooDeep => throw .tooDeep

def reply (m : Machine ρ) (operation : String) : Except Complaint Value → Eval ρ Value
  | .ok v => return v
  | .error c => m.complain operation c

def callBuiltin (m : Machine ρ) (key : String) (args : List Value) : Eval ρ Value :=
  match Primitive.ofKey? key with
  | none => .raise (.unknownBuiltin key)
  | some p => m.reply key (p.call m.depth args)

theorem callBuiltin_key (m : Machine ρ) (p : Primitive) (args : List Value) :
    m.callBuiltin p.key args = m.reply p.key (p.call m.depth args) := by
  rw [callBuiltin, Primitive.ofKey_key]

def defineAll (scope : Nat) (bindings : List (String × Value)) : Eval ρ Unit :=
  Eval.modifyStore fun s => bindings.foldl (fun s (name, v) => s.define scope name v) s

def applyClosure (m : Machine ρ) (closure : Value) (formals : List String) (body : Value) (captured : Nat)
    (args : List Value) : Eval ρ Value := do
  if formals.length < args.length then
    .raise (.manyArguments (← m.text closure) formals.length args.length)
  else
    let scope ← Eval.newScope (some captured)
    defineAll scope (formals.zip args)
    m.note (.binds formals args scope)
    if args.length < formals.length then Eval.newClosure (formals.drop args.length) body scope
    else m.eval body scope

def apply (m : Machine ρ) (proc : Value) (args : List Value) : Eval ρ Value := do
  m.note (.applies proc args)
  match proc with
  | .closure _ formals body captured => m.applyClosure proc formals body captured args
  | .builtin key => m.callBuiltin key args
  | _ => .raise (.notProcedure (← m.text proc))

end CurriedLisp.Machine
