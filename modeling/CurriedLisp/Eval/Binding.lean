import CurriedLisp.Eval.Machine

set_option autoImplicit false

namespace CurriedLisp.Machine

variable {ρ : Type}

def nameOf (m : Machine ρ) : Value → Eval ρ String
  | .sym name => return name
  | v => do .raise (.cannotDefine (← m.label v))

def defineNamed (m : Machine ρ) (scope : Nat) (name value : Value) : Eval ρ Unit := do
  let name ← m.nameOf name
  Eval.define scope name value

def reserveNamed (m : Machine ρ) (scope : Nat) : List Value → Eval ρ Unit
  | [] => return
  | name :: rest => do
      let name ← m.nameOf name
      m.reserve scope [name]
      m.reserveNamed scope rest

def defineEach (m : Machine ρ) (scope : Nat) : List (Value × Value) → Eval ρ Unit
  | [] => return
  | (name, value) :: rest => do
      m.defineNamed scope name value
      m.defineEach scope rest

-- Binds all names of a mapping, in which a repeated name has its first place and its last value.
def update (m : Machine ρ) (scope : Nat) (mapping : List (Value × Value)) : Eval ρ Unit :=
  m.defineEach scope (mapping.foldl (fun entries (name, value) => assign name value entries) [])

end CurriedLisp.Machine
