import CurriedLisp.Eval.Evaluator
import CurriedLisp.Reader.Form

set_option autoImplicit false

/-!
Sessions. The texts of a session are evaluated one after another in the same root scope. A text is read
completely before any of it is evaluated; an evaluation that nests too deep ends in an error of the program.
-/

namespace CurriedLisp

def Store.addRoot (store : Store) : Store :=
  Primitive.all.foldl (fun s p => s.define store.scopes.size p.key (.builtin p.key))
    (store.addScope none)

def World.start {ρ : Type} : World ρ := ⟨Store.empty.addRoot, []⟩

namespace Eval

variable {ρ α : Type}

def ofExcept : Except Failure α → Eval ρ α
  | .ok a => return a
  | .error e => throw e

def recover (x : Eval ρ α) : Eval ρ α := fun w =>
  match x w with
  | .error .tooDeep w => .error (.error .recursion) w
  | r => r

end Eval

variable {ρ : Type}

def evalText (mode : Mode ρ) (depth : Nat) (code : String) : Eval ρ Value := do
  let program ← .ofExcept (Reader.parse depth code)
  Eval.recover (evaluate mode depth program 0)

def session (depth : Nat) (steps : List (Mode ρ × String)) (w : World ρ) : World ρ :=
  steps.foldl (fun w step => (evalText step.1 depth step.2).after w) w

def evalPrelude (mode : Mode ρ) (depth : Nat) (code : String) : Eval ρ Unit := do
  if code ≠ "" then let _ ← evalText mode depth code

end CurriedLisp
