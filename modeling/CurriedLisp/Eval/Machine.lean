import CurriedLisp.Eval.Monad

set_option autoImplicit false

/-!
The machine that a form runs on: how to evaluate the expressions inside it, how deep they and the values
that it writes may still nest, and what it reports of its moments.
-/

namespace CurriedLisp

inductive Moment where
  | begins (expr : Value) (scope : Nat)
  | applies (proc : Value) (args : List Value)
  -- A scope has been made in which the leading formals of a closure have their values.
  | binds (formals : List String) (args : List Value) (scope : Nat)
  -- An evaluation has a value; `older` scopes were there when it began.
  | ends (expr : Value) (scope older : Nat) (value : Value)

-- What is reported of a moment, for values that may nest to the given depth when they are written.
abbrev Watch (ρ : Type) := Nat → Moment → Store → Except Obstacle (Option ρ)

namespace Watch

def silent {ρ : Type} : Watch ρ := fun _ _ _ => .ok none

def lines : Watch String := fun depth moment _ =>
  match moment with
  | .begins expr _ => do return some ("eval " ++ (← expr.render depth))
  | .applies proc args => do
      let proc ← proc.render depth
      let args ← args.mapM (·.render depth)
      return some ("apply " ++ proc ++ " to (" ++ " ".intercalate args ++ ")")
  | _ => return none

end Watch

structure Mode (ρ : Type) where
  watch : Watch ρ
  -- Make the names of a block visible before their values are known.
  reserve : Bool

namespace Mode

def quiet {ρ : Type} (reserve : Bool) : Mode ρ := ⟨.silent, reserve⟩

def program (verbose : Bool) : Mode String := if verbose then ⟨.lines, true⟩ else quiet true

end Mode

structure Machine (ρ : Type) where
  mode : Mode ρ
  depth : Nat
  eval : Value → Nat → Eval ρ Value

namespace Machine

variable {ρ : Type}

def text (m : Machine ρ) (v : Value) : Eval ρ String := .ofRender (v.render m.depth)

def label (m : Machine ρ) (v : Value) : Eval ρ String := .ofRender (v.renderLabel m.depth)

def note (m : Machine ρ) (moment : Moment) : Eval ρ Unit := do
  match ← Eval.ofRender (m.mode.watch m.depth moment (← Eval.store)) with
  | none => return
  | some report => Eval.addTrace report

theorem note_run (m : Machine ρ) (moment : Moment) (w : World ρ) :
    m.note moment w =
      match m.mode.watch m.depth moment w.store with
      | .ok none => .ok () w
      | .ok (some report) => .ok () { w with trace := report :: w.trace }
      | .error o => .error (.ofObstacle o) w := by
  rw [note, Eval.store_bind]
  cases m.mode.watch m.depth moment w.store with
  | error o => rfl
  | ok report => cases report <;> rfl

def elements (m : Machine ρ) (what : String) (v : Value) : Eval ρ (List Value) := do
  match v.toList? with
  | some items => return items
  | none => .raise (.improperList what (← m.label v))

def sequence (m : Machine ρ) (scope : Nat) : Value → List Value → Eval ρ Value
  | last, [] => return last
  | _, form :: rest => do
      let v ← m.eval form scope
      m.sequence scope v rest

def reserve (m : Machine ρ) (scope : Nat) (names : List String) : Eval ρ Unit := do
  if m.mode.reserve then Eval.modifyStore fun s => names.foldl (·.reserve scope) s

end Machine

end CurriedLisp
