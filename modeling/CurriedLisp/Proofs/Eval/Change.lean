import CurriedLisp.Session

set_option autoImplicit false

/-!
What evaluation can do to a world. An `Evolution` is a way in which a run in a scope may change it, given by
the elementary changes; a run of the evaluator changes the world in no other way, whatever its outcome.
-/

namespace CurriedLisp

variable {ρ α β : Type}

def World.define (w : World ρ) (scope : Nat) (name : String) (value : Value) : World ρ :=
  { w with store := w.store.define scope name value }

def World.addScope (w : World ρ) (outer : Option Nat) : World ρ :=
  { w with store := w.store.addScope outer }

def World.addClosure (w : World ρ) : World ρ :=
  { w with store := { w.store with closures := w.store.closures + 1 } }

def World.report (w : World ρ) (line : ρ) : World ρ := { w with trace := line :: w.trace }

theorem World.eq_of {w w' : World ρ} (stores : w.store = w'.store) (traces : w.trace = w'.trace) : w = w' := by
  cases w
  cases w'
  cases stores
  cases traces
  rfl

-- The moment speaks of no scope that the world has already.
def Moment.IsSince (w : World ρ) : Moment → Prop
  | .ends _ _ older _ => w.store.scopes.size ≤ older
  | .binds formals args scope => args.length < formals.length → w.store.scopes.size ≤ scope
  | _ => True

structure Evolution (mode : Mode ρ) where
  rel : Nat → World ρ → World ρ → Prop
  refl : ∀ scope w, rel scope w w
  trans : ∀ {scope u v w}, rel scope u v → rel scope v w → rel scope u w
  define : ∀ scope w name value, rel scope w (w.define scope name value)
  closure : ∀ scope w, rel scope w w.addClosure
  inner : ∀ {scope outer w w'}, rel w.store.scopes.size (w.addScope outer) w' → rel scope w w'
  note : ∀ {scope w w' depth moment line}, rel scope w w' → moment.IsSince w →
    mode.watch depth moment w'.store = .ok (some line) → rel scope w (w'.report line)

def Failure.recovered : Failure → Failure
  | .tooDeep => .error .recursion
  | f => f

theorem Eval.recover_run (x : Eval ρ α) (w : World ρ) :
    x.recover w = match x w with
      | .ok a u => .ok a u
      | .error f u => .error f.recovered u := by
  unfold recover
  cases x w with
  | ok a u => rfl
  | error f u => cases f <;> rfl

theorem Eval.after_recover (x : Eval ρ α) (w : World ρ) : (recover x).after w = x.after w := by
  rw [Eval.after, recover_run, Eval.after]
  cases x w <;> rfl

theorem Machine.note_store {m : Machine ρ} {moment : Moment} {w u : World ρ} {a : Unit}
    (noted : m.note moment w = .ok a u) : u.store = w.store := by
  rw [Machine.note_run] at noted
  cases seen : m.mode.watch m.depth moment w.store with
  | error o =>
      rw [seen] at noted
      cases noted
  | ok line =>
      rw [seen] at noted
      cases line <;> cases noted <;> rfl

namespace Evolution

variable {mode : Mode ρ} (E : Evolution mode)

-- From all that a run in the scope may make of `w`, the computation makes no more.
def Admits (scope : Nat) (w : World ρ) (x : Eval ρ α) : Prop :=
  ∀ u, E.rel scope w u → E.rel scope w (x.after u)

variable {E} {scope : Nat} {w : World ρ}

theorem admits_pure (a : α) : E.Admits scope w (pure a) := fun _ begun => begun

theorem admits_throw (f : Failure) : E.Admits scope w (throw f : Eval ρ α) := fun _ begun => begun

theorem admits_bind {x : Eval ρ α} {f : α → Eval ρ β} (first : E.Admits scope w x)
    (rest : ∀ a, E.Admits scope w (f a)) : E.Admits scope w (x >>= f) := by
  intro u begun
  have step := first u begun
  simp only [Eval.after, bind, EStateM.bind] at step ⊢
  cases ran : x u with
  | ok a v =>
      rw [ran] at step
      exact rest a v step
  | error e v =>
      rw [ran] at step
      exact step

theorem admits_mapM (f : α → Eval ρ β) (each : ∀ a, E.Admits scope w (f a)) (as : List α) :
    E.Admits scope w (as.mapM f) := by
  induction as with
  | nil => exact admits_pure _
  | cons a rest ih =>
      rw [List.mapM_cons]
      exact admits_bind (each a) fun _ => admits_bind ih fun _ => admits_pure _

theorem admits_raise (e : Error) : E.Admits scope w (Eval.raise e : Eval ρ α) := admits_throw _

theorem admits_ofRender (r : Except Obstacle α) : E.Admits scope w (Eval.ofRender r) := by
  cases r with
  | ok a => exact admits_pure a
  | error o => exact admits_throw _

theorem admits_ofError (r : Except Error α) : E.Admits scope w (Eval.ofError r) := by
  cases r with
  | ok a => exact admits_pure a
  | error e => exact admits_throw _

theorem admits_define (name : String) (value : Value) : E.Admits scope w (Eval.define scope name value) :=
  fun u begun => E.trans begun (E.define scope u name value)

theorem admits_lookup (from_ : Nat) (name : String) : E.Admits scope w (Eval.lookup from_ name) :=
  admits_bind (fun _ begun => begun) fun _ => admits_ofError _

theorem admits_newClosure (formals : List String) (body : Value) (captured : Nat) :
    E.Admits scope w (Eval.newClosure formals body captured) :=
  fun u begun => E.trans begun (E.closure scope u)

theorem admits_newScope (outer : Option Nat) (f : Nat → Eval ρ α)
    (within : ∀ u : World ρ, E.Admits u.store.scopes.size (u.addScope outer) (f u.store.scopes.size)) :
    E.Admits scope w (Eval.newScope outer >>= f) :=
  fun u begun => E.trans begun (E.inner (within u _ (E.refl _ _)))

theorem rel_reserve (names : List String) (u : World ρ) :
    E.rel scope u { u with store := names.foldl (·.reserve scope) u.store } := by
  induction names generalizing u with
  | nil => exact E.refl scope u
  | cons name rest ih =>
      refine E.trans ?_ (ih { u with store := u.store.reserve scope name })
      simp only [Store.reserve]
      split
      · exact E.refl scope u
      · exact E.define scope u name .unassigned

theorem rel_defineAll (bindings : List (String × Value)) (u : World ρ) :
    E.rel scope u { u with store := bindings.foldl (fun s b => s.define scope b.1 b.2) u.store } := by
  induction bindings generalizing u with
  | nil => exact E.refl scope u
  | cons binding rest ih =>
      exact E.trans (E.define scope u binding.1 binding.2) (ih (u.define scope binding.1 binding.2))

section Machine

variable {m : Machine ρ} (same : m.mode = mode)

theorem admits_text (v : Value) : E.Admits scope w (m.text v) := admits_ofRender _

theorem admits_label (v : Value) : E.Admits scope w (m.label v) := admits_ofRender _

include same in
theorem admits_note (moment : Moment) (since : moment.IsSince w) : E.Admits scope w (m.note moment) := by
  intro u begun
  rw [Eval.after, Machine.note_run, same]
  cases seen : mode.watch m.depth moment u.store with
  | error o => exact begun
  | ok line =>
      cases line with
      | none => exact begun
      | some line => exact E.note begun since seen

theorem admits_elements (what : String) (v : Value) : E.Admits scope w (m.elements what v) := by
  unfold Machine.elements
  split
  · exact admits_pure _
  · exact admits_bind (admits_label v) fun _ => admits_raise _

theorem admits_reserve (names : List String) : E.Admits scope w (m.reserve scope names) := by
  unfold Machine.reserve
  split
  · exact fun u begun => E.trans begun (rel_reserve names u)
  · exact admits_pure _

theorem admits_defineAll (bindings : List (String × Value)) :
    E.Admits scope w (Machine.defineAll scope bindings) :=
  fun u begun => E.trans begun (rel_defineAll bindings u)

theorem admits_complain (operation : String) (c : Complaint) : E.Admits scope w (m.complain operation c) := by
  cases c with
  | notNumber v => exact admits_bind (admits_text v) fun _ => admits_raise _
  | notPair v => exact admits_bind (admits_text v) fun _ => admits_raise _
  | tooDeep => exact admits_throw _
  | exactly | atLeast | divisionByZero => exact admits_raise _

theorem admits_reply (operation : String) (r : Except Complaint Value) :
    E.Admits scope w (m.reply operation r) := by
  cases r with
  | ok v => exact admits_pure v
  | error c => exact admits_complain operation c

theorem admits_callBuiltin (key : String) (args : List Value) :
    E.Admits scope w (m.callBuiltin key args) := by
  unfold Machine.callBuiltin
  split
  · exact admits_raise _
  · exact admits_reply _ _

variable (inside : ∀ expr scope u, E.rel scope u ((m.eval expr scope).after u))

include inside

theorem admits_eval (expr : Value) : E.Admits scope w (m.eval expr scope) :=
  fun u begun => E.trans begun (inside expr scope u)

theorem admits_sequence (last : Value) (forms : List Value) : E.Admits scope w (m.sequence scope last forms) := by
  induction forms generalizing last with
  | nil => exact admits_pure last
  | cons form rest ih => exact admits_bind (admits_eval inside form) ih

theorem admits_bindAll (bindings : List (String × Value)) :
    E.Admits scope w (m.bindAll scope bindings) := by
  induction bindings with
  | nil => exact admits_pure ()
  | cons binding rest ih =>
      exact admits_bind (admits_eval inside binding.2) fun v =>
        admits_bind (admits_define binding.1 v) fun _ => ih

theorem admits_block (names : List String) (bindings : List (String × Value)) (body : Value) :
    E.Admits scope w (do
      m.reserve scope names
      m.bindAll scope bindings
      m.eval body scope) :=
  admits_bind (admits_reserve _) fun _ => admits_bind (admits_bindAll inside _) fun _ => admits_eval inside _

theorem admits_runDefine (args : List Value) : E.Admits scope w (m.runDefine scope args) := by
  unfold Machine.runDefine
  split
  · exact admits_bind (admits_eval inside _) fun v => admits_bind (admits_define _ v) fun _ => admits_pure v
  · exact admits_bind (admits_label _) fun _ => admits_raise _
  · exact admits_raise _

omit inside in
theorem admits_runLambda (args : List Value) : E.Admits scope w (m.runLambda scope args) := by
  unfold Machine.runLambda
  split
  · exact admits_raise _
  · refine admits_bind (admits_elements _ _) fun parameters =>
      admits_bind (admits_mapM _ (fun v => ?_) _) fun names => ?_
    · unfold Machine.formal
      split
      · exact admits_pure _
      · exact admits_bind (admits_label _) fun _ => admits_raise _
    · split
      · exact admits_newClosure _ _ _
      · exact admits_raise _

theorem admits_runIf (args : List Value) : E.Admits scope w (m.runIf scope args) := by
  unfold Machine.runIf
  split
  · refine admits_bind (admits_eval inside _) fun v => ?_
    split
    · exact admits_eval inside _
    · exact admits_pure _
  · refine admits_bind (admits_eval inside _) fun v => ?_
    split
    · exact admits_eval inside _
    · exact admits_eval inside _
  · exact admits_raise _

theorem admits_test (expr : Value) : E.Admits scope w (m.test scope expr) := by
  unfold Machine.test
  split
  · exact admits_pure _
  · exact admits_eval inside expr

theorem admits_runCond (clauses : List Value) : E.Admits scope w (m.runCond scope clauses) := by
  induction clauses with
  | nil => exact admits_raise _
  | cons clause rest ih =>
      refine admits_bind (admits_elements _ _) fun forms => ?_
      cases forms with
      | nil => exact admits_raise _
      | cons test results =>
          refine admits_bind (admits_test inside test) fun v => ?_
          split
          · exact admits_sequence inside _ _
          · exact ih

theorem admits_runLet (args : List Value) : E.Admits scope w (m.runLet scope args) := by
  unfold Machine.runLet
  split
  · exact admits_raise _
  · refine admits_bind (admits_elements _ _) fun bindings =>
      admits_bind (admits_mapM _ (fun v => ?_) _) fun bindings => admits_newScope _ _ fun u => ?_
    · refine admits_bind (admits_elements _ _) fun parts => ?_
      split
      · exact admits_pure _
      · exact admits_bind (admits_label _) fun _ => admits_raise _
      · exact admits_raise _
    · exact admits_block inside _ _ _

theorem admits_runEval (args : List Value) : E.Admits scope w (m.runEval scope args) := by
  unfold Machine.runEval
  split
  · exact admits_bind (admits_eval inside _) fun code => admits_eval inside code
  · exact admits_raise _

theorem admits_runError (args : List Value) : E.Admits scope w (m.runError scope args) := by
  unfold Machine.runError
  split
  · exact admits_bind (admits_eval inside _) fun _ => admits_bind (admits_text _) fun _ => admits_raise _
  · exact admits_raise _

theorem admits_runBegin (forms : List Value) : E.Admits scope w (m.runBegin scope forms) :=
  admits_bind (admits_reserve _) fun _ => admits_sequence inside _ _

theorem admits_runForm (k : Keyword) (args : List Value) : E.Admits scope w (m.runForm k args scope) := by
  cases k with
  | quote =>
      change E.Admits scope w (Machine.runQuote args)
      unfold Machine.runQuote
      split
      · exact admits_pure _
      · exact admits_raise _
  | define => exact admits_runDefine inside args
  | lambda => exact admits_runLambda args
  | ifElse => exact admits_runIf inside args
  | cond => exact admits_runCond inside args
  | letIn => exact admits_runLet inside args
  | eval => exact admits_runEval inside args
  | error => exact admits_runError inside args
  | begin => exact admits_runBegin inside args

omit inside in
include same in
theorem admits_partial (formals : List String) (body : Value) (captured : Nat) (args : List Value) :
    E.Admits scope w (do
      let inner ← Eval.newScope (some captured)
      Machine.defineAll inner (formals.zip args)
      m.note (.binds formals args inner)
      Eval.newClosure (formals.drop args.length) body inner) := by
  intro u begun
  have bound : E.rel scope u _ :=
    E.inner (rel_defineAll (formals.zip args) (u.addScope (some captured)))
  -- Nothing happens in the new scope once it is reported, so the report belongs to the caller's scope.
  have noted : E.Admits scope u (m.note (.binds formals args u.store.scopes.size)) :=
    admits_note same _ fun _ => Nat.le_refl _
  exact E.trans begun (admits_bind noted (fun _ => admits_newClosure _ body _) _ bound)

include same in
theorem admits_applyClosure (closure : Value) (formals : List String) (body : Value) (captured : Nat)
    (args : List Value) : E.Admits scope w (m.applyClosure closure formals body captured args) := by
  unfold Machine.applyClosure
  by_cases many : formals.length < args.length
  · rw [if_pos many]
    exact admits_bind (admits_text _) fun _ => admits_raise _
  · rw [if_neg many]
    by_cases few : args.length < formals.length
    · simp only [if_pos few]
      exact admits_partial same formals body captured args
    · simp only [if_neg few]
      exact admits_newScope _ _ fun u => admits_bind (admits_defineAll _) fun _ =>
        admits_bind (admits_note same _ fun less => absurd less few) fun _ => admits_eval inside body

include same in
theorem admits_apply (proc : Value) (args : List Value) : E.Admits scope w (m.apply proc args) := by
  unfold Machine.apply
  refine admits_bind (admits_note same _ trivial) fun _ => ?_
  split
  · exact admits_applyClosure same inside _ _ _ _ args
  · exact admits_callBuiltin _ args
  · exact admits_bind (admits_text _) fun _ => admits_raise _

include same in
theorem admits_runCall (head rest : Value) : E.Admits scope w (m.runCall head rest scope) :=
  admits_bind (admits_eval inside head) fun proc => admits_bind (admits_elements _ rest) fun args =>
    admits_bind (admits_mapM _ (fun arg => admits_eval inside arg) args) fun args =>
      admits_apply same inside proc args

include same in
theorem admits_run (expr : Value) : E.Admits scope w (m.run expr scope) := by
  unfold Machine.run
  split
  · exact admits_lookup _ _
  · split
    · exact admits_bind (admits_elements _ _) fun args => admits_runForm inside _ args
    · exact admits_runCall same inside _ _
  · exact admits_runCall same inside _ _
  · exact admits_pure _

include same in
theorem rel_step (expr : Value) (scope : Nat) (w : World ρ) :
    E.rel scope w ((m.step expr scope).after w) := by
  have ended (older : Nat) (sizes : older = w.store.scopes.size) : E.Admits scope w (do
      let v ← m.run expr scope
      m.note (.ends expr scope older v)
      return v) :=
    admits_bind (admits_run same inside expr) fun _ =>
      admits_bind (admits_note same _ (Nat.le_of_eq sizes.symm)) fun _ => admits_pure _
  have begun := admits_note same (.begins expr scope) trivial w (E.refl scope w)
  unfold Machine.step
  simp only [Eval.after, bind, EStateM.bind] at begun ⊢
  cases noted : m.note (.begins expr scope) w with
  | error e u => simpa only [noted] using begun
  | ok a u =>
      rw [noted] at begun
      have stored : u.store = w.store := Machine.note_store noted
      exact ended u.store.scopes.size (by rw [stored]) u begun

end Machine

theorem evaluate_rel (E : Evolution mode) (depth : Nat) (expr : Value) (scope : Nat) (w : World ρ) :
    E.rel scope w ((evaluate mode depth expr scope).after w) := by
  induction depth generalizing expr scope w with
  | zero => exact E.refl scope w
  | succ depth ih => exact rel_step (m := .ofDepth mode depth) rfl ih expr scope w

theorem evalText_rel (E : Evolution mode) (depth : Nat) (code : String) (w : World ρ) :
    E.rel 0 w ((evalText mode depth code).after w) := by
  unfold evalText
  cases Reader.parse depth code with
  | error e => exact E.refl 0 w
  | ok program =>
      change E.rel 0 w ((Eval.recover (evaluate mode depth program 0)).after w)
      rw [Eval.after_recover]
      exact E.evaluate_rel depth program 0 w

end Evolution

end CurriedLisp
