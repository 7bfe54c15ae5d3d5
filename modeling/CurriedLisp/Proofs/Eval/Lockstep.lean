import CurriedLisp.Proofs.Eval.Change
import CurriedLisp.Proofs.Eval.Reply
import CurriedLisp.Proofs.Value.Written

set_option autoImplicit false

/-!
Two runs of the same code from the same store that differ in what they report and in how deep they may nest.
A `Lockstep` says how their reports go together; then the runs do the same, step by step, unless the first
one stops with a failure that the other need not share.
-/

namespace CurriedLisp

variable {ρ₁ ρ₂ α β : Type}

structure Lockstep (mode₁ : Mode ρ₁) (mode₂ : Mode ρ₂) where
  trace : List ρ₁ → List ρ₂ → Prop
  -- How the first run may stop: with this failure, in this world, and with these reports of the second run, which
  -- may go on to make more.
  stops : Failure → World ρ₁ → List ρ₂ → Prop
  later : ∀ {f w trace₂} report, stops f w trace₂ → stops f w (report :: trace₂)
  reserve : mode₁.reserve = mode₂.reserve
  note : ∀ moment store {depth₁ depth₂ trace₁ trace₂},
    depth₁ = depth₂ ∨ depth₁ ≤ depth₂ ∧ (∀ w reports, stops .tooDeep w reports) → trace trace₁ trace₂ →
    match mode₁.watch depth₁ moment store, mode₂.watch depth₂ moment store with
    | .ok line₁, .ok line₂ => trace (line₁.toList ++ trace₁) (line₂.toList ++ trace₂)
    | .error o, .ok line₂ => stops (.ofObstacle o) ⟨store, trace₁⟩ (line₂.toList ++ trace₂)
    | .error o, .error o' => stops (.ofObstacle o) ⟨store, trace₁⟩ trace₂ ∨ o' = o
    | .ok _, .error _ => False

namespace Lockstep

variable {mode₁ : Mode ρ₁} {mode₂ : Mode ρ₂} (L : Lockstep mode₁ mode₂)

def rel (w₁ : World ρ₁) (w₂ : World ρ₂) : Prop := w₁.store = w₂.store ∧ L.trace w₁.trace w₂.trace

def Free : Prop := ∀ w reports, L.stops .tooDeep w reports

def depths (depth₁ depth₂ : Nat) : Prop := depth₁ = depth₂ ∨ depth₁ ≤ depth₂ ∧ L.Free

def reports : EStateM.Result Failure (World ρ₂) α → List ρ₂
  | .ok _ w => w.trace
  | .error _ w => w.trace

inductive Agrees : EStateM.Result Failure (World ρ₁) α → EStateM.Result Failure (World ρ₂) α → Prop where
  | ok {w₁ w₂} (a : α) : L.rel w₁ w₂ → Agrees (.ok a w₁) (.ok a w₂)
  | error {w₁ w₂} (f : Failure) : L.rel w₁ w₂ → Agrees (.error f w₁) (.error f w₂)
  | stopped {f w₁ r} : L.stops f w₁ (reports r) → Agrees (.error f w₁) r

-- What the second run does once the first one has stopped.
def GoesOn (x₂ : Eval ρ₂ α) : Prop := ∀ f w₁ w₂, L.stops f w₁ w₂.trace → L.stops f w₁ (reports (x₂ w₂))

structure Follows (x₁ : Eval ρ₁ α) (x₂ : Eval ρ₂ α) : Prop where
  agrees : ∀ w₁ w₂, L.rel w₁ w₂ → L.Agrees (x₁ w₁) (x₂ w₂)
  goesOn : L.GoesOn x₂

def onward : Evolution mode₂ where
  rel _ w w' := ∀ f w₁, L.stops f w₁ w.trace → L.stops f w₁ w'.trace
  refl _ _ _ _ stopped := stopped
  trans first second f w₁ stopped := second f w₁ (first f w₁ stopped)
  define _ _ _ _ _ _ stopped := stopped
  closure _ _ _ _ stopped := stopped
  inner within := within
  note run _ _ f w₁ stopped := L.later _ (run f w₁ stopped)

variable {L}

theorem follows_pure (a : α) : L.Follows (pure a) (pure a) :=
  ⟨fun _ _ start => .ok a start, fun _ _ _ stopped => stopped⟩

theorem follows_throw (f : Failure) : L.Follows (throw f : Eval ρ₁ α) (throw f) :=
  ⟨fun _ _ start => .error f start, fun _ _ _ stopped => stopped⟩

theorem follows_bind {x₁ : Eval ρ₁ α} {x₂ : Eval ρ₂ α} {f₁ : α → Eval ρ₁ β} {f₂ : α → Eval ρ₂ β}
    (first : L.Follows x₁ x₂) (rest : ∀ a, L.Follows (f₁ a) (f₂ a)) :
    L.Follows (x₁ >>= f₁) (x₂ >>= f₂) := by
  refine ⟨fun w₁ w₂ start => ?_, fun f w₁ w₂ stopped => ?_⟩
  · have step := first.agrees w₁ w₂ start
    simp only [bind, EStateM.bind]
    generalize x₁ w₁ = r₁, x₂ w₂ = r₂ at step ⊢
    cases step with
    | ok a next => exact (rest a).agrees _ _ next
    | error f next => exact .error f next
    | stopped free =>
        cases r₂ with
        | ok a u => exact .stopped ((rest a).goesOn _ _ u free)
        | error f u => exact .stopped free
  · have step := first.goesOn f w₁ w₂ stopped
    simp only [bind, EStateM.bind]
    generalize x₂ w₂ = r at step ⊢
    cases r with
    | ok a u => exact (rest a).goesOn f w₁ u step
    | error e u => exact step

theorem follows_mapM {f₁ : α → Eval ρ₁ β} {f₂ : α → Eval ρ₂ β} (each : ∀ a, L.Follows (f₁ a) (f₂ a))
    (as : List α) : L.Follows (as.mapM f₁) (as.mapM f₂) := by
  induction as with
  | nil => exact follows_pure _
  | cons a rest ih =>
      rw [List.mapM_cons, List.mapM_cons]
      exact follows_bind (each a) fun _ => follows_bind ih fun _ => follows_pure _

theorem follows_raise (e : Error) : L.Follows (Eval.raise e : Eval ρ₁ α) (Eval.raise e) := follows_throw _

theorem follows_store : L.Follows Eval.store Eval.store := by
  refine ⟨fun w₁ w₂ start => ?_, fun _ _ _ stopped => stopped⟩
  have same : Eval.store w₂ = .ok w₁.store w₂ := by rw [start.1]; rfl
  rw [same]
  exact .ok w₁.store start

theorem follows_modifyStore (f : Store → Store) : L.Follows (Eval.modifyStore f) (Eval.modifyStore f) :=
  ⟨fun _ _ start => .ok () ⟨congrArg f start.1, start.2⟩, fun _ _ _ stopped => stopped⟩

theorem follows_ofError (r : Except Error α) : L.Follows (Eval.ofError r) (Eval.ofError r) := by
  cases r with
  | ok a => exact follows_pure a
  | error e => exact follows_raise e

theorem follows_lookup (scope : Nat) (name : String) :
    L.Follows (Eval.lookup scope name) (Eval.lookup scope name) :=
  follows_bind follows_store fun _ => follows_ofError _

theorem follows_define (scope : Nat) (name : String) (value : Value) :
    L.Follows (Eval.define scope name value) (Eval.define scope name value) := follows_modifyStore _

theorem follows_newScope (outer : Option Nat) : L.Follows (Eval.newScope outer) (Eval.newScope outer) := by
  refine ⟨fun w₁ w₂ ⟨stores, traces⟩ => ?_, fun _ _ _ stopped => stopped⟩
  have same : Eval.newScope outer w₂ =
      .ok w₁.store.scopes.size { w₂ with store := w₁.store.addScope outer } := by
    rw [stores]
    rfl
  rw [same]
  exact .ok _ ⟨rfl, traces⟩

theorem follows_newClosure (formals : List String) (body : Value) (captured : Nat) :
    L.Follows (Eval.newClosure formals body captured) (Eval.newClosure formals body captured) := by
  refine ⟨fun w₁ w₂ ⟨stores, traces⟩ => ?_, fun _ _ _ stopped => stopped⟩
  have same : Eval.newClosure formals body captured w₂ =
      .ok (.closure w₁.store.closures formals body captured)
        { w₂ with store := { w₁.store with closures := w₁.store.closures + 1 } } := by
    rw [stores]
    rfl
  rw [same]
  exact .ok _ ⟨rfl, traces⟩

theorem follows_ofRender {r₁ r₂ : Except Obstacle α}
    (same : r₁ = r₂ ∨ r₁ = .error .tooDeep ∧ L.Free) :
    L.Follows (Eval.ofRender r₁) (Eval.ofRender r₂) := by
  obtain rfl | ⟨rfl, free⟩ := same
  · cases r₁ with
    | ok a => exact follows_pure a
    | error o => exact follows_throw _
  · refine ⟨fun _ _ _ => .stopped (free _ _), fun _ _ _ stopped => ?_⟩
    cases r₂ <;> exact stopped

structure Pair (m₁ : Machine ρ₁) (m₂ : Machine ρ₂) : Prop where
  mode₁ : m₁.mode = mode₁
  mode₂ : m₂.mode = mode₂
  depths : L.depths m₁.depth m₂.depth
  eval : ∀ expr scope, L.Follows (m₁.eval expr scope) (m₂.eval expr scope)

section Machine

variable {m₁ : Machine ρ₁} {m₂ : Machine ρ₂} (pair : L.Pair m₁ m₂)

include pair

theorem follows_text (v : Value) : L.Follows (m₁.text v) (m₂.text v) := by
  apply follows_ofRender
  obtain same | ⟨less, free⟩ := pair.depths
  · exact .inl (by rw [same])
  · by_cases deep : v.render m₁.depth = .error .tooDeep
    · exact .inr ⟨deep, free⟩
    · exact .inl (v.render_deeper less deep).symm

theorem follows_label (v : Value) : L.Follows (m₁.label v) (m₂.label v) := by
  apply follows_ofRender
  obtain same | ⟨less, free⟩ := pair.depths
  · exact .inl (by rw [same])
  · by_cases deep : v.renderLabel m₁.depth = .error .tooDeep
    · exact .inr ⟨deep, free⟩
    · exact .inl (v.render_label_deeper less deep).symm

theorem follows_note (moment : Moment) : L.Follows (m₁.note moment) (m₂.note moment) := by
  refine ⟨?_, fun f w₁ w₂ stopped => ?_⟩
  · rintro ⟨s, trace₁⟩ ⟨t, trace₂⟩ ⟨stores, traces⟩
    obtain rfl : s = t := stores
    have noted := L.note moment s pair.depths traces
    rw [Machine.note_run, Machine.note_run, pair.mode₁, pair.mode₂]
    generalize mode₁.watch m₁.depth moment s = seen₁, mode₂.watch m₂.depth moment s = seen₂ at noted
    cases seen₁ with
    | error o =>
        cases seen₂ with
        | error o' =>
            obtain free | rfl := noted
            · exact .stopped free
            · exact .error _ ⟨rfl, traces⟩
        | ok line₂ => cases line₂ <;> exact .stopped noted
    | ok line₁ =>
        cases seen₂ with
        | error o => exact noted.elim
        | ok line₂ => cases line₁ <;> cases line₂ <;> exact .ok () ⟨rfl, noted⟩
  · rw [Machine.note_run]
    cases m₂.mode.watch m₂.depth moment w₂.store with
    | error o => exact stopped
    | ok line =>
        cases line with
        | none => exact stopped
        | some report => exact L.later report stopped

theorem follows_elements (what : String) (v : Value) :
    L.Follows (m₁.elements what v) (m₂.elements what v) := by
  unfold Machine.elements
  split
  · exact follows_pure _
  · exact follows_bind (follows_label pair v) fun _ => follows_raise _

theorem follows_reserve (scope : Nat) (names : List String) :
    L.Follows (m₁.reserve scope names) (m₂.reserve scope names) := by
  unfold Machine.reserve
  rw [pair.mode₁, pair.mode₂, L.reserve]
  split
  · exact follows_modifyStore _
  · exact follows_pure ()

theorem follows_sequence (scope : Nat) (last : Value) (forms : List Value) :
    L.Follows (m₁.sequence scope last forms) (m₂.sequence scope last forms) := by
  induction forms generalizing last with
  | nil => exact follows_pure last
  | cons form rest ih => exact follows_bind (pair.eval form scope) ih

theorem follows_bindAll (scope : Nat) (bindings : List (String × Value)) :
    L.Follows (m₁.bindAll scope bindings) (m₂.bindAll scope bindings) := by
  induction bindings with
  | nil => exact follows_pure ()
  | cons binding rest ih =>
      exact follows_bind (pair.eval binding.2 scope) fun v => follows_bind (follows_define scope _ v) fun _ => ih

theorem follows_complain (operation : String) (c : Complaint) :
    L.Follows (m₁.complain operation c) (m₂.complain operation c) := by
  cases c with
  | notNumber v => exact follows_bind (follows_text pair v) fun _ => follows_raise _
  | notPair v => exact follows_bind (follows_text pair v) fun _ => follows_raise _
  | tooDeep => exact follows_throw _
  | exactly | atLeast | divisionByZero => exact follows_raise _

theorem follows_reply (operation : String) {r₁ r₂ : Except Complaint Value}
    (same : r₁ = r₂ ∨ r₁ = .error .tooDeep ∧ L.Free) :
    L.Follows (m₁.reply operation r₁) (m₂.reply operation r₂) := by
  have equal (r : Except Complaint Value) : L.Follows (m₁.reply operation r) (m₂.reply operation r) := by
    cases r with
    | ok v => exact follows_pure v
    | error c => exact follows_complain pair operation c
  obtain rfl | ⟨rfl, free⟩ := same
  · exact equal r₁
  · exact ⟨fun _ _ _ => .stopped (free _ _), (equal r₂).goesOn⟩

theorem follows_callBuiltin (key : String) (args : List Value) :
    L.Follows (m₁.callBuiltin key args) (m₂.callBuiltin key args) := by
  unfold Machine.callBuiltin
  cases Primitive.ofKey? key with
  | none => exact follows_raise _
  | some p =>
      apply follows_reply pair
      obtain same | ⟨less, free⟩ := pair.depths
      · exact .inl (by rw [same])
      · by_cases deep : p.call m₁.depth args = .error .tooDeep
        · exact .inr ⟨deep, free⟩
        · exact .inl (p.call_deeper less deep).symm

theorem follows_applyClosure (closure : Value) (formals : List String) (body : Value) (captured : Nat)
    (args : List Value) : L.Follows (m₁.applyClosure closure formals body captured args)
      (m₂.applyClosure closure formals body captured args) := by
  unfold Machine.applyClosure
  split
  · exact follows_bind (follows_text pair _) fun _ => follows_raise _
  · refine follows_bind (follows_newScope _) fun scope => follows_bind (follows_modifyStore _) fun _ =>
      follows_bind (follows_note pair _) fun _ => ?_
    split
    · exact follows_newClosure _ _ _
    · exact pair.eval body scope

theorem follows_apply (proc : Value) (args : List Value) :
    L.Follows (m₁.apply proc args) (m₂.apply proc args) := by
  refine follows_bind (follows_note pair _) fun _ => ?_
  split
  · exact follows_applyClosure pair _ _ _ _ args
  · exact follows_callBuiltin pair _ args
  · exact follows_bind (follows_text pair _) fun _ => follows_raise _

theorem follows_runCall (head rest : Value) (scope : Nat) :
    L.Follows (m₁.runCall head rest scope) (m₂.runCall head rest scope) :=
  follows_bind (pair.eval head scope) fun proc => follows_bind (follows_elements pair _ rest) fun args =>
    follows_bind (follows_mapM (fun arg => pair.eval arg scope) args) fun args => follows_apply pair proc args

theorem follows_runDefine (scope : Nat) (args : List Value) :
    L.Follows (m₁.runDefine scope args) (m₂.runDefine scope args) := by
  unfold Machine.runDefine
  split
  · exact follows_bind (pair.eval _ scope) fun v =>
      follows_bind (follows_define scope _ v) fun _ => follows_pure v
  · exact follows_bind (follows_label pair _) fun _ => follows_raise _
  · exact follows_raise _

theorem follows_runLambda (scope : Nat) (args : List Value) :
    L.Follows (m₁.runLambda scope args) (m₂.runLambda scope args) := by
  unfold Machine.runLambda
  split
  · exact follows_raise _
  · refine follows_bind (follows_elements pair _ _) fun parameters =>
      follows_bind (follows_mapM (fun v => ?_) _) fun names => ?_
    · unfold Machine.formal
      split
      · exact follows_pure _
      · exact follows_bind (follows_label pair _) fun _ => follows_raise _
    · split
      · exact follows_newClosure _ _ _
      · exact follows_raise _

theorem follows_runIf (scope : Nat) (args : List Value) :
    L.Follows (m₁.runIf scope args) (m₂.runIf scope args) := by
  unfold Machine.runIf
  split
  · refine follows_bind (pair.eval _ scope) fun v => ?_
    split
    · exact pair.eval _ scope
    · exact follows_pure _
  · refine follows_bind (pair.eval _ scope) fun v => ?_
    split <;> exact pair.eval _ scope
  · exact follows_raise _

theorem follows_test (scope : Nat) (expr : Value) : L.Follows (m₁.test scope expr) (m₂.test scope expr) := by
  unfold Machine.test
  split
  · exact follows_pure _
  · exact pair.eval expr scope

theorem follows_runCond (scope : Nat) (clauses : List Value) :
    L.Follows (m₁.runCond scope clauses) (m₂.runCond scope clauses) := by
  induction clauses with
  | nil => exact follows_raise _
  | cons clause rest ih =>
      refine follows_bind (follows_elements pair _ _) fun forms => ?_
      cases forms with
      | nil => exact follows_raise _
      | cons test results =>
          refine follows_bind (follows_test pair scope test) fun v => ?_
          split
          · exact follows_sequence pair scope v results
          · exact ih

theorem follows_runLet (scope : Nat) (args : List Value) :
    L.Follows (m₁.runLet scope args) (m₂.runLet scope args) := by
  unfold Machine.runLet
  split
  · exact follows_raise _
  · refine follows_bind (follows_elements pair _ _) fun bindings =>
      follows_bind (follows_mapM (fun v => ?_) _) fun bindings => follows_bind (follows_newScope _) fun inner =>
        follows_bind (follows_reserve pair inner _) fun _ =>
          follows_bind (follows_bindAll pair inner _) fun _ => pair.eval _ inner
    refine follows_bind (follows_elements pair _ _) fun parts => ?_
    split
    · exact follows_pure _
    · exact follows_bind (follows_label pair _) fun _ => follows_raise _
    · exact follows_raise _

theorem follows_runEval (scope : Nat) (args : List Value) :
    L.Follows (m₁.runEval scope args) (m₂.runEval scope args) := by
  unfold Machine.runEval
  split
  · exact follows_bind (pair.eval _ scope) fun code => pair.eval code scope
  · exact follows_raise _

theorem follows_runError (scope : Nat) (args : List Value) :
    L.Follows (m₁.runError scope args) (m₂.runError scope args) := by
  unfold Machine.runError
  split
  · exact follows_bind (pair.eval _ scope) fun _ => follows_bind (follows_text pair _) fun _ => follows_raise _
  · exact follows_raise _

theorem follows_runForm (k : Keyword) (args : List Value) (scope : Nat) :
    L.Follows (m₁.runForm k args scope) (m₂.runForm k args scope) := by
  cases k with
  | quote =>
      change L.Follows (Machine.runQuote args) (Machine.runQuote args)
      unfold Machine.runQuote
      split
      · exact follows_pure _
      · exact follows_raise _
  | define => exact follows_runDefine pair scope args
  | lambda => exact follows_runLambda pair scope args
  | ifElse => exact follows_runIf pair scope args
  | cond => exact follows_runCond pair scope args
  | letIn => exact follows_runLet pair scope args
  | eval => exact follows_runEval pair scope args
  | error => exact follows_runError pair scope args
  | begin =>
      exact follows_bind (follows_reserve pair scope _) fun _ => follows_sequence pair scope _ args

theorem follows_run (expr : Value) (scope : Nat) : L.Follows (m₁.run expr scope) (m₂.run expr scope) := by
  unfold Machine.run
  split
  · exact follows_lookup scope _
  · split
    · exact follows_bind (follows_elements pair _ _) fun args => follows_runForm pair _ args scope
    · exact follows_runCall pair _ _ scope
  · exact follows_runCall pair _ _ scope
  · exact follows_pure _

theorem follows_step (expr : Value) (scope : Nat) : L.Follows (m₁.step expr scope) (m₂.step expr scope) :=
  follows_bind (follows_note pair _) fun _ => follows_bind follows_store fun _ =>
    follows_bind (follows_run pair expr scope) fun v => follows_bind (follows_note pair _) fun _ => follows_pure v

end Machine

variable (L)

theorem evaluate_follows {depth₁ depth₂ : Nat} (depths : L.depths depth₁ depth₂) (expr : Value) (scope : Nat) :
    L.Follows (evaluate mode₁ depth₁ expr scope) (evaluate mode₂ depth₂ expr scope) := by
  induction depth₁ generalizing depth₂ expr scope with
  | zero =>
      obtain rfl | ⟨_, free⟩ := depths
      · exact follows_throw .tooDeep
      · refine ⟨fun _ _ _ => .stopped (free _ _), fun f w₁ w₂ stopped => ?_⟩
        have after := L.onward.evaluate_rel depth₂ expr scope w₂ f w₁ stopped
        unfold Eval.after at after
        generalize evaluate mode₂ depth₂ expr scope w₂ = r at after ⊢
        cases r <;> exact after
  | succ d ih =>
      obtain ⟨e, rfl⟩ : ∃ e, depth₂ = e + 1 := ⟨depth₂ - 1, by obtain _ | ⟨_, _⟩ := depths <;> omega⟩
      have inner : L.depths d e := depths.imp Nat.succ.inj (And.imp_left Nat.le_of_succ_le_succ)
      have pair : L.Pair (.ofDepth mode₁ d) (.ofDepth mode₂ e) :=
        ⟨rfl, rfl, inner, fun expr scope => ih inner expr scope⟩
      exact follows_step pair expr scope

variable {L}

theorem follows_recover (kept : ∀ {f w records}, L.stops f w records → L.stops f.recovered w records)
    {x₁ : Eval ρ₁ α} {x₂ : Eval ρ₂ α} (run : L.Follows x₁ x₂) : L.Follows x₁.recover x₂.recover := by
  refine ⟨fun w₁ w₂ start => ?_, fun f w₁ w₂ stopped => ?_⟩
  · have ended := run.agrees w₁ w₂ start
    rw [Eval.recover_run, Eval.recover_run]
    generalize x₁ w₁ = r₁, x₂ w₂ = r₂ at ended ⊢
    cases ended with
    | ok a related => exact .ok a related
    | error f related => exact .error f.recovered related
    | stopped stopped => cases r₂ <;> exact .stopped (kept stopped)
  · have after := run.goesOn f w₁ w₂ stopped
    rw [Eval.recover_run]
    generalize x₂ w₂ = r at after ⊢
    cases r <;> exact after

theorem evalText_follows (kept : ∀ {f w records}, L.stops f w records → L.stops f.recovered w records)
    (depth : Nat) (code : String) : L.Follows (evalText mode₁ depth code) (evalText mode₂ depth code) := by
  unfold evalText
  cases Reader.parse depth code with
  | error f => exact follows_throw f
  | ok program => exact follows_recover kept (L.evaluate_follows (.inl rfl) program 0)

end Lockstep

end CurriedLisp
