import CurriedLisp.Proofs.Eval.Tracing
import CurriedLisp.Proofs.Reader.Refusal
import CurriedLisp.Settings

set_option autoImplicit false

namespace CurriedLisp

variable {ρ α β : Type}

namespace Value

def Clear (v : Value) : Prop := v.overlong = false

theorem clear_pair {first second : Value} (clear : (pair first second).Clear) : first.Clear ∧ second.Clear :=
  Bool.or_eq_false_iff.mp clear

theorem Clear.obstacle {v : Value} (clear : v.Clear) (depth : Nat) : v.obstacle? depth ≠ some .tooLong := by
  intro long
  have fits : v.obstacle? depth ≠ some .tooDeep := by rw [long]; decide
  rw [v.obstacle_overlong fits, clear] at long
  cases long

end Value

def Moment.values : Moment → List Value
  | begins expr _ => [expr]
  | applies proc args => proc :: args
  | binds _ args _ => args
  | ends expr _ _ v => [expr, v]

namespace Complaint

def Shows (P : Value → Prop) : Complaint → Prop
  | notNumber v => P v
  | notPair v => P v
  | _ => True

end Complaint

namespace Primitive

variable {P : Value → Prop}

def Blames (P : Value → Prop) (x : Except Complaint α) : Prop := ∀ c, x = .error c → c.Shows P

theorem blames_ok (a : α) : Blames P (.ok a) := fun _ never => nomatch never

theorem blames_error {c : Complaint} (shows : c.Shows P) : Blames P (.error c : Except Complaint α) :=
  fun _ same => Except.error.inj same ▸ shows

theorem blames_bind {x : Except Complaint α} {f : α → Except Complaint β} (first : Blames P x)
    (rest : ∀ a, Blames P (f a)) : Blames P (x >>= f) := by
  cases x with
  | ok a => exact rest a
  | error c => exact blames_error (first c rfl)

theorem blames_number {v : Value} (fine : P v) : Blames P (number v) := by
  cases v with
  | int n => exact blames_ok n
  | _ => exact blames_error fine

theorem blames_numbers {args : List Value} (fine : ∀ arg ∈ args, P arg) : Blames P (numbers args) := by
  unfold numbers
  induction args with
  | nil => exact blames_ok []
  | cons arg rest ih =>
      obtain ⟨first, others⟩ := List.forall_mem_cons.mp fine
      rw [List.mapM_cons]
      exact blames_bind (blames_number first) fun _ => blames_bind (ih others) fun _ => blames_ok _

theorem blames_one (args : List Value) : Blames P (one args) := by
  unfold one
  split
  · exact blames_ok _
  · exact blames_error trivial

theorem blames_two (args : List Value) : Blames P (two args) := by
  unfold two
  split
  · exact blames_ok _
  · exact blames_error trivial

theorem blames_twoNumbers {args : List Value} (fine : ∀ arg ∈ args, P arg) : Blames P (twoNumbers args) := by
  unfold twoNumbers
  split
  · rename_i a b
    exact blames_bind (blames_number (fine a (by simp))) fun _ =>
      blames_bind (blames_number (fine b (by simp))) fun _ => blames_ok _
  · exact blames_error trivial

theorem blames_onePair {args : List Value} (fine : ∀ arg ∈ args, P arg) : Blames P (onePair args) := by
  rcases args with _ | ⟨a, _ | ⟨b, rest⟩⟩
  · exact blames_error trivial
  · have known : P a := fine a List.mem_cons_self
    cases a with
    | pair first second => exact blames_ok _
    | _ => exact blames_error known
  · exact blames_error trivial

theorem blames_quotient (n d : Int) : Blames P (quotient n d) := by
  unfold quotient
  by_cases zero : d = 0
  · rw [if_pos zero]
    exact blames_error trivial
  · rw [if_neg zero]
    exact blames_ok _

theorem blames_foldQuotient (n : Int) (ds : List Int) : Blames P (ds.foldlM quotient n) := by
  induction ds generalizing n with
  | nil => exact blames_ok n
  | cons d rest ih =>
      rw [List.foldlM_cons]
      exact blames_bind (blames_quotient n d) fun q => ih q

theorem blames_compare (depth : Nat) (a b : Value) : Blames P (compare depth a b) := by
  unfold compare
  cases a.equal? b depth with
  | none => exact blames_error trivial
  | some answer => exact blames_ok answer

theorem blames_call (p : Primitive) (depth : Nat) {args : List Value} (fine : ∀ arg ∈ args, P arg) :
    Blames P (p.call depth args) := by
  cases p with
  | add | mul => exact blames_bind (blames_numbers fine) fun _ => blames_ok _
  | sub =>
      rcases args with _ | ⟨a, _ | ⟨b, rest⟩⟩
      · exact blames_error trivial
      · exact blames_bind (blames_number (fine a List.mem_cons_self)) fun _ => blames_ok _
      · obtain ⟨first, others⟩ := List.forall_mem_cons.mp fine
        exact blames_bind (blames_number first) fun _ => blames_bind (blames_numbers others) fun _ => blames_ok _
  | div =>
      rcases args with _ | ⟨a, _ | ⟨b, rest⟩⟩
      · exact blames_error trivial
      · exact blames_error trivial
      · obtain ⟨first, others⟩ := List.forall_mem_cons.mp fine
        exact blames_bind (blames_number first) fun n => blames_bind (blames_numbers others) fun ds =>
          blames_bind (blames_foldQuotient n ds) fun _ => blames_ok _
  | mod =>
      exact blames_bind (blames_twoNumbers fine) fun _ =>
        blames_bind (blames_bind (blames_quotient _ _) fun _ => blames_ok _) fun _ => blames_ok _
  | equalNumbers | less | greater => exact blames_bind (blames_twoNumbers fine) fun _ => blames_ok _
  | cons => exact blames_bind (blames_two args) fun _ => blames_ok _
  | equal =>
      exact blames_bind (blames_two args) fun _ => blames_bind (blames_compare depth _ _) fun _ => blames_ok _
  | head | tail => exact blames_bind (blames_onePair fine) fun _ => blames_ok _
  | list => exact blames_ok _
  | isNil | not => exact blames_bind (blames_one args) fun _ => blames_ok _

end Primitive

def Eval.Proper (Q : Failure → Prop) (post : α → Prop) (x : Eval ρ α) : Prop :=
  ∀ w, match x w with
    | .ok a _ => post a
    | .error f _ => Q f

abbrev Eval.FailsAs (Q : Failure → Prop) (x : Eval ρ α) : Prop := x.Proper Q fun _ => True

namespace Eval

variable {Q : Failure → Prop} {post : α → Prop} {post' : β → Prop}

theorem proper_pure {a : α} (fine : post a) : Proper Q post (pure a : Eval ρ α) := fun _ => fine

theorem proper_throw {f : Failure} (fine : Q f) : Proper Q post (throw f : Eval ρ α) := fun _ => fine

theorem failsAs_pure {a : α} : FailsAs Q (pure a : Eval ρ α) := fun _ => trivial

theorem failsAs_total {x : Eval ρ α} (total : ∀ w, ∃ a u, x w = .ok a u) : FailsAs Q x := by
  intro w
  obtain ⟨a, u, ran⟩ := total w
  rw [ran]
  trivial

theorem proper_bind {x : Eval ρ α} {f : α → Eval ρ β} (first : Proper Q post x)
    (rest : ∀ a, post a → Proper Q post' (f a)) : Proper Q post' (x >>= f) := by
  intro w
  have step := first w
  simp only [bind, EStateM.bind]
  generalize x w = r at step ⊢
  cases r with
  | ok a u => exact rest a step u
  | error e u => exact step

theorem failsAs_bind {x : Eval ρ α} {f : α → Eval ρ β} (first : FailsAs Q x) (rest : ∀ a, Proper Q post' (f a)) :
    Proper Q post' (x >>= f) :=
  proper_bind first fun a _ => rest a

theorem Proper.failsAs {x : Eval ρ α} (run : Proper Q post x) : FailsAs Q x := by
  intro w
  have ended := run w
  generalize x w = r at ended ⊢
  cases r with
  | ok a u => trivial
  | error f u => exact ended

theorem failsAs_mapM {f : α → Eval ρ β} {as : List α} (each : ∀ a ∈ as, FailsAs Q (f a)) : FailsAs Q (as.mapM f) := by
  induction as with
  | nil => exact failsAs_pure
  | cons a rest ih =>
      obtain ⟨first, others⟩ := List.forall_mem_cons.mp each
      rw [List.mapM_cons]
      exact failsAs_bind first fun _ => failsAs_bind (ih others) fun _ => failsAs_pure

end Eval

-- What a mode makes sure of: this holds of every value that a run goes on with, and that of every failure.
structure Mode.Keeps (mode : Mode ρ) (P : Value → Prop) (Q : Failure → Prop) : Prop where
  error : ∀ e, Q (.error e)
  tooDeep : Q .tooDeep
  pair : ∀ {first second}, P (.pair first second) → P first ∧ P second
  writes : ∀ {v depth o}, P v → v.obstacle? depth = some o → Q (.ofObstacle o)
  watch : ∀ depth moment store, match mode.watch depth moment store with
    | .ok _ => ∀ v ∈ moment.values, P v
    | .error o => Q (.ofObstacle o)

structure Machine.Keeps (m : Machine ρ) (P : Value → Prop) (Q : Failure → Prop) : Prop extends m.mode.Keeps P Q where
  eval : ∀ expr scope, Eval.Proper Q P (m.eval expr scope)

namespace Machine

open Eval

namespace Keeps

variable {m : Machine ρ} {P : Value → Prop} {Q : Failure → Prop} {scope : Nat} {v : Value} {vs : List Value}
variable (keeps : m.Keeps P Q)

include keeps

theorem raise {post : α → Prop} (e : Error) : Proper Q post (Eval.raise e : Eval ρ α) := proper_throw (keeps.error e)

theorem text (fine : P v) : FailsAs Q (m.text v) := by
  unfold Machine.text Value.render
  cases found : v.obstacle? m.depth with
  | none => exact failsAs_pure
  | some o => exact proper_throw (keeps.writes fine found)

theorem label (fine : P v) : FailsAs Q (m.label v) := by
  unfold Machine.label Value.renderLabel
  cases found : v.obstacle? m.depth with
  | none => exact failsAs_pure
  | some o => exact proper_throw (keeps.writes fine found)

theorem note (moment : Moment) : Proper Q (fun _ => ∀ v ∈ moment.values, P v) (m.note moment) := by
  intro w
  have watched := keeps.watch m.depth moment w.store
  rw [note_run]
  generalize m.mode.watch m.depth moment w.store = line at watched ⊢
  cases line with
  | error o => exact watched
  | ok report =>
      cases report with
      | none => exact watched
      | some report => exact watched

theorem complaint {post : α → Prop} {x : Eval ρ String} (e : String → Error) (shown : FailsAs Q x) :
    Proper Q post (x >>= fun shown => Eval.raise (e shown)) :=
  failsAs_bind shown fun _ => keeps.raise _

theorem items (fine : P v) : ∀ item ∈ v.items, P item := by
  induction v with
  | pair first second _ ih =>
      obtain ⟨left, right⟩ := keeps.pair fine
      exact List.forall_mem_cons.mpr ⟨left, ih right⟩
  | _ => exact fun item member => (List.not_mem_nil member).elim

theorem elements (what : String) (fine : P v) : Proper Q (fun items => ∀ item ∈ items, P item) (m.elements what v) := by
  unfold Machine.elements Value.toList?
  cases v.isList with
  | true => exact proper_pure (keeps.items fine)
  | false => exact keeps.complaint _ (keeps.label fine)

theorem lookup (name : String) : FailsAs Q (Eval.lookup scope name : Eval ρ Value) := by
  intro w
  rw [lookup_run]
  cases w.store.lookup scope name with
  | ok v => trivial
  | error e => exact keeps.error e

theorem reply (operation : String) {r : Except Complaint Value} (blames : Primitive.Blames P r) :
    FailsAs Q (m.reply operation r) := by
  cases r with
  | ok v => exact failsAs_pure
  | error c =>
      have shown := blames c rfl
      cases c with
      | notNumber v => exact keeps.complaint _ (keeps.text shown)
      | notPair v => exact keeps.complaint _ (keeps.text shown)
      | tooDeep => exact proper_throw keeps.tooDeep
      | exactly | atLeast | divisionByZero => exact keeps.raise _

theorem callBuiltin (key : String) (fine : ∀ v ∈ vs, P v) : FailsAs Q (m.callBuiltin key vs) := by
  unfold Machine.callBuiltin
  cases Primitive.ofKey? key with
  | none => exact keeps.raise _
  | some p => exact keeps.reply _ (p.blames_call m.depth fine)

theorem sequence (last : Value) (forms : List Value) : FailsAs Q (m.sequence scope last forms) := by
  induction forms generalizing last with
  | nil => exact failsAs_pure
  | cons form rest ih => exact failsAs_bind (keeps.eval form scope).failsAs fun v => ih v

theorem bindAll (bindings : List (String × Value)) : FailsAs Q (m.bindAll scope bindings) := by
  induction bindings with
  | nil => exact failsAs_pure
  | cons b rest ih =>
      exact failsAs_bind (keeps.eval b.2 scope).failsAs fun v => failsAs_bind (failsAs_total fun _ => ⟨_, _, rfl⟩)
        fun _ => ih

theorem runQuote : FailsAs Q (Machine.runQuote vs : Eval ρ Value) := by
  unfold Machine.runQuote
  split
  · exact failsAs_pure
  · exact keeps.raise _

theorem runDefine (fine : ∀ v ∈ vs, P v) : FailsAs Q (m.runDefine scope vs) := by
  unfold Machine.runDefine
  split
  · rename_i name expr
    exact failsAs_bind (keeps.eval expr scope).failsAs fun v => failsAs_bind (failsAs_total fun _ => ⟨_, _, rfl⟩)
      fun _ => failsAs_pure
  · exact keeps.complaint _ (keeps.label (fine _ (by simp)))
  · exact keeps.raise _

theorem formal (fine : P v) : FailsAs Q (m.formal v) := by
  unfold Machine.formal
  split
  · exact failsAs_pure
  · exact keeps.complaint _ (keeps.label fine)

theorem runLambda (fine : ∀ v ∈ vs, P v) : FailsAs Q (m.runLambda scope vs) := by
  cases vs with
  | nil => exact keeps.raise _
  | cons parameters forms =>
      obtain ⟨named, _⟩ := List.forall_mem_cons.mp fine
      refine proper_bind (keeps.elements _ named) fun items each =>
        failsAs_bind (failsAs_mapM fun v member => keeps.formal (each v member)) fun names => ?_
      by_cases distinct : names.Nodup
      · rw [if_pos distinct]
        exact failsAs_total fun _ => ⟨_, _, rfl⟩
      · rw [if_neg distinct]
        exact keeps.raise _

theorem runIf : FailsAs Q (m.runIf scope vs) := by
  unfold Machine.runIf
  split
  · refine failsAs_bind (keeps.eval _ scope).failsAs fun v => ?_
    split
    · exact (keeps.eval _ scope).failsAs
    · exact failsAs_pure
  · refine failsAs_bind (keeps.eval _ scope).failsAs fun v => ?_
    split
    · exact (keeps.eval _ scope).failsAs
    · exact (keeps.eval _ scope).failsAs
  · exact keeps.raise _

theorem test (expr : Value) : FailsAs Q (m.test scope expr) := by
  unfold Machine.test
  by_cases isElse : expr = .sym "else"
  · rw [if_pos isElse]
    exact failsAs_pure
  · rw [if_neg isElse]
    exact (keeps.eval expr scope).failsAs

theorem runCond (fine : ∀ v ∈ vs, P v) : FailsAs Q (m.runCond scope vs) := by
  induction vs with
  | nil => exact keeps.raise _
  | cons clause rest ih =>
      obtain ⟨first, others⟩ := List.forall_mem_cons.mp fine
      refine proper_bind (keeps.elements _ first) fun parts _ => ?_
      cases parts with
      | nil => exact keeps.raise _
      | cons test results =>
          refine failsAs_bind (keeps.test test) fun v => ?_
          by_cases holds : v.isTrue
          · rw [if_pos holds]
            exact keeps.sequence v results
          · rw [if_neg holds]
            exact ih others

theorem binding (fine : P v) : FailsAs Q (m.binding v) := by
  refine proper_bind (keeps.elements _ fine) fun parts each => ?_
  split
  · exact failsAs_pure
  · exact keeps.complaint _ (keeps.label (each _ (by simp)))
  · exact keeps.raise _

theorem runLet (fine : ∀ v ∈ vs, P v) : FailsAs Q (m.runLet scope vs) := by
  cases vs with
  | nil => exact keeps.raise _
  | cons bindings forms =>
      obtain ⟨bound, _⟩ := List.forall_mem_cons.mp fine
      exact proper_bind (keeps.elements _ bound) fun items each =>
        failsAs_bind (failsAs_mapM fun v member => keeps.binding (each v member)) fun _ =>
        failsAs_bind (failsAs_total fun _ => ⟨_, _, rfl⟩) fun inner =>
        failsAs_bind (failsAs_total fun w => ⟨_, _, m.reserve_run inner _ w⟩) fun _ =>
        failsAs_bind (keeps.bindAll _) fun _ => (keeps.eval _ inner).failsAs

theorem runEval : FailsAs Q (m.runEval scope vs) := by
  unfold Machine.runEval
  split
  · exact failsAs_bind (keeps.eval _ scope).failsAs fun code => (keeps.eval code scope).failsAs
  · exact keeps.raise _

-- The payload is the value of an expression, so that it can be shown.
theorem runError : FailsAs Q (m.runError scope vs) := by
  unfold Machine.runError
  split
  · exact proper_bind (keeps.eval _ scope) fun payload fine => failsAs_bind (keeps.text fine) fun _ => keeps.raise _
  · exact keeps.raise _

theorem runForm (k : Keyword) (fine : ∀ v ∈ vs, P v) : FailsAs Q (m.runForm k vs scope) := by
  cases k with
  | quote => exact keeps.runQuote
  | define => exact keeps.runDefine fine
  | lambda => exact keeps.runLambda fine
  | ifElse => exact keeps.runIf
  | cond => exact keeps.runCond fine
  | letIn => exact keeps.runLet fine
  | eval => exact keeps.runEval
  | error => exact keeps.runError
  | begin => exact failsAs_bind (failsAs_total fun w => ⟨_, _, m.reserve_run scope _ w⟩) fun _ => keeps.sequence _ _

theorem applyClosure (fine : P v) (formals : List String) (body : Value) (captured : Nat) :
    FailsAs Q (m.applyClosure v formals body captured vs) := by
  unfold Machine.applyClosure
  by_cases many : formals.length < vs.length
  · rw [if_pos many]
    exact keeps.complaint _ (keeps.text fine)
  · rw [if_neg many]
    refine failsAs_bind (failsAs_total fun _ => ⟨_, _, rfl⟩) fun inner =>
      failsAs_bind (failsAs_total fun _ => ⟨_, _, rfl⟩) fun _ => proper_bind (keeps.note _) fun _ _ => ?_
    by_cases few : vs.length < formals.length
    · rw [if_pos few]
      exact failsAs_total fun _ => ⟨_, _, rfl⟩
    · rw [if_neg few]
      exact (keeps.eval body inner).failsAs

theorem apply (proc : Value) (args : List Value) : FailsAs Q (m.apply proc args) := by
  refine proper_bind (keeps.note _) fun _ noted => ?_
  have values : ∀ v ∈ proc :: args, P v := noted
  obtain ⟨first, others⟩ := List.forall_mem_cons.mp values
  split
  · exact keeps.applyClosure first _ _ _
  · exact keeps.callBuiltin _ others
  · exact keeps.complaint _ (keeps.text first)

theorem runCall (head : Value) {rest : Value} (fine : P rest) : FailsAs Q (m.runCall head rest scope) :=
  failsAs_bind (keeps.eval head scope).failsAs fun proc => proper_bind (keeps.elements _ fine) fun _ _ =>
    failsAs_bind (failsAs_mapM fun arg _ => (keeps.eval arg scope).failsAs) fun _ => keeps.apply proc _

theorem run (fine : P v) : FailsAs Q (m.run v scope) := by
  cases v with
  | sym name => exact keeps.lookup name
  | pair head rest =>
      obtain ⟨_, others⟩ := keeps.pair fine
      cases head with
      | sym name =>
          cases known : Keyword.ofName? name with
          | none =>
              simp only [Machine.run, known]
              exact keeps.runCall _ others
          | some k =>
              rw [run_form known]
              exact proper_bind (keeps.elements _ others) fun args each => keeps.runForm k each
      | _ => exact keeps.runCall _ others
  | _ => exact failsAs_pure

theorem step (expr : Value) (scope : Nat) : Proper Q P (m.step expr scope) := by
  refine proper_bind (keeps.note _) fun _ begun => ?_
  refine failsAs_bind (failsAs_total fun _ => ⟨_, _, rfl⟩) fun older => ?_
  refine failsAs_bind (keeps.run (begun expr List.mem_cons_self)) fun v => ?_
  exact proper_bind (keeps.note _) fun _ ended => proper_pure (ended v (by simp [Moment.values]))

end Keeps

end Machine

theorem evaluate_proper {mode : Mode ρ} {P : Value → Prop} {Q : Failure → Prop} (keeps : mode.Keeps P Q)
    (depth : Nat) (expr : Value) (scope : Nat) : Eval.Proper Q P (evaluate mode depth expr scope) := by
  induction depth generalizing expr scope with
  | zero => exact Eval.proper_throw keeps.tooDeep
  | succ depth ih =>
      have inside : (Machine.ofDepth mode depth).Keeps P Q := ⟨keeps, ih⟩
      exact inside.step expr scope

-- Watches that nothing goes on with a value that cannot be written.
def Mode.guarded : Mode Empty where
  watch _ moment _ := if moment.values.any Value.overlong then .error .tooDeep else .ok none
  reserve := true

theorem Mode.guarded_keeps : Mode.guarded.Keeps Value.Clear fun f => ∀ e, f ≠ .numeral e where
  error _ _ := Failure.noConfusion
  tooDeep _ := Failure.noConfusion
  pair := Value.clear_pair
  writes := by
    intro v depth o clear found
    have free := clear.obstacle depth
    rw [found] at free
    cases o with
    | tooLong => exact absurd rfl free
    | tooDeep => exact fun _ => Failure.noConfusion
  watch := by
    intro depth moment store
    unfold Mode.guarded
    by_cases long : moment.values.any Value.overlong
    · simp only [if_pos long]
      exact fun _ => Failure.noConfusion
    · simp only [if_neg long]
      intro v member
      cases wide : v.overlong with
      | false => exact wide
      | true => exact absurd (List.any_eq_true.mpr ⟨v, member, wide⟩) long

theorem Mode.keeps_written (mode : Mode ρ) :
    mode.Keeps (fun _ => True) fun f => ∀ e, f = .numeral e → e = .tooLongToWrite where
  error _ _ never := nomatch never
  tooDeep _ never := nomatch never
  pair _ := ⟨trivial, trivial⟩
  writes := by
    intro v depth o _ _ e same
    cases o <;> cases same
    rfl
  watch := by
    intro depth moment store
    cases mode.watch depth moment store with
    | ok report => exact fun _ _ => trivial
    | error o =>
        intro e same
        cases o <;> cases same
        rfl

theorem Eval.failure_some {x : Eval ρ α} {w : World ρ} {f : Failure} :
    x.failure? w = some f ↔ ∃ u, x w = .error f u := by
  unfold failure?
  cases x w <;> simp

theorem evalText_keeps {mode : Mode ρ} {P : Value → Prop} {Q : Failure → Prop} (keeps : mode.Keeps P Q)
    {depth : Nat} {code : String} {program : Value} (parsed : Reader.parse depth code = .ok program) {w : World ρ}
    {f : Failure} (failed : (evalText mode depth code).failure? w = some f) : Q f ∧ f ≠ .tooDeep := by
  obtain ⟨u, ran⟩ := Eval.failure_some.mp failed
  have run : evalText mode depth code w = (evaluate mode depth program 0).recover w := by
    rw [evalText, parsed]
    rfl
  rw [run, Eval.recover_run] at ran
  have ended := evaluate_proper keeps depth program 0 w
  generalize evaluate mode depth program 0 w = r at ended ran
  cases r with
  | ok v u => cases ran
  | error e u =>
      cases ran
      cases e with
      | tooDeep => exact ⟨keeps.error _, Failure.noConfusion⟩
      | error e => exact ⟨ended, Failure.noConfusion⟩
      | numeral e => exact ⟨ended, Failure.noConfusion⟩

theorem evalText_failure {mode : Mode ρ} {depth : Nat} {code : String} {program : Value}
    (parsed : Reader.parse depth code = .ok program) {w : World ρ} {f : Failure}
    (failed : (evalText mode depth code).failure? w = some f) :
    (∃ e, f = .error e) ∨ f = .numeral .tooLongToWrite := by
  obtain ⟨written, shallow⟩ := evalText_keeps mode.keeps_written parsed failed
  cases f with
  | error e => exact .inl ⟨e, rfl⟩
  | numeral e => exact .inr (congrArg Failure.numeral (written e rfl))
  | tooDeep => exact absurd rfl shallow

def Store.Overlong (s : Store) (depth : Nat) (code : String) : Prop :=
  ∃ r ∈ s.moments depth code, ∃ v ∈ r.moment.values, v.overlong = true

-- Where the watched run stops, the other goes on with a value that cannot be written.
def Lockstep.guarded : Lockstep Mode.guarded (Mode.program false).recorded where
  trace _ _ := True
  stops _ _ records := ∃ r ∈ records, ∃ v ∈ r.moment.values, v.overlong = true
  later := fun _ ⟨r, member, long⟩ => ⟨r, List.mem_cons_of_mem _ member, long⟩
  reserve := rfl
  note := by
    intro moment store depth₁ depth₂ trace₁ trace₂ _ _
    have recorded : (Mode.program false).recorded.watch depth₂ moment store = .ok (some ⟨moment, store, none⟩) := rfl
    rw [recorded, Mode.guarded]
    by_cases long : moment.values.any Value.overlong
    · simp only [if_pos long]
      exact ⟨_, List.mem_cons_self, List.any_eq_true.mp long⟩
    · simp only [if_neg long]

theorem recorded_overlong {depth : Nat} {code : String} {program : Value} (parsed : Reader.parse depth code = .ok program)
    {s : Store} {e : Text.NumeralError}
    (failed : (evalText (Mode.program false).recorded depth code).failure? ⟨s, []⟩ = some (.numeral e)) :
    s.Overlong depth code := by
  obtain ⟨u, ran⟩ := Eval.failure_some.mp failed
  have together := (Lockstep.evalText_follows (L := .guarded) id depth code).agrees ⟨s, []⟩ ⟨s, []⟩ ⟨rfl, trivial⟩
  obtain ⟨r, guarded⟩ : ∃ r, evalText Mode.guarded depth code ⟨s, []⟩ = r := ⟨_, rfl⟩
  rw [guarded, ran] at together
  rw [Store.Overlong, Store.moments_reports, ran]
  cases together with
  | error _ _ =>
      have plain := evalText_keeps Mode.guarded_keeps parsed (Eval.failure_some.mpr ⟨_, guarded⟩)
      exact absurd rfl (plain.1 e)
  | stopped found =>
      obtain ⟨r, member, long⟩ := found
      exact ⟨r, List.mem_reverse.mpr member, long⟩

theorem Moment.overlong_values {moment : Moment} (long : moment.overlong = true) :
    ∃ v ∈ moment.values, v.overlong = true := by
  cases moment with
  | begins expr scope => exact ⟨expr, List.mem_cons_self, long⟩
  | applies proc args =>
      have either : (proc :: args).any Value.overlong = true := long
      exact List.any_eq_true.mp either
  | binds _ _ _ => cases long
  | ends _ _ _ _ => cases long

theorem quiet_overlong {depth : Nat} {code : String} {program : Value} (parsed : Reader.parse depth code = .ok program)
    {w : World String} {e : Text.NumeralError}
    (failed : (evalText (.program false) depth code).failure? w = some (.numeral e)) : w.store.Overlong depth code :=
  recorded_overlong parsed ((Eval.failure_outcome (recorded_outcome depth code w)).symm.trans failed)

theorem traced_overlong {depth : Nat} {code : String} {program : Value} (parsed : Reader.parse depth code = .ok program)
    {w : World String} {e : Text.NumeralError}
    (failed : (evalText (.program true) depth code).failure? w = some (.numeral e)) : w.store.Overlong depth code := by
  have within : (evalText (.program true) depth code).WithinLimit w := by
    unfold Eval.WithinLimit Eval.Fits
    rw [failed]
    exact ⟨nofun, nofun⟩
  cases evalText_traces within with
  | stopped cut _ long _ =>
      exact ⟨_, cut ▸ List.mem_append_right _ List.mem_cons_self, Moment.overlong_values long⟩
  | through _ same =>
      exact quiet_overlong parsed ((Eval.failure_outcome (Eval.outcome_printing same)).symm.trans failed)

/-- A text that cannot be read ends as the reader does, with nothing done: it is no program, or it nests too deep, or it
has a numeral that is too long. A text that can be read ends with a value or with an error of the program, unless its
run comes to an integer that is too long to be written; exhausted depth is always an error of the program there. -/
theorem failures_belong_to_program (verbose : Bool) (depth : Nat) (code : String) (w : World String) :
    let answer := evalText (.program verbose) depth code
    (∀ f, Reader.parse depth code = .error f →
      answer w = .error f w ∧ Reader.Refused depth (Reader.tokensIn code).tokens f) ∧
    (∀ program, Reader.parse depth code = .ok program → ∀ f, answer.failure? w = some f →
      (∃ e, f = .error e) ∨ f = .numeral .tooLongToWrite ∧ w.store.Overlong depth code) := by
  intro answer
  refine ⟨fun f refused => ⟨?_, Reader.parse_refused refused⟩, fun program parsed f failed => ?_⟩
  · change evalText (.program verbose) depth code w = .error f w
    rw [evalText, refused]
    rfl
  · obtain ours | rfl := evalText_failure parsed failed
    · exact .inl ours
    · refine .inr ⟨rfl, ?_⟩
      cases verbose with
      | false => exact quiet_overlong parsed failed
      | true => exact traced_overlong parsed failed

-- A payload of 65537 digits.
theorem long_payload :
    let code := "(define t (lambda (f x) (f (f x)))) (error ((t (t t) (lambda (n) (* n n))) 10))"
    (evalText (.program false) Settings.defaultRecursionLimit code).failure? (World.start : World String) =
      some (.numeral .tooLongToWrite) := by decide +kernel

-- One parenthesis more than may be open, and a payload that is too long to be shown.
theorem failures_belong_to_program_beyond :
    let depth := Settings.defaultRecursionLimit
    let deep := String.ofList (List.replicate (depth + 1) '(')
    let long := "(define t (lambda (f x) (f (f x)))) (error ((t (t t) (lambda (n) (* n n))) 10))"
    (evalText (.program false) depth deep World.start = .error .tooDeep (World.start : World String) ∧
      Reader.Refused depth (Reader.tokensIn deep).tokens .tooDeep) ∧
    (evalText (.program false) depth long).failure? (World.start : World String) = some (.numeral .tooLongToWrite) ∧
      (World.start : World String).store.Overlong depth long := by
  intro depth deep long
  have run := failures_belong_to_program false depth long World.start
  refine ⟨(failures_belong_to_program false depth deep World.start).1 _ (Reader.parse_openings depth), long_payload, ?_⟩
  cases parsed : Reader.parse depth long with
  | error f =>
      obtain ⟨answered, refused⟩ := run.1 f parsed
      obtain rfl : f = .numeral .tooLongToWrite :=
        Option.some.inj ((Eval.failure_some.mpr ⟨_, answered⟩).symm.trans long_payload)
      cases refused
  | ok program =>
      obtain ⟨e, never⟩ | ⟨_, found⟩ := run.2 program parsed _ long_payload
      · cases never
      · exact found

-- Not every failure is an error of the program: the payload of the first text may already be too long to be shown.
theorem failures_beyond_program :
    ¬ ∀ (verbose : Bool) (steps : List (Bool × String)) (code : String) (f : Failure),
      (evalText (.program verbose) Settings.defaultRecursionLimit code).failure?
        (session Settings.defaultRecursionLimit (toggled steps) World.start) = some f → ∃ e, f = .error e := by
  intro closed
  obtain ⟨e, never⟩ := closed false [] _ _ long_payload
  cases never

end CurriedLisp
