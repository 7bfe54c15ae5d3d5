import CurriedLisp.Proofs.Eval.Change
import CurriedLisp.Proofs.Reader.Refusal
import CurriedLisp.Proofs.Reader.RoundTrip
import CurriedLisp.Proofs.Scope.Wellformed

set_option autoImplicit false

namespace CurriedLisp

variable {ρ α β : Type}

namespace Primitive

def Yields (post : α → Prop) (x : Except Complaint α) : Prop := ∀ a, x = .ok a → post a

theorem yields_bind {post : β → Prop} {x : Except Complaint α} {f : α → Except Complaint β}
    (rest : ∀ a, x = .ok a → Yields post (f a)) : Yields post (x >>= f) := by
  cases x with
  | error c => exact fun b never => by cases never
  | ok a => exact rest a rfl

theorem yields_ok {post : α → Prop} {a : α} (fine : post a) : Yields post (.ok a) := by
  rintro b ⟨⟩
  exact fine

theorem yields_error {post : α → Prop} {c : Complaint} : Yields post (.error c) := by
  rintro b ⟨⟩

theorem one_ok {args : List Value} {v : Value} (found : one args = .ok v) : args = [v] := by
  unfold one at found
  split at found
  · cases found
    rfl
  · cases found

theorem two_ok {args : List Value} {v w : Value} (found : two args = .ok (v, w)) : args = [v, w] := by
  unfold two at found
  split at found
  · cases found
    rfl
  · cases found

theorem onePair_ok {args : List Value} {v w : Value} (found : onePair args = .ok (v, w)) : args = [.pair v w] := by
  unfold onePair at found
  cases given : one args with
  | error c =>
      rw [given] at found
      cases found
  | ok a =>
      rw [given] at found
      cases a with
      | pair first second =>
          cases found
          exact one_ok given
      | _ => cases found

theorem call_wellformed (p : Primitive) (depth : Nat) {s : Store} {args : List Value}
    (fine : ∀ arg ∈ args, arg.Wellformed s) : Yields (Value.Wellformed s) (p.call depth args) := by
  cases p with
  | add | mul => exact yields_bind fun _ _ => yields_ok trivial
  | sub =>
      rcases args with _ | ⟨a, _ | ⟨b, rest⟩⟩
      · exact yields_error
      · exact yields_bind fun _ _ => yields_ok trivial
      · exact yields_bind fun _ _ => yields_bind fun _ _ => yields_ok trivial
  | div =>
      rcases args with _ | ⟨a, _ | ⟨b, rest⟩⟩
      · exact yields_error
      · exact yields_error
      · exact yields_bind fun _ _ => yields_bind fun _ _ => yields_bind fun _ _ => yields_ok trivial
  | mod => exact yields_bind fun _ _ => yields_bind fun _ _ => yields_ok trivial
  | equalNumbers | less | greater => exact yields_bind fun _ _ => yields_ok trivial
  | cons =>
      refine yields_bind fun a given => yields_ok ?_
      obtain rfl := two_ok given
      exact ⟨fine a.1 (by simp), fine a.2 (by simp)⟩
  | head =>
      refine yields_bind fun a given => yields_ok ?_
      obtain rfl := onePair_ok given
      exact (fine _ List.mem_cons_self).1
  | tail =>
      refine yields_bind fun a given => yields_ok ?_
      obtain rfl := onePair_ok given
      exact (fine _ List.mem_cons_self).2
  | list => exact yields_ok (Value.Wellformed.ofList fine)
  | isNil | not => exact yields_bind fun _ _ => yields_ok trivial
  | equal => exact yields_bind fun _ _ => yields_bind fun _ _ => yields_ok trivial

end Primitive

def Failure.Wellformed (s : Store) : Failure → Prop
  | .error (.raised v) => v.Wellformed s
  | .error (.unknownBuiltin _) => False
  | _ => True

def Moment.Wellformed (s : Store) : Moment → Prop
  | .begins expr scope => expr.Wellformed s ∧ scope < s.scopes.size
  | .applies proc args => proc.Wellformed s ∧ ∀ arg ∈ args, arg.Wellformed s
  | .binds _ args scope => (∀ arg ∈ args, arg.Wellformed s) ∧ scope < s.scopes.size
  | .ends expr scope _ v => expr.Wellformed s ∧ scope < s.scopes.size ∧ v.Wellformed s

-- What is true of the reports of a run, latest first, and stays true as the store grows.
structure Account (ρ : Type) where
  keeps : Store → List ρ → Prop
  mono : ∀ {s t : Store} {trace : List ρ}, s.Grows t → keeps s trace → keeps t trace

def Account.nothing : Account ρ := ⟨fun _ _ => True, fun _ _ => trivial⟩

def Mode.Tells (mode : Mode ρ) (account : Account ρ) : Prop :=
  ∀ depth moment s trace report, moment.Wellformed s → s.Wellformed → account.keeps s trace →
    mode.watch depth moment s = .ok (some report) → account.keeps s (report :: trace)

theorem Mode.tells_nothing (mode : Mode ρ) : mode.Tells .nothing := fun _ _ _ _ _ _ _ _ _ => trivial

structure World.Wellformed (account : Account ρ) (w : World ρ) : Prop where
  store : w.store.Wellformed
  trace : account.keeps w.store w.trace

-- How a run ends that began in `s` or in a later store.
inductive Lands (account : Account ρ) (s : Store) (post : Store → α → Prop) :
    EStateM.Result Failure (World ρ) α → Prop where
  | ok {a : α} {w : World ρ} : s.Grows w.store → w.Wellformed account → post w.store a → Lands account s post (.ok a w)
  | error {f : Failure} {w : World ρ} : s.Grows w.store → w.Wellformed account → f.Wellformed w.store →
      Lands account s post (.error f w)

def Eval.Safe (account : Account ρ) (s : Store) (post : Store → α → Prop) (x : Eval ρ α) : Prop :=
  ∀ w, s.Grows w.store → w.Wellformed account → Lands account s post (x w)

theorem Lands.weaken {account : Account ρ} {s t : Store} {post : Store → α → Prop}
    {r : EStateM.Result Failure (World ρ) α} (grows : s.Grows t) (lands : Lands account t post r) :
    Lands account s post r := by
  cases lands with
  | ok more fine here => exact .ok (s.grows_trans grows more) fine here
  | error more fine here => exact .error (s.grows_trans grows more) fine here

theorem Moment.Wellformed.mono {s t : Store} {moment : Moment} (grows : s.Grows t) (fine : moment.Wellformed s) :
    moment.Wellformed t := by
  cases moment with
  | begins expr scope => exact ⟨fine.1.mono grows, grows.present fine.2⟩
  | applies proc args => exact ⟨fine.1.mono grows, fun arg member => (fine.2 arg member).mono grows⟩
  | binds formals args scope =>
      exact ⟨fun arg member => (fine.1 arg member).mono grows, grows.present fine.2⟩
  | ends expr scope older v =>
      exact ⟨fine.1.mono grows, grows.present fine.2.1, fine.2.2.mono grows⟩

namespace Eval

variable {account : Account ρ} {s : Store} {post : Store → α → Prop} {post' : Store → β → Prop} {scope : Nat}

theorem safe_pure {a : α} (here : ∀ t, s.Grows t → post t a) : Safe account s post (pure a) :=
  fun w grows fine => .ok grows fine (here w.store grows)

theorem safe_throw {f : Failure} (fine : ∀ t, s.Grows t → f.Wellformed t) :
    Safe account s post (throw f : Eval ρ α) :=
  fun w grows well => .error grows well (fine w.store grows)

theorem safe_raise {e : Error} (fine : ∀ t, s.Grows t → Failure.Wellformed t (.error e)) :
    Safe account s post (raise e : Eval ρ α) := safe_throw fine

theorem safe_bind {x : Eval ρ α} {f : α → Eval ρ β} (first : Safe account s post x)
    (rest : ∀ t a, s.Grows t → post t a → Safe account t post' (f a)) : Safe account s post' (x >>= f) := by
  intro w grows fine
  have step := first w grows fine
  simp only [bind, EStateM.bind]
  generalize x w = r at step ⊢
  cases step with
  | ok more next here => exact (rest _ _ more here _ (Store.grows_refl _) next).weaken more
  | error more next here => exact .error more next here

theorem safe_mapM {f : α → Eval ρ β} (mono : ∀ {t u b}, t.Grows u → post' t b → post' u b) {as : List α}
    (each : ∀ a ∈ as, ∀ t, s.Grows t → Safe account t post' (f a)) :
    Safe account s (fun t bs => ∀ b ∈ bs, post' t b) (as.mapM f) := by
  induction as generalizing s with
  | nil => exact safe_pure fun _ _ b member => (List.not_mem_nil member).elim
  | cons a rest ih =>
      rw [List.mapM_cons]
      refine safe_bind (each a List.mem_cons_self s (Store.grows_refl s)) fun t b grows first => ?_
      refine safe_bind (ih fun a member u more =>
        each a (List.mem_cons_of_mem _ member) u (Store.grows_trans grows more)) fun u bs more others => ?_
      refine safe_pure fun v last b member => ?_
      rcases List.mem_cons.mp member with rfl | inside
      · exact mono (Store.grows_trans more last) first
      · exact mono last (others b inside)

theorem safe_ofRender (r : Except Obstacle String) : Safe account s (fun _ _ => True) (ofRender r : Eval ρ String) := by
  cases r with
  | ok shown => exact safe_pure fun _ _ => trivial
  | error o =>
      refine safe_throw fun t _ => ?_
      cases o <;> trivial

theorem safe_store : Safe account s (fun _ _ => True) (store : Eval ρ Store) :=
  fun _ grows fine => .ok grows fine trivial

theorem safe_lookup (scope : Nat) (name : String) :
    Safe account s Value.Wellformed (lookup scope name : Eval ρ Value) := by
  intro w grows fine
  rw [lookup_run]
  cases found : w.store.lookup scope name with
  | ok v => exact .ok grows fine (Store.lookup_wellformed fine.store found)
  | error e =>
      refine .error grows fine ?_
      rw [Store.lookup_cell] at found
      split at found <;> cases found <;> trivial

theorem safe_define {name : String} {v : Value} (fine : v.Wellformed s) :
    Safe account s (fun _ _ => True) (define scope name v : Eval ρ Unit) := by
  intro w grows well
  have inside := fine.mono grows
  exact .ok (Store.grows_trans grows (Store.define_grows (.inl inside.assigned)))
    ⟨Store.define_wellformed well.store (.inr inside), account.mono (Store.define_grows (.inl inside.assigned)) well.trace⟩
    trivial

theorem safe_newClosure {formals : List String} {body : Value} (distinct : formals.Nodup) (fine : body.Wellformed s)
    (present : scope < s.scopes.size) :
    Safe account s Value.Wellformed (newClosure formals body scope : Eval ρ Value) := by
  intro w grows well
  have next := w.store.addClosure_grows
  exact .ok (Store.grows_trans grows next) ⟨Store.addClosure_wellformed well.store, account.mono next well.trace⟩
    ⟨Nat.lt_succ_self _, grows.present present, distinct, fine.mono (Store.grows_trans grows next)⟩

theorem safe_newScope {captured : Nat} {f : Nat → Eval ρ α} (present : captured < s.scopes.size)
    (run : ∀ t inner, s.Grows t → inner < t.scopes.size → Safe account t post (f inner)) :
    Safe account s post (newScope (some captured) >>= f) := by
  intro w grows well
  have next := w.store.addScope_grows (some captured)
  have here := Store.addScope_wellformed well.store (grows.present present)
  exact (run _ w.store.scopes.size (Store.grows_trans grows next) (by rw [Store.addScope_size]; omega)
    (w.addScope (some captured)) (Store.grows_refl _) ⟨here, account.mono next well.trace⟩).weaken (Store.grows_trans grows next)

end Eval

namespace Machine

open Eval

variable {account : Account ρ} {m : Machine ρ} {s : Store} {scope : Nat} {v : Value} {vs : List Value}

theorem safe_text (v : Value) : Safe account s (fun _ _ => True) (m.text v) := safe_ofRender _

theorem safe_label (v : Value) : Safe account s (fun _ _ => True) (m.label v) := safe_ofRender _

theorem safe_complaint {post : Store → α → Prop} {x : Eval ρ String} (e : String → Error)
    (shown : Safe account s (fun _ _ => True) x) (fine : ∀ t text, Failure.Wellformed t (.error (e text))) :
    Safe account s post (x >>= fun text => raise (e text)) :=
  safe_bind shown fun _ text _ _ => safe_raise fun t _ => fine t text

theorem safe_note (tells : m.mode.Tells account) {moment : Moment} (fine : moment.Wellformed s) :
    Safe account s (fun _ _ => True) (m.note moment) := by
  intro w grows well
  rw [note_run]
  cases seen : m.mode.watch m.depth moment w.store with
  | error o => exact .error grows well (by cases o <;> trivial)
  | ok report =>
      cases report with
      | none => exact .ok grows well trivial
      | some report =>
          exact .ok grows ⟨well.store, tells _ _ _ _ _ (fine.mono grows) well.store well.trace seen⟩ trivial

theorem safe_elements (what : String) (fine : v.Wellformed s) :
    Safe account s (fun t items => ∀ item ∈ items, item.Wellformed t) (m.elements what v) := by
  unfold elements Value.toList?
  split
  · rename_i items listed
    split at listed
    · cases listed
      exact safe_pure fun t grows item member => (fine.items item member).mono grows
    · cases listed
  · exact safe_complaint _ (safe_label v) fun _ _ => trivial

theorem safe_reserve (names : List String) : Safe account s (fun _ _ => True) (m.reserve scope names) := by
  unfold reserve
  split
  · intro w grows well
    obtain ⟨next, fine⟩ := Store.reserveAll_safe scope names well.store
    exact .ok (Store.grows_trans grows next) ⟨fine, account.mono next well.trace⟩ trivial
  · exact safe_pure fun _ _ => trivial

theorem safe_defineAll (names : List String) (fine : ∀ v ∈ vs, v.Wellformed s) :
    Safe account s (fun _ _ => True) (defineAll scope (names.zip vs) : Eval ρ Unit) := by
  intro w grows well
  obtain ⟨next, after⟩ := Store.defineAll_safe scope names well.store fun v member =>
    (fine v member).mono grows
  exact .ok (Store.grows_trans grows next) ⟨after, account.mono next well.trace⟩ trivial

theorem safe_reply (operation : String) {r : Except Complaint Value} (fine : ∀ v, r = .ok v → v.Wellformed s) :
    Safe account s Value.Wellformed (m.reply operation r) := by
  cases r with
  | ok v => exact safe_pure fun t grows => (fine v rfl).mono grows
  | error c =>
      cases c with
      | notNumber v => exact safe_complaint _ (safe_text v) fun _ _ => trivial
      | notPair v => exact safe_complaint _ (safe_text v) fun _ _ => trivial
      | tooDeep => exact safe_throw fun _ _ => trivial
      | exactly | atLeast | divisionByZero => exact safe_raise fun _ _ => trivial

theorem safe_callBuiltin {key : String} (known : (Primitive.ofKey? key).isSome) (fine : ∀ v ∈ vs, v.Wellformed s) :
    Safe account s Value.Wellformed (m.callBuiltin key vs) := by
  unfold callBuiltin
  split
  · rename_i unknown
    rw [unknown] at known
    cases known
  · exact safe_reply _ fun v called => Primitive.call_wellformed _ _ fine v called

variable (inside : ∀ (expr : Value) (scope : Nat) (s : Store), expr.Wellformed s → scope < s.scopes.size →
  Safe account s Value.Wellformed (m.eval expr scope))

include inside

theorem safe_sequence (last : v.Wellformed s) (forms : ∀ form ∈ vs, form.Wellformed s)
    (present : scope < s.scopes.size) : Safe account s Value.Wellformed (m.sequence scope v vs) := by
  induction vs generalizing s v with
  | nil => exact safe_pure fun t grows => last.mono grows
  | cons form rest ih =>
      refine safe_bind (inside form scope s (forms form List.mem_cons_self) present) fun t next grows fine => ?_
      exact ih fine (fun f member => (forms f (List.mem_cons_of_mem _ member)).mono grows)
        (grows.present present)

theorem safe_bindAll {bindings : List (String × Value)} (fine : ∀ b ∈ bindings, b.2.Wellformed s)
    (present : scope < s.scopes.size) : Safe account s (fun _ _ => True) (m.bindAll scope bindings) := by
  induction bindings generalizing s with
  | nil => exact safe_pure fun _ _ => trivial
  | cons binding rest ih =>
      refine safe_bind (inside binding.2 scope s (fine binding List.mem_cons_self) present) fun t v grows value =>
        safe_bind (safe_define value) fun u _ more _ => ?_
      have wider := Store.grows_trans grows more
      exact ih (fun b member => (fine b (List.mem_cons_of_mem _ member)).mono wider)
        (wider.present present)

theorem safe_runDefine (args : ∀ arg ∈ vs, arg.Wellformed s) (present : scope < s.scopes.size) :
    Safe account s Value.Wellformed (m.runDefine scope vs) := by
  unfold runDefine
  split
  · rename_i name expr
    exact safe_bind (inside expr scope s (args expr (by simp)) present) fun t v grows value =>
      safe_bind (safe_define value) fun u _ more _ => safe_pure fun _ last => value.mono (Store.grows_trans more last)
  · exact safe_complaint _ (safe_label _) fun _ _ => trivial
  · exact safe_raise fun _ _ => trivial

omit inside in
theorem safe_runLambda (args : ∀ arg ∈ vs, arg.Wellformed s) (present : scope < s.scopes.size) :
    Safe account s Value.Wellformed (m.runLambda scope vs) := by
  unfold runLambda
  split
  · exact safe_raise fun _ _ => trivial
  · rename_i parameters forms
    refine safe_bind (safe_elements _ (args parameters List.mem_cons_self)) fun t items grows _ => ?_
    have formal (v : Value) (u : Store) : Safe account u (fun _ _ => True) (m.formal v) := by
      unfold Machine.formal
      split
      · exact safe_pure fun _ _ => trivial
      · exact safe_complaint _ (safe_label _) fun _ _ => trivial
    refine safe_bind (safe_mapM (fun _ _ => trivial) fun v _ u _ => formal v u) fun u names more _ => ?_
    have wider := Store.grows_trans grows more
    split
    · rename_i distinct
      exact safe_newClosure distinct
        (.body fun form member => (args form (List.mem_cons_of_mem _ member)).mono wider)
        (wider.present present)
    · exact safe_raise fun _ _ => trivial

theorem safe_runIf (args : ∀ arg ∈ vs, arg.Wellformed s) (present : scope < s.scopes.size) :
    Safe account s Value.Wellformed (m.runIf scope vs) := by
  have branch {expr : Value} (fine : expr.Wellformed s) (t : Store) (grows : s.Grows t) :
      Safe account t Value.Wellformed (m.eval expr scope) :=
    inside expr scope t (fine.mono grows) (grows.present present)
  unfold runIf
  split
  · refine safe_bind (branch (args _ (by simp)) s s.grows_refl) fun t v grows _ => ?_
    split
    · exact branch (args _ (by simp)) t grows
    · exact safe_pure fun _ _ => trivial
  · refine safe_bind (branch (args _ (by simp)) s s.grows_refl) fun t v grows _ => ?_
    split
    · exact branch (args _ (by simp)) t grows
    · exact branch (args _ (by simp)) t grows
  · exact safe_raise fun _ _ => trivial

theorem safe_test (fine : v.Wellformed s) (present : scope < s.scopes.size) :
    Safe account s Value.Wellformed (m.test scope v) := by
  unfold test
  split
  · exact safe_pure fun _ _ => trivial
  · exact inside v scope s fine present

theorem safe_runCond (clauses : ∀ clause ∈ vs, clause.Wellformed s) (present : scope < s.scopes.size) :
    Safe account s Value.Wellformed (m.runCond scope vs) := by
  induction vs generalizing s with
  | nil => exact safe_raise fun _ _ => trivial
  | cons clause rest ih =>
      refine safe_bind (safe_elements _ (clauses clause List.mem_cons_self)) fun t parts grows fine => ?_
      cases parts with
      | nil => exact safe_raise fun _ _ => trivial
      | cons test results =>
          refine safe_bind (safe_test inside (fine test List.mem_cons_self)
            (grows.present present)) fun u v more value => ?_
          have wider := Store.grows_trans grows more
          split
          · exact safe_sequence inside value (fun r member => (fine r (List.mem_cons_of_mem _ member)).mono more)
              (wider.present present)
          · exact ih (fun c member => (clauses c (List.mem_cons_of_mem _ member)).mono wider)
              (wider.present present)

omit inside in
theorem safe_binding (fine : v.Wellformed s) :
    Safe account s (fun t (b : String × Value) => b.2.Wellformed t) (m.binding v) := by
  refine safe_bind (safe_elements _ fine) fun t parts grows inner => ?_
  split
  · exact safe_pure fun u more => (inner _ (by simp)).mono more
  · exact safe_complaint _ (safe_label _) fun _ _ => trivial
  · exact safe_raise fun _ _ => trivial

theorem safe_runLet (args : ∀ arg ∈ vs, arg.Wellformed s) (present : scope < s.scopes.size) :
    Safe account s Value.Wellformed (m.runLet scope vs) := by
  cases vs with
  | nil => exact safe_raise fun _ _ => trivial
  | cons bindings forms =>
      refine safe_bind (safe_elements _ (args bindings List.mem_cons_self)) fun t items grows listed => ?_
      refine safe_bind (safe_mapM (fun more fine => fine.mono more) fun v member u more =>
        safe_binding ((listed v member).mono more)) fun u bound more values => ?_
      have early := Store.grows_trans grows more
      refine safe_newScope (early.present present) fun x inner entered here => ?_
      refine safe_bind (safe_reserve _) fun y _ reserved _ => ?_
      have later := Store.grows_trans entered reserved
      refine safe_bind (safe_bindAll inside (fun b member => (values b member).mono later)
        (reserved.present here)) fun z _ assigned _ => ?_
      have whole := Store.grows_trans early (Store.grows_trans later assigned)
      exact inside _ _ _ (.body fun form member => (args form (List.mem_cons_of_mem _ member)).mono whole)
        ((Store.grows_trans reserved assigned).present here)

theorem safe_runForm (k : Keyword) (args : ∀ arg ∈ vs, arg.Wellformed s) (present : scope < s.scopes.size) :
    Safe account s Value.Wellformed (m.runForm k vs scope) := by
  cases k with
  | quote =>
      change Safe account s Value.Wellformed (runQuote vs)
      unfold runQuote
      split
      · exact safe_pure fun t grows => (args _ List.mem_cons_self).mono grows
      · exact safe_raise fun _ _ => trivial
  | define => exact safe_runDefine inside args present
  | lambda => exact safe_runLambda args present
  | ifElse => exact safe_runIf inside args present
  | cond => exact safe_runCond inside args present
  | letIn => exact safe_runLet inside args present
  | eval =>
      change Safe account s Value.Wellformed (m.runEval scope vs)
      unfold runEval
      split
      · exact safe_bind (inside _ scope s (args _ List.mem_cons_self) present) fun t code grows fine =>
          inside code scope t fine (grows.present present)
      · exact safe_raise fun _ _ => trivial
  | error =>
      change Safe account s Value.Wellformed (m.runError scope vs)
      unfold runError
      split
      · exact safe_bind (inside _ scope s (args _ List.mem_cons_self) present) fun t payload grows fine =>
          safe_bind (safe_text payload) fun u _ more _ => safe_raise fun x last =>
            fine.mono (Store.grows_trans more last)
      · exact safe_raise fun _ _ => trivial
  | begin =>
      exact safe_bind (safe_reserve _) fun t _ grows _ => safe_sequence inside trivial
        (fun form member => (args form member).mono grows) (grows.present present)

variable (tells : m.mode.Tells account)

include tells

theorem safe_applyClosure {closure body : Value} {formals : List String} {captured : Nat}
    (fine : ∃ id, (Value.closure id formals body captured).Wellformed s) (args : ∀ arg ∈ vs, arg.Wellformed s) :
    Safe account s Value.Wellformed (m.applyClosure closure formals body captured vs) := by
  obtain ⟨_, _, present, distinct, code⟩ := fine
  unfold applyClosure
  split
  · exact safe_complaint _ (safe_text closure) fun _ _ => trivial
  · refine safe_newScope present fun t inner grows here => ?_
    have values : ∀ v ∈ vs, v.Wellformed t := fun v member => (args v member).mono grows
    refine safe_bind (safe_defineAll formals values) fun u _ bound _ => ?_
    have entered := bound.present here
    refine safe_bind (safe_note tells ⟨fun v member => (values v member).mono bound, entered⟩) fun x _ noted _ => ?_
    have wider := Store.grows_trans grows (Store.grows_trans bound noted)
    split
    · exact safe_newClosure (distinct.sublist (List.drop_sublist _ _)) (code.mono wider)
        (noted.present entered)
    · exact inside body inner x (code.mono wider) (noted.present entered)

theorem safe_apply (proc : v.Wellformed s) (args : ∀ arg ∈ vs, arg.Wellformed s) :
    Safe account s Value.Wellformed (m.apply v vs) := by
  refine safe_bind (safe_note tells ⟨proc, args⟩) fun t _ grows _ => ?_
  have values : ∀ v ∈ vs, v.Wellformed t := fun v member => (args v member).mono grows
  cases v with
  | closure id formals body captured => exact safe_applyClosure inside tells ⟨id, proc.mono grows⟩ values
  | builtin key => exact safe_callBuiltin proc values
  | _ => exact safe_complaint _ (safe_text _) fun _ _ => trivial

theorem safe_runCall {head rest : Value} (first : head.Wellformed s) (others : rest.Wellformed s)
    (present : scope < s.scopes.size) : Safe account s Value.Wellformed (m.runCall head rest scope) := by
  refine safe_bind (inside head scope s first present) fun t proc grows procedure => ?_
  refine safe_bind (safe_elements _ (others.mono grows)) fun u args more listed => ?_
  have reached := Store.grows_trans grows more
  refine safe_bind (safe_mapM (fun next fine => fine.mono next) fun arg member x next =>
    inside arg scope x ((listed arg member).mono next)
      ((Store.grows_trans reached next).present present)) fun x vs next values => ?_
  exact safe_apply inside tells (procedure.mono (Store.grows_trans more next)) values

theorem safe_run (fine : v.Wellformed s) (present : scope < s.scopes.size) :
    Safe account s Value.Wellformed (m.run v scope) := by
  unfold run
  split
  · exact safe_lookup scope _
  · split
    · exact safe_bind (safe_elements _ fine.2) fun t args grows listed =>
        safe_runForm inside _ listed (grows.present present)
    · exact safe_runCall inside tells fine.1 fine.2 present
  · exact safe_runCall inside tells fine.1 fine.2 present
  · exact safe_pure fun t grows => fine.mono grows

theorem safe_step (fine : v.Wellformed s) (present : scope < s.scopes.size) :
    Safe account s Value.Wellformed (m.step v scope) := by
  refine safe_bind (safe_note tells ⟨fine, present⟩) fun t _ begun _ => ?_
  refine safe_bind safe_store fun u older seen _ => ?_
  have early := Store.grows_trans begun seen
  refine safe_bind (safe_run inside tells (fine.mono early) (early.present present))
    fun x value ran result => ?_
  have whole := Store.grows_trans early ran
  exact safe_bind (safe_note tells ⟨fine.mono whole, whole.present present, result⟩)
    fun y _ ended _ => safe_pure fun z last => result.mono (Store.grows_trans ended last)

end Machine

theorem evaluate_safe {mode : Mode ρ} {account : Account ρ} (tells : mode.Tells account) (depth : Nat) {expr : Value}
    {scope : Nat} {s : Store} (fine : expr.Wellformed s) (present : scope < s.scopes.size) :
    Eval.Safe account s Value.Wellformed (evaluate mode depth expr scope) := by
  induction depth generalizing expr scope s with
  | zero => exact Eval.safe_throw fun _ _ => trivial
  | succ depth ih =>
      exact Machine.safe_step (m := .ofDepth mode depth) (fun expr scope s fine present => ih fine present) tells fine
        present

namespace Reader

theorem parse_failure {depth : Nat} {text : String} {f : Failure} (failed : parse depth text = .error f) (s : Store) :
    f.Wellformed s := by
  cases parse_refused failed with
  | @syntactic e reading =>
      cases e with
      | raised _ => cases reading
      | unknownBuiltin _ => cases reading
      | _ => trivial
  | tooDeep _ => trivial
  | numeral _ _ _ => trivial

theorem Readable.wellformed {v : Value} (readable : Readable v) (s : Store) : v.Wellformed s := by
  induction readable with
  | list _ each => exact .ofList each
  | _ => trivial

end Reader

theorem evalText_safe {mode : Mode ρ} {account : Account ρ} (tells : mode.Tells account) (depth : Nat) (code : String)
    {s : Store} (present : 0 < s.scopes.size) : Eval.Safe account s Value.Wellformed (evalText mode depth code) := by
  unfold evalText
  cases parsed : Reader.parse depth code with
  | error e =>
      exact Eval.safe_throw fun t _ => Reader.parse_failure parsed t
  | ok program =>
      intro w grows fine
      have run := evaluate_safe tells depth ((Reader.parse_readable parsed).wellformed s) present w grows fine
      change Lands account s Value.Wellformed (Eval.recover (evaluate mode depth program 0) w)
      unfold Eval.recover
      generalize evaluate mode depth program 0 w = r at run ⊢
      cases run with
      | ok more well value => exact .ok more well value
      | error more well failed =>
          rename_i f u
          cases f with
          | tooDeep => exact .error more well trivial
          | _ => exact .error more well failed

theorem session_wellformed {account : Account ρ} (depth : Nat) {steps : List (Mode ρ × String)}
    (tells : ∀ step ∈ steps, step.1.Tells account) {w : World ρ} (fine : w.Wellformed account)
    (present : 0 < w.store.scopes.size) :
    (session depth steps w).Wellformed account ∧ w.store.Grows (session depth steps w).store := by
  induction steps generalizing w with
  | nil => exact ⟨fine, w.store.grows_refl⟩
  | cons step rest ih =>
      have run := evalText_safe (tells step List.mem_cons_self) depth step.2 present w w.store.grows_refl fine
      have after : ((evalText step.1 depth step.2).after w).Wellformed account ∧
          w.store.Grows ((evalText step.1 depth step.2).after w).store := by
        unfold Eval.after
        generalize evalText step.1 depth step.2 w = r at run
        cases run with
        | ok grows well _ => exact ⟨well, grows⟩
        | error grows well _ => exact ⟨well, grows⟩
      obtain ⟨well, more⟩ := ih (fun s member => tells s (List.mem_cons_of_mem _ member)) after.1
        (after.2.present present)
      exact ⟨well, Store.grows_trans after.2 more⟩

theorem session_store_wellformed (depth : Nat) (steps : List (Mode ρ × String)) :
    (session depth steps (World.start : World ρ)).store.Wellformed :=
  (session_wellformed depth (fun step _ => step.1.tells_nothing) ⟨World.start_wellformed, trivial⟩
    start_present).1.store

theorem session_sound (depth : Nat) (steps : List (Mode ρ × String)) :
    (session depth steps (World.start : World ρ)).store.Sound := (session_store_wellformed depth steps).sound

end CurriedLisp
