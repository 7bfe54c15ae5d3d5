import CurriedLisp.Proofs.Eval.Reply
import CurriedLisp.Proofs.Scope.Growth

set_option autoImplicit false

/-!
Runs that are alike up to a renaming of scopes and closures. A `Simulation` says how the stores of two quiet runs
are related, which names may still be unassigned in the two scopes that are running, and which failures count as
alike or are excused; the relation has to survive the elementary steps. Then two runs of expressions that are
alike, in scopes that stand for each other, have outcomes that are alike.
-/

namespace CurriedLisp

variable {ρ₁ ρ₂ α β α' β' : Type}

structure Simulation where
  reserve₁ : Bool
  reserve₂ : Bool
  -- Holds of a renaming, the names that may be unassigned in the running scopes, these scopes, and the stores.
  rel : Renaming → List String → Nat → Nat → Store → Store → Prop
  alike : Failure → Failure → Prop
  excused₁ : Failure → Prop
  excused₂ : Failure → Prop
  refl : ∀ f, alike f f
  raised : ∀ {R : Renaming} {v w : Value}, v.Alike R w → alike (.error (.raised v)) (.error (.raised w))
  running : ∀ {R p s t σ τ}, rel R p s t σ τ → R.scopes s t
  weaken : ∀ {R p q s t σ τ}, p ⊆ q → rel R p s t σ τ → rel R q s t σ τ
  lookup : ∀ {R p s t σ τ} name, rel R p s t σ τ →
    match σ.lookup s name, τ.lookup t name with
    | .ok v, .ok w => v.Alike R w
    | .error e, .error f => alike (.error e) (.error f) ∨ excused₁ (.error e)
    | .error e, .ok _ => excused₁ (.error e)
    | .ok _, .error _ => False
  define : ∀ {R p s t σ τ v w} name, rel R p s t σ τ → v.Alike R w →
    rel R (p.filter (· ≠ name)) s t (σ.define s name v) (τ.define t name w)
  reserve : ∀ {R p s t σ τ} name, rel R p s t σ τ →
    rel R (name :: p) s t (if reserve₁ then σ.reserve s name else σ) (if reserve₂ then τ.reserve t name else τ)
  closure : ∀ {R p s t σ τ}, rel R p s t σ τ →
    ∃ R' : Renaming, Growth R σ τ R' σ.addClosure τ.addClosure ∧ R'.closures σ.closures τ.closures ∧
      rel R' p s t σ.addClosure τ.addClosure
  enter : ∀ {R p s t σ τ c d}, rel R p s t σ τ → R.scopes c d →
    ∃ R' : Renaming, Growth R σ τ R' (σ.addScope (some c)) (τ.addScope (some d)) ∧
      rel R' [] σ.scopes.size τ.scopes.size (σ.addScope (some c)) (τ.addScope (some d))
  leave : ∀ {R R' p s t σ τ σ' τ'}, rel R p s t σ τ → Growth R σ τ R' σ' τ' →
    rel R' [] σ.scopes.size τ.scopes.size σ' τ' → σ.Kept σ' → τ.Kept τ' → rel R' p s t σ' τ'
  abandon : ∀ {R R' p q s t σ τ σ' τ'}, rel R p s t σ τ → Growth R σ τ R' σ' τ' →
    rel R' q σ.scopes.size τ.scopes.size σ' τ' → σ.Kept σ' → τ.Kept τ' →
      ∃ R'' : Renaming, Growth R σ τ R'' σ' τ' ∧ rel R'' p s t σ' τ'

-- The names that evaluating the forms leaves without a value.
def Machine.leftUndefined (forms : List Value) (names : List String) : List String :=
  names.filter (· ∉ definedNames forms)

theorem Machine.leftUndefined_cons (form : Value) (rest : List Value) (names : List String) :
    leftUndefined (form :: rest) names = leftUndefined rest (leftUndefined [form] names) := by
  have split : definedNames ([form] ++ rest) = definedNames [form] ++ definedNames rest := List.filterMap_append
  rw [List.singleton_append] at split
  unfold leftUndefined
  rw [split, List.filter_filter]
  refine List.filter_congr fun name _ => ?_
  simp [and_comm]

theorem Machine.note_quiet {ρ : Type} {m : Machine ρ} {reserve : Bool} (quiet : m.mode = .quiet reserve)
    (moment : Moment) : m.note moment = pure () := by
  unfold note
  rw [quiet]
  rfl

theorem Machine.reserve_run {ρ : Type} (m : Machine ρ) (scope : Nat) (names : List String) (w : World ρ) :
    m.reserve scope names w =
      .ok () { w with store := if m.mode.reserve then names.foldl (·.reserve scope) w.store else w.store } := by
  unfold reserve
  cases m.mode.reserve <;> rfl

theorem Machine.step_quiet {ρ : Type} {m : Machine ρ} {reserve : Bool} (quiet : m.mode = .quiet reserve)
    (expr : Value) (scope : Nat) : m.step expr scope = m.run expr scope := by
  funext w
  unfold step
  simp only [note_quiet quiet, pure_bind, bind_pure]
  exact Eval.store_bind _ w

theorem Machine.run_form {ρ : Type} {m : Machine ρ} {name : String} {k : Keyword}
    (known : Keyword.ofName? name = some k) (rest : Value) (scope : Nat) :
    m.run (.pair (.sym name) rest) scope =
      m.elements (name ++ " form") rest >>= fun args => m.runForm k args scope := by
  simp only [run, known]

theorem Machine.elements_list {ρ : Type} (m : Machine ρ) (what : String) {v : Value} (list : v.isList = true) :
    m.elements what v = pure v.items := by
  simp only [elements, Value.toList?, list, if_pos]

theorem Machine.elements_ofList {ρ : Type} (m : Machine ρ) (what : String) (items : List Value) :
    m.elements what (.ofList items) = pure items := by
  rw [m.elements_list what (Value.isList_ofList items), Value.items_ofList]

theorem Machine.ofDepth_quiet {ρ : Type} (reserve : Bool) (depth : Nat) :
    (ofDepth (.quiet reserve) depth : Machine ρ).mode = .quiet reserve := rfl

theorem evaluate_form {ρ : Type} (reserve : Bool) (depth : Nat) {name : String} {k : Keyword}
    (known : Keyword.ofName? name = some k) (args : List Value) (scope : Nat) :
    (evaluate (.quiet reserve) (depth + 1) (.ofList (.sym name :: args)) scope : Eval ρ Value) =
      (Machine.ofDepth (.quiet reserve) depth).runForm k args scope := by
  change (Machine.ofDepth (.quiet reserve) depth).step (.pair (.sym name) (.ofList args)) scope = _
  rw [Machine.step_quiet (Machine.ofDepth_quiet reserve depth), Machine.run_form known, Machine.elements_ofList,
    pure_bind]

theorem Machine.run_call {ρ : Type} {m : Machine ρ} {head : Value}
    (ordinary : ∀ name, head = .sym name → Keyword.ofName? name = none) (rest : Value) (scope : Nat) :
    m.run (.pair head rest) scope = m.runCall head rest scope := by
  cases head with
  | sym name => simp only [run, ordinary name rfl]
  | _ => rfl

namespace Simulation

variable (S : Simulation)

-- How two runs end that began with the stores `σ` and `τ` and renaming `R`; on success the names of `q` may be
-- unassigned.
inductive Outcome (R : Renaming) (q : List String) (s t : Nat) (same : Renaming → α → β → Prop) (σ τ : Store) :
    EStateM.Result Failure (World ρ₁) α → EStateM.Result Failure (World ρ₂) β → Prop where
  | ok {a b w₁ w₂ R'} : Growth R σ τ R' w₁.store w₂.store → S.rel R' q s t w₁.store w₂.store → same R' a b →
      Outcome R q s t same σ τ (.ok a w₁) (.ok b w₂)
  | error {f g w₁ w₂ R' p} : Growth R σ τ R' w₁.store w₂.store → S.rel R' p s t w₁.store w₂.store → S.alike f g →
      Outcome R q s t same σ τ (.error f w₁) (.error g w₂)
  | excused₁ {f w r} : S.excused₁ f → Outcome R q s t same σ τ (.error f w) r
  | excused₂ {g w r} : S.excused₂ g → Outcome R q s t same σ τ r (.error g w)

def Matches (R : Renaming) (p q : List String) (s t : Nat) (same : Renaming → α → β → Prop) (x : Eval ρ₁ α)
    (y : Eval ρ₂ β) : Prop :=
  ∀ w₁ w₂, S.rel R p s t w₁.store w₂.store → S.Outcome R q s t same w₁.store w₂.store (x w₁) (y w₂)

-- Depths with which two runs go alike, or excuse each other when one of them is exhausted.
def Depths (d e : Nat) : Prop := d = e ∨ S.excused₁ .tooDeep ∧ S.excused₂ .tooDeep

variable {S} {R : Renaming} {p q r : List String} {s t : Nat} {same : Renaming → α → β → Prop}
  {same' : Renaming → α' → β' → Prop}

theorem outcome_growth {R' : Renaming} {σ τ σ' τ' : Store} {r₁ : EStateM.Result Failure (World ρ₁) α}
    {r₂ : EStateM.Result Failure (World ρ₂) β} (growth : Growth R σ τ R' σ' τ')
    (outcome : S.Outcome R' q s t same σ' τ' r₁ r₂) : S.Outcome R q s t same σ τ r₁ r₂ := by
  cases outcome with
  | ok more related alike => exact .ok (growth.trans more) related alike
  | error more related alike => exact .error (growth.trans more) related alike
  | excused₁ excuse => exact .excused₁ excuse
  | excused₂ excuse => exact .excused₂ excuse

theorem matches_pure {a : α} {b : β} (alike : same R a b) :
    S.Matches R p p s t same (pure a : Eval ρ₁ α) (pure b : Eval ρ₂ β) :=
  fun _ _ related => .ok .refl related alike

theorem matches_throw {f g : Failure} (alike : S.alike f g) :
    S.Matches R p q s t same (throw f : Eval ρ₁ α) (throw g : Eval ρ₂ β) :=
  fun _ _ related => .error .refl related alike

theorem matches_raise (e : Error) :
    S.Matches R p q s t same (Eval.raise e : Eval ρ₁ α) (Eval.raise e : Eval ρ₂ β) :=
  matches_throw (S.refl _)

theorem matches_bind {x : Eval ρ₁ α} {y : Eval ρ₂ β} {f : α → Eval ρ₁ α'} {g : β → Eval ρ₂ β'}
    (first : S.Matches R p q s t same x y)
    (rest : ∀ R' a b, R.Within R' → same R' a b → S.Matches R' q r s t same' (f a) (g b)) :
    S.Matches R p r s t same' (x >>= f) (y >>= g) := by
  intro w₁ w₂ related
  have step := first w₁ w₂ related
  simp only [bind, EStateM.bind]
  generalize x w₁ = r₁, y w₂ = r₂ at step ⊢
  cases step with
  | ok growth next alike => exact outcome_growth growth (rest _ _ _ growth.within alike _ _ next)
  | error growth next alike => exact .error growth next alike
  | excused₁ excuse => exact .excused₁ excuse
  | excused₂ excuse => exact .excused₂ excuse

theorem matches_weaken {x : Eval ρ₁ α} {y : Eval ρ₂ β} (fewer : q ⊆ r) (run : S.Matches R p q s t same x y) :
    S.Matches R p r s t same x y := by
  intro w₁ w₂ related
  have outcome := run w₁ w₂ related
  generalize x w₁ = r₁, y w₂ = r₂ at outcome ⊢
  cases outcome with
  | ok growth next alike => exact .ok growth (S.weaken fewer next) alike
  | error growth next alike => exact .error growth next alike
  | excused₁ excuse => exact .excused₁ excuse
  | excused₂ excuse => exact .excused₂ excuse

theorem matches_running {x : Eval ρ₁ α} {y : Eval ρ₂ β} (run : R.scopes s t → S.Matches R p q s t same x y) :
    S.Matches R p q s t same x y :=
  fun w₁ w₂ related => run (S.running related) w₁ w₂ related

theorem matches_mapM {γ γ' : Type} {given : Renaming → γ → γ' → Prop} {f : γ → Eval ρ₁ α} {g : γ' → Eval ρ₂ β}
    (mono : ∀ {R R'} a b, R.Within R' → given R a b → given R' a b)
    (kept : ∀ {R R'} a b, R.Within R' → same R a b → same R' a b)
    (each : ∀ R' a b, R.Within R' → given R' a b → S.Matches R' p p s t same (f a) (g b)) {as : List γ}
    {bs : List γ'} (alike : List.Forall₂ (given R) as bs) :
    S.Matches R p p s t (fun R' => List.Forall₂ (same R')) (as.mapM f) (bs.mapM g) := by
  induction as generalizing bs R with
  | nil =>
      cases alike
      exact matches_pure .nil
  | cons a as ih =>
      cases alike with
      | cons first rest =>
          rw [List.mapM_cons, List.mapM_cons]
          refine matches_bind (each R _ _ R.within_refl first) fun R' v w within alike => ?_
          refine matches_bind (ih (fun R'' a b more => each R'' a b (R.within_trans within more))
            (rest.imp fun a b => mono a b within)) fun R'' vs ws within' alikes => ?_
          exact matches_pure (.cons (kept v w within' alike) alikes)

theorem matches_ofRender (r : Nat → Except Obstacle String) {d e : Nat} (depths : S.Depths d e)
    (agree : r d = .error .tooDeep ∨ r e = .error .tooDeep ∨ r d = r e) :
    S.Matches R p p s t (fun _ => Eq) (Eval.ofRender (r d) : Eval ρ₁ String)
      (Eval.ofRender (r e) : Eval ρ₂ String) := by
  have equal : S.Matches R p p s t (fun _ => Eq) (Eval.ofRender (r d) : Eval ρ₁ String)
      (Eval.ofRender (r d) : Eval ρ₂ String) := by
    cases r d with
    | ok shown => exact matches_pure rfl
    | error o => exact matches_throw (S.refl _)
  obtain rfl | ⟨excuse₁, excuse₂⟩ := depths
  · exact equal
  · obtain deep | deep | same := agree
    · rw [deep]
      exact fun _ _ _ => .excused₁ excuse₁
    · rw [deep]
      exact fun _ _ _ => .excused₂ excuse₂
    · rw [← same]
      exact equal

theorem matches_lookup (name : String) :
    S.Matches R p p s t Value.Alike (Eval.lookup s name : Eval ρ₁ Value) (Eval.lookup t name : Eval ρ₂ Value) := by
  intro w₁ w₂ related
  have found := S.lookup name related
  rw [Eval.lookup_run, Eval.lookup_run]
  generalize w₁.store.lookup s name = a, w₂.store.lookup t name = b at found
  cases a with
  | ok v =>
      cases b with
      | ok w => exact .ok .refl related found
      | error f => exact found.elim
  | error e =>
      cases b with
      | ok w => exact .excused₁ found
      | error f =>
          obtain alike | excuse := found
          · exact .error .refl related alike
          · exact .excused₁ excuse

theorem matches_define {v w : Value} (name : String) (alike : v.Alike R w) :
    S.Matches R p (p.filter (· ≠ name)) s t (fun _ => Eq) (Eval.define s name v : Eval ρ₁ Unit)
      (Eval.define t name w : Eval ρ₂ Unit) :=
  fun _ _ related => .ok (.steady (Store.define_extent _ _ _ _) (Store.define_extent _ _ _ _))
    (S.define name related alike) rfl

theorem matches_newClosure {body body' : Value} (formals : List String) (alike : body.Alike R body') :
    S.Matches R p p s t Value.Alike (Eval.newClosure formals body s : Eval ρ₁ Value)
      (Eval.newClosure formals body' t : Eval ρ₂ Value) := by
  intro w₁ w₂ related
  obtain ⟨R', growth, made, next⟩ := S.closure related
  exact .ok growth next (.closure formals made (S.running next) (alike.mono growth.within))

theorem rel_reserve {σ τ : Store} (names : List String) (related : S.rel R p s t σ τ) :
    S.rel R (names ++ p) s t (if S.reserve₁ then names.foldl (·.reserve s) σ else σ)
      (if S.reserve₂ then names.foldl (·.reserve t) τ else τ) := by
  induction names generalizing σ τ p with
  | nil => simpa using related
  | cons name rest ih =>
      have first := ih (S.reserve name related)
      refine S.weaken (p := rest ++ name :: p) (fun n member => ?_) ?_
      · simpa only [List.mem_append, List.mem_cons, List.cons_append, or_left_comm] using member
      · cases left : S.reserve₁ <;> cases right : S.reserve₂ <;> simpa [left, right] using first

theorem rel_defineAll {σ τ : Store} {vs ws : List Value} (formals : List String)
    (args : List.Forall₂ (Value.Alike R) vs ws) (related : S.rel R [] s t σ τ) :
    S.rel R [] s t ((formals.zip vs).foldl (fun s' (name, v) => s'.define s name v) σ)
      ((formals.zip ws).foldl (fun s' (name, v) => s'.define t name v) τ) := by
  induction args generalizing formals σ τ with
  | nil => simpa using related
  | cons first _ ih =>
      cases formals with
      | nil => exact related
      | cons name rest => exact ih rest (S.define name related first)

theorem matches_defineAll {vs ws : List Value} (formals : List String)
    (args : List.Forall₂ (Value.Alike R) vs ws) :
    S.Matches R [] [] s t (fun _ => Eq) (Machine.defineAll s (formals.zip vs) : Eval ρ₁ Unit)
      (Machine.defineAll t (formals.zip ws) : Eval ρ₂ Unit) :=
  fun _ _ related => .ok (.steady (Store.defineAll_extent _ _ _) (Store.defineAll_extent _ _ _))
    (rel_defineAll formals args related) rfl

theorem matches_newScope (mode₁ : Mode ρ₁) (mode₂ : Mode ρ₂) {c d : Nat} {f : Nat → Eval ρ₁ α}
    {g : Nat → Eval ρ₂ β} (captured : R.scopes c d)
    (inner₁ : ∀ scope w, (Evolution.frame mode₁).Admits scope w (f scope))
    (inner₂ : ∀ scope w, (Evolution.frame mode₂).Admits scope w (g scope))
    (run : ∀ R' a b, R.Within R' → S.Matches R' [] [] a b same (f a) (g b)) :
    S.Matches R p p s t same (Eval.newScope (some c) >>= f) (Eval.newScope (some d) >>= g) := by
  intro w₁ w₂ related
  obtain ⟨R', growth, entered⟩ := S.enter related captured
  have ran := run R' _ _ growth.within (w₁.addScope (some c)) (w₂.addScope (some d)) entered
  have kept₁ : w₁.store.Kept ((f w₁.store.scopes.size).after (w₁.addScope (some c))).store :=
    newScope_kept mode₁ (some c) inner₁ w₁
  have kept₂ : w₂.store.Kept ((g w₂.store.scopes.size).after (w₂.addScope (some d))).store :=
    newScope_kept mode₂ (some d) inner₂ w₂
  change S.Outcome R p s t same w₁.store w₂.store (f w₁.store.scopes.size (w₁.addScope (some c)))
    (g w₂.store.scopes.size (w₂.addScope (some d)))
  simp only [Eval.after] at kept₁ kept₂
  generalize f w₁.store.scopes.size (w₁.addScope (some c)) = r₁,
    g w₂.store.scopes.size (w₂.addScope (some d)) = r₂ at ran kept₁ kept₂ ⊢
  cases ran with
  | ok more next alike =>
      have wider := growth.trans more
      exact .ok wider (S.leave related wider next kept₁ kept₂) alike
  | error more next alike =>
      obtain ⟨R'', wider, final⟩ := S.abandon related (growth.trans more) next kept₁ kept₂
      exact .error wider final alike
  | excused₁ excuse => exact .excused₁ excuse
  | excused₂ excuse => exact .excused₂ excuse

structure Pair (S : Simulation) (m₁ : Machine ρ₁) (m₂ : Machine ρ₂) : Prop where
  mode₁ : m₁.mode = .quiet S.reserve₁
  mode₂ : m₂.mode = .quiet S.reserve₂
  depths : S.Depths m₁.depth m₂.depth
  frame₁ : ∀ expr scope w, (Evolution.frame m₁.mode).rel scope w ((m₁.eval expr scope).after w)
  frame₂ : ∀ expr scope w, (Evolution.frame m₂.mode).rel scope w ((m₂.eval expr scope).after w)
  eval : ∀ {R p s t v w}, v.Alike R w →
    S.Matches R p (Machine.leftUndefined [v] p) s t Value.Alike (m₁.eval v s) (m₂.eval w t)

section Machine

variable {m₁ : Machine ρ₁} {m₂ : Machine ρ₂} (pair : S.Pair m₁ m₂) {v w : Value} {vs ws : List Value}

section Written

variable (depths : S.Depths m₁.depth m₂.depth)

include depths

theorem matches_text (alike : v.Alike R w) : S.Matches R p p s t (fun _ => Eq) (m₁.text v) (m₂.text w) := by
  unfold Machine.text
  rw [← alike.render]
  exact matches_ofRender (v.render ·) depths (v.render_agree m₁.depth m₂.depth)

theorem matches_label (alike : v.Alike R w) : S.Matches R p p s t (fun _ => Eq) (m₁.label v) (m₂.label w) := by
  unfold Machine.label
  rw [← alike.renderLabel]
  exact matches_ofRender (v.renderLabel ·) depths (v.render_label_agree m₁.depth m₂.depth)

omit depths in
theorem matches_complaint {x : Eval ρ₁ String} {y : Eval ρ₂ String} (e : String → Error)
    (shown : S.Matches R p p s t (fun _ => Eq) x y) :
    S.Matches R p q s t same (x >>= fun shown => Eval.raise (e shown)) (y >>= fun shown => Eval.raise (e shown)) := by
  refine matches_bind shown fun R' a b _ equal => ?_
  rw [equal]
  exact matches_raise _

theorem matches_elements (what : String) (alike : v.Alike R w) :
    S.Matches R p p s t (fun R' xs ys => xs = v.items ∧ List.Forall₂ (Value.Alike R') xs ys)
      (m₁.elements what v) (m₂.elements what w) := by
  unfold Machine.elements Value.toList?
  rw [← alike.isList]
  cases v.isList with
  | false => exact matches_complaint _ (matches_label depths alike)
  | true => exact matches_pure ⟨rfl, alike.items⟩

theorem matches_formal (alike : v.Alike R w) :
    S.Matches R p p s t (fun _ => Eq) (m₁.formal v) (m₂.formal w) := by
  have shown := matches_label (p := p) (s := s) (t := t) depths alike
  cases alike with
  | sym name => exact matches_pure rfl
  | _ => exact matches_complaint _ shown

def BindingAlike (R : Renaming) (a b : String × Value) : Prop := a.1 = b.1 ∧ a.2.Alike R b.2

omit depths in
theorem BindingAlike.mono {R' : Renaming} {a b : String × Value} (alike : BindingAlike R a b)
    (within : R.Within R') : BindingAlike R' a b := ⟨alike.1, alike.2.mono within⟩

theorem matches_binding (alike : v.Alike R w) :
    S.Matches R p p s t BindingAlike (m₁.binding v) (m₂.binding w) := by
  refine matches_bind (matches_elements depths _ alike) fun R' xs ys _ parts => ?_
  rcases parts.2 with _ | ⟨target, _ | ⟨expr, _ | _⟩⟩
  · exact matches_raise _
  · cases target <;> exact matches_raise _
  · have shown := matches_label (p := p) (s := s) (t := t) depths target
    cases target with
    | sym name => exact matches_pure ⟨rfl, expr⟩
    | _ => exact matches_complaint _ shown
  · cases target <;> exact matches_raise _

theorem matches_reply (operation : String) {a b : Except Complaint Value}
    (replied : Primitive.Replies R (Value.Alike R) a b) :
    S.Matches R p p s t Value.Alike (m₁.reply operation a) (m₂.reply operation b) := by
  cases replied with
  | ok alike => exact matches_pure alike
  | error complaint =>
      cases complaint with
      | notNumber alike => exact matches_complaint _ (matches_text depths alike)
      | notPair alike => exact matches_complaint _ (matches_text depths alike)
      | tooDeep => exact matches_throw (S.refl _)
      | exactly | atLeast | divisionByZero => exact matches_raise _

theorem matches_callBuiltin (key : String) (args : List.Forall₂ (Value.Alike R) vs ws) :
    S.Matches R p p s t Value.Alike (m₁.callBuiltin key vs) (m₂.callBuiltin key ws) := by
  unfold Machine.callBuiltin
  cases Primitive.ofKey? key with
  | none => exact matches_raise _
  | some primitive =>
      have replied := primitive.replies_call m₁.depth args
      obtain same | ⟨excuse₁, excuse₂⟩ := depths
      · rw [← same]
        exact matches_reply (.inl same) key replied
      · obtain deep | deep | same := primitive.call_agree m₁.depth m₂.depth ws
        · rw [deep] at replied
          simp only [Primitive.replies_tooDeep replied]
          exact fun _ _ _ => .excused₁ excuse₁
        · simp only [deep]
          exact fun _ _ _ => .excused₂ excuse₂
        · rw [same] at replied
          exact matches_reply (.inr ⟨excuse₁, excuse₂⟩) key replied

end Written

include pair

theorem matches_eval (alike : v.Alike R w) : S.Matches R p p s t Value.Alike (m₁.eval v s) (m₂.eval w t) :=
  matches_weaken (q := Machine.leftUndefined [v] p) (List.filter_subset_self _) (pair.eval alike)

theorem matches_sequence (last : v.Alike R w) (forms : List.Forall₂ (Value.Alike R) vs ws) :
    S.Matches R p (Machine.leftUndefined vs p) s t Value.Alike (m₁.sequence s v vs) (m₂.sequence t w ws) := by
  induction vs generalizing ws v w R p with
  | nil =>
      cases forms
      exact matches_weaken (by simp [Machine.leftUndefined, Machine.definedNames]) (matches_pure last)
  | cons form rest ih =>
      cases forms with
      | cons first rest' =>
          rw [Machine.leftUndefined_cons]
          exact matches_bind (pair.eval first) fun R' a b within value => ih value (Value.Alike.list_mono within rest')

theorem matches_reserve (names : List String) :
    S.Matches R p (names ++ p) s t (fun _ => Eq) (m₁.reserve s names) (m₂.reserve t names) := by
  intro w₁ w₂ related
  rw [Machine.reserve_run, Machine.reserve_run, pair.mode₁, pair.mode₂]
  exact .ok (.steady (Store.reserveIf_extent _ _ _ _) (Store.reserveIf_extent _ _ _ _)) (rel_reserve names related) rfl

theorem matches_bindAll {as bs : List (String × Value)} (bindings : List.Forall₂ (BindingAlike R) as bs) :
    S.Matches R p (p.filter (· ∉ as.map (·.1))) s t (fun _ => Eq) (m₁.bindAll s as) (m₂.bindAll t bs) := by
  induction as generalizing bs R p with
  | nil =>
      cases bindings
      exact matches_weaken (by simp) (matches_pure rfl)
  | cons a rest ih =>
      cases bindings with
      | cons first rest' =>
          rename_i b bs
          obtain ⟨name, expr⟩ := a
          obtain ⟨other, expr'⟩ := b
          obtain ⟨rfl, alike⟩ := first
          refine matches_bind (matches_eval pair alike) fun R' v w within value =>
            matches_bind (matches_define _ value) fun R'' _ _ more _ => matches_weaken ?_
              (ih (rest'.imp fun _ _ binding => binding.mono (R.within_trans within more)))
          intro n member
          simpa [and_comm, and_assoc] using member

theorem matches_runDefine (q : List String) (args : List.Forall₂ (Value.Alike R) vs ws)
    (fewer : ∀ name expr, vs = [.sym name, expr] → p.filter (· ≠ name) ⊆ q) :
    S.Matches R p q s t Value.Alike (m₁.runDefine s vs) (m₂.runDefine t ws) := by
  rcases args with _ | ⟨target, _ | ⟨expr, _ | _⟩⟩
  · exact matches_raise _
  · cases target <;> exact matches_raise _
  · have shown := matches_label (p := p) (s := s) (t := t) pair.depths target
    cases target with
    | sym name =>
        refine matches_bind (matches_eval pair expr) fun R' v w within value =>
          matches_bind (matches_define name value) fun R'' _ _ more _ => matches_weaken (fewer name _ rfl) ?_
        exact matches_pure (value.mono more)
    | _ => exact matches_complaint _ shown
  · cases target <;> exact matches_raise _

theorem matches_runLambda (args : List.Forall₂ (Value.Alike R) vs ws) :
    S.Matches R p p s t Value.Alike (m₁.runLambda s vs) (m₂.runLambda t ws) := by
  cases args with
  | nil => exact matches_raise _
  | cons parameters forms =>
      refine matches_bind (matches_elements pair.depths _ parameters) fun R' xs ys within listed => ?_
      refine matches_bind (matches_mapM (fun _ _ more alike => alike.mono more) (fun _ _ _ equal => equal)
        (fun R'' a b _ alike => matches_formal pair.depths alike) listed.2) fun R'' names names' more equal => ?_
      obtain rfl : names = names' := List.forall₂_eq_eq_eq ▸ equal
      split
      · exact matches_newClosure names
          (Value.Alike.body (Value.Alike.list_mono (R.within_trans within more) forms))
      · exact matches_raise _

theorem matches_runIf (args : List.Forall₂ (Value.Alike R) vs ws) :
    S.Matches R p p s t Value.Alike (m₁.runIf s vs) (m₂.runIf t ws) := by
  rcases args with _ | ⟨test, _ | ⟨yes, _ | ⟨no, _ | _⟩⟩⟩
  · exact matches_raise _
  · exact matches_raise _
  · refine matches_bind (matches_eval pair test) fun R' v w within value => ?_
    rw [value.isTrue]
    split
    · exact matches_eval pair (yes.mono within)
    · exact matches_pure .nil
  · refine matches_bind (matches_eval pair test) fun R' v w within value => ?_
    rw [value.isTrue]
    split
    · exact matches_eval pair (yes.mono within)
    · exact matches_eval pair (no.mono within)
  · exact matches_raise _

theorem matches_test (alike : v.Alike R w) : S.Matches R p p s t Value.Alike (m₁.test s v) (m₂.test t w) := by
  unfold Machine.test
  by_cases isElse : v = .sym "else"
  · rw [if_pos isElse, if_pos (alike.eq_sym_iff.mp isElse)]
    exact matches_pure (.bool true)
  · rw [if_neg isElse, if_neg fun other => isElse (alike.eq_sym_iff.mpr other)]
    exact matches_eval pair alike

theorem matches_runCond (clauses : List.Forall₂ (Value.Alike R) vs ws) :
    S.Matches R p p s t Value.Alike (m₁.runCond s vs) (m₂.runCond t ws) := by
  induction vs generalizing ws R with
  | nil =>
      cases clauses
      exact matches_raise _
  | cons clause rest ih =>
      cases clauses with
      | cons first rest' =>
          refine matches_bind (matches_elements pair.depths _ first) fun R' xs ys within listed => ?_
          rcases listed.2 with _ | ⟨test, results⟩
          · exact matches_raise _
          · refine matches_bind (matches_test pair test) fun R'' v w more value => ?_
            rw [value.isTrue]
            split
            · exact matches_weaken (List.filter_subset_self _)
                (matches_sequence pair value (Value.Alike.list_mono more results))
            · exact ih (Value.Alike.list_mono (R.within_trans within more) rest')

theorem matches_runEval (args : List.Forall₂ (Value.Alike R) vs ws) :
    S.Matches R p p s t Value.Alike (m₁.runEval s vs) (m₂.runEval t ws) := by
  rcases args with _ | ⟨expr, _ | _⟩
  · exact matches_raise _
  · exact matches_bind (matches_eval pair expr) fun _ _ _ _ code => matches_eval pair code
  · exact matches_raise _

theorem matches_runError (args : List.Forall₂ (Value.Alike R) vs ws) :
    S.Matches R p p s t Value.Alike (m₁.runError s vs) (m₂.runError t ws) := by
  rcases args with _ | ⟨expr, _ | _⟩
  · exact matches_raise _
  · refine matches_bind (matches_eval pair expr) fun R' v w _ payload =>
      matches_bind (matches_text pair.depths payload) fun R'' _ _ more _ => ?_
    exact matches_throw (S.raised (payload.mono more))
  · exact matches_raise _

theorem matches_runBegin (forms : List.Forall₂ (Value.Alike R) vs ws) :
    S.Matches R p p s t Value.Alike (m₁.runBegin s vs) (m₂.runBegin t ws) := by
  unfold Machine.runBegin
  rw [← Value.Alike.definedNames forms]
  refine matches_bind (matches_reserve pair _) fun R' _ _ within _ =>
    matches_weaken ?_ (matches_sequence pair .nil (Value.Alike.list_mono within forms))
  intro name member
  simp only [Machine.leftUndefined, List.mem_filter, List.mem_append, decide_not, Bool.not_eq_true',
    decide_eq_false_iff_not] at member
  exact member.1.resolve_left member.2

theorem matches_runLet (args : List.Forall₂ (Value.Alike R) vs ws) :
    S.Matches R p p s t Value.Alike (m₁.runLet s vs) (m₂.runLet t ws) := by
  cases args with
  | nil => exact matches_raise _
  | cons bindings forms =>
      refine matches_bind (matches_elements pair.depths _ bindings) fun R₁ xs ys within₁ listed => ?_
      refine matches_bind (matches_mapM (fun _ _ more alike => alike.mono more)
        (fun _ _ more alike => alike.mono more) (fun _ _ _ _ alike => matches_binding pair.depths alike)
        listed.2) fun R₂ as bs within₂ bindings => ?_
      have names : as.map (·.1) = bs.map (·.1) := by
        induction bindings with
        | nil => rfl
        | cons first _ ih => rw [List.map_cons, List.map_cons, first.1, ih]
      refine matches_running fun running => matches_newScope m₁.mode m₂.mode running
        (fun _ _ => Evolution.admits_block pair.frame₁ _ _ _) (fun _ _ => Evolution.admits_block pair.frame₂ _ _ _)
        fun R₃ a b within₃ => ?_
      rw [← names]
      refine matches_bind (matches_reserve pair _) fun R₄ _ _ within₄ _ => ?_
      have kept := R₂.within_trans within₃ within₄
      refine matches_bind (matches_bindAll pair
        (bindings.imp fun _ _ alike => alike.mono kept)) fun R₅ _ _ within₅ _ => ?_
      exact matches_weaken (by simp) (matches_eval pair (Value.Alike.body (Value.Alike.list_mono
        (R.within_trans within₁ (R₁.within_trans within₂ (R₂.within_trans kept within₅))) forms)))

theorem matches_applyClosure {body body' : Value} {c d : Nat} (alike : v.Alike R w) (formals : List String)
    (bodies : body.Alike R body') (captured : R.scopes c d) (args : List.Forall₂ (Value.Alike R) vs ws) :
    S.Matches R p p s t Value.Alike (m₁.applyClosure v formals body c vs) (m₂.applyClosure w formals body' d ws) := by
  unfold Machine.applyClosure
  rw [← args.length_eq]
  by_cases many : formals.length < vs.length
  · rw [if_pos many, if_pos many]
    exact matches_complaint _ (matches_text pair.depths alike)
  · rw [if_neg many, if_neg many]
    by_cases few : vs.length < formals.length
    · simp only [Machine.note_quiet pair.mode₁, Machine.note_quiet pair.mode₂, if_pos few]
      refine matches_newScope m₁.mode m₂.mode captured
        (fun _ _ => Evolution.admits_bind (Evolution.admits_defineAll _) fun _ => Evolution.admits_bind
          (Evolution.admits_pure _) fun _ => Evolution.admits_newClosure _ _ _)
        (fun _ _ => Evolution.admits_bind (Evolution.admits_defineAll _) fun _ => Evolution.admits_bind
          (Evolution.admits_pure _) fun _ => Evolution.admits_newClosure _ _ _)
        fun R' a b within => ?_
      refine matches_bind (matches_defineAll formals (Value.Alike.list_mono within args)) fun R₂ _ _ within₂ _ => ?_
      exact matches_newClosure _ (bodies.mono (R.within_trans within within₂))
    · simp only [Machine.note_quiet pair.mode₁, Machine.note_quiet pair.mode₂, if_neg few]
      refine matches_newScope m₁.mode m₂.mode captured
        (fun _ _ => Evolution.admits_bind (Evolution.admits_defineAll _) fun _ => Evolution.admits_bind
          (Evolution.admits_pure _) fun _ => Evolution.admits_eval pair.frame₁ _)
        (fun _ _ => Evolution.admits_bind (Evolution.admits_defineAll _) fun _ => Evolution.admits_bind
          (Evolution.admits_pure _) fun _ => Evolution.admits_eval pair.frame₂ _)
        fun R' a b within => ?_
      refine matches_bind (matches_defineAll formals (Value.Alike.list_mono within args)) fun R₂ _ _ within₂ _ => ?_
      exact matches_eval pair (bodies.mono (R.within_trans within within₂))

theorem matches_apply (alike : v.Alike R w) (args : List.Forall₂ (Value.Alike R) vs ws) :
    S.Matches R p p s t Value.Alike (m₁.apply v vs) (m₂.apply w ws) := by
  unfold Machine.apply
  rw [Machine.note_quiet pair.mode₁, Machine.note_quiet pair.mode₂, pure_bind, pure_bind]
  have shown := matches_text (p := p) (s := s) (t := t) pair.depths alike
  cases alike with
  | closure formals ids scopes body =>
      exact matches_applyClosure pair (.closure formals ids scopes body) formals body scopes args
  | builtin key => exact matches_callBuiltin pair.depths key args
  | _ => exact matches_complaint _ shown

theorem matches_runCall {a b c d : Value} (head : a.Alike R c) (rest : b.Alike R d) :
    S.Matches R p p s t Value.Alike (m₁.runCall a b s) (m₂.runCall c d t) := by
  refine matches_bind (matches_eval pair head) fun R₁ v w within₁ proc => ?_
  refine matches_bind (matches_elements pair.depths _ (rest.mono within₁)) fun R₂ xs ys within₂ listed => ?_
  refine matches_bind (matches_mapM (fun _ _ more alike => alike.mono more) (fun _ _ more alike => alike.mono more)
    (fun _ _ _ _ alike => matches_eval pair alike) listed.2) fun R₃ vs ws within₃ args => ?_
  exact matches_apply pair (proc.mono (R₁.within_trans within₂ within₃)) args

theorem matches_runForm (k : Keyword) (q : List String) (args : List.Forall₂ (Value.Alike R) vs ws)
    (fewer : k ≠ .define → p ⊆ q)
    (defined : ∀ name expr, k = .define → vs = [.sym name, expr] → p.filter (· ≠ name) ⊆ q) :
    S.Matches R p q s t Value.Alike (m₁.runForm k vs s) (m₂.runForm k ws t) := by
  cases k with
  | quote =>
      refine matches_weaken (fewer (by decide)) ?_
      rcases args with _ | ⟨first, _ | _⟩
      · exact matches_raise _
      · exact matches_pure first
      · exact matches_raise _
  | define => exact matches_runDefine pair q args fun name expr shape => defined name expr rfl shape
  | lambda => exact matches_weaken (fewer (by decide)) (matches_runLambda pair args)
  | ifElse => exact matches_weaken (fewer (by decide)) (matches_runIf pair args)
  | cond => exact matches_weaken (fewer (by decide)) (matches_runCond pair args)
  | letIn => exact matches_weaken (fewer (by decide)) (matches_runLet pair args)
  | eval => exact matches_weaken (fewer (by decide)) (matches_runEval pair args)
  | error => exact matches_weaken (fewer (by decide)) (matches_runError pair args)
  | begin => exact matches_weaken (fewer (by decide)) (matches_runBegin pair args)

theorem matches_run (alike : v.Alike R w) :
    S.Matches R p (Machine.leftUndefined [v] p) s t Value.Alike (m₁.run v s) (m₂.run w t) := by
  have others (none : Machine.definedName? v = none) : Machine.leftUndefined [v] p = p := by
    simp [Machine.leftUndefined, Machine.definedNames, none]
  cases alike with
  | sym name =>
      rw [others rfl]
      exact matches_lookup name
  | @pair head rest head' rest' first second =>
      by_cases keyword : ∃ name k, head = .sym name ∧ Keyword.ofName? name = some k
      · obtain ⟨name, k, rfl, known⟩ := keyword
        cases first
        rw [Machine.run_form known, Machine.run_form known]
        refine matches_bind (matches_elements pair.depths _ second) fun R' xs ys _ listed => ?_
        have named := Keyword.name_of_ofName known
        refine matches_runForm pair k _ listed.2 (fun other => ?_) fun target expr isDefine shape => ?_
        · rw [others (Machine.definedName_other (fun same => ?_) rest)]
          · exact List.Subset.refl p
          · rw [same] at known
            cases known
            exact other rfl
        · subst isDefine
          obtain rfl : name = "define" := named.symm
          -- The arguments are the items of the tail, so the first of them is the name that the form defines.
          have defines : Machine.definedName? (.pair (.sym "define") rest) = some target := by
            have items := listed.1.symm.trans shape
            cases rest with
            | pair first _ =>
                obtain rfl : first = .sym target := (List.cons.inj items).1
                rfl
            | _ => cases items
          simp [Machine.leftUndefined, Machine.definedNames, defines]
      · have ordinary : ∀ name, head = .sym name → Keyword.ofName? name = none := by
          intro name isName
          by_contra known
          obtain ⟨k, known⟩ := Option.ne_none_iff_exists'.mp known
          exact keyword ⟨name, k, isName, known⟩
        have undefining : Machine.definedName? (.pair head rest) = none := by
          cases head with
          | sym name =>
              refine Machine.definedName_other (fun same => ?_) rest
              have free := ordinary name rfl
              rw [same] at free
              cases free
          | _ => rfl
        rw [others undefining, Machine.run_call ordinary,
          Machine.run_call fun name isName => ordinary name (first.eq_sym_iff.mpr isName)]
        exact matches_runCall pair first second
  | closure formals ids scopes body =>
      rw [others rfl]
      exact matches_pure (.closure formals ids scopes body)
  | _ =>
      rw [others rfl]
      exact matches_pure (by constructor)

theorem matches_step (alike : v.Alike R w) :
    S.Matches R p (Machine.leftUndefined [v] p) s t Value.Alike (m₁.step v s) (m₂.step w t) := by
  rw [Machine.step_quiet pair.mode₁, Machine.step_quiet pair.mode₂]
  exact matches_run pair alike

end Machine

theorem evaluate_matches (S : Simulation) {depth₁ depth₂ : Nat} (depths : S.Depths depth₁ depth₂) {R : Renaming}
    {p : List String} {s t : Nat} {v w : Value} (alike : v.Alike R w) :
    S.Matches R p (Machine.leftUndefined [v] p) s t Value.Alike
      (evaluate (.quiet S.reserve₁) depth₁ v s : Eval ρ₁ Value)
      (evaluate (.quiet S.reserve₂) depth₂ w t : Eval ρ₂ Value) := by
  induction depth₁ generalizing depth₂ R p s t v w with
  | zero =>
      obtain rfl | ⟨excuse, _⟩ := depths
      · exact matches_throw (S.refl _)
      · exact fun _ _ _ => .excused₁ excuse
  | succ d ih =>
      cases depth₂ with
      | zero =>
          obtain ⟨_, excuse⟩ := depths.resolve_left (Nat.succ_ne_zero d)
          exact fun _ _ _ => .excused₂ excuse
      | succ e =>
          have inner : S.Depths d e := depths.imp_left Nat.succ.inj
          have pair : S.Pair (.ofDepth (.quiet S.reserve₁) d : Machine ρ₁)
              (.ofDepth (.quiet S.reserve₂) e : Machine ρ₂) :=
            ⟨rfl, rfl, inner, (Evolution.frame _).evaluate_rel d, (Evolution.frame _).evaluate_rel e,
              fun alike => ih inner alike⟩
          exact matches_step pair alike

theorem ofDepth_pair (S : Simulation) {depth₁ depth₂ : Nat} (depths : S.Depths depth₁ depth₂) :
    S.Pair (.ofDepth (.quiet S.reserve₁) depth₁ : Machine ρ₁) (.ofDepth (.quiet S.reserve₂) depth₂ : Machine ρ₂) :=
  ⟨rfl, rfl, depths, (Evolution.frame _).evaluate_rel depth₁, (Evolution.frame _).evaluate_rel depth₂,
    fun alike => evaluate_matches S depths alike⟩

end Simulation

end CurriedLisp
