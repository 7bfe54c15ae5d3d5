import CurriedLisp.Proofs.Eval.Outcome
import CurriedLisp.Proofs.Eval.Wellformed
import CurriedLisp.Proofs.Reader.RoundTrip
import CurriedLisp.Proofs.Scope.Agree
import CurriedLisp.Session

set_option autoImplicit false

namespace CurriedLisp

variable {ρ ρ₁ ρ₂ α β : Type}

def Error.missing? : Error → Option String
  | .unbound name => some name
  | .unassigned name => some name
  | _ => none

theorem Error.missing_category {e : Error} {name : String} (missing : e.missing? = some name) :
    e.category = .unbound := by
  cases e with
  | unbound _ => rfl
  | unassigned _ => rfl
  | _ => cases missing

inductive Failure.Resembles : Failure → Failure → Prop where
  | alike {f g : Failure} : f.Alike g → Resembles f g
  | missing {e e' : Error} (name : String) : e.missing? = some name → e'.missing? = some name →
      Resembles (.error e) (.error e')

theorem Failure.Resembles.shown {e e' : Error} (resembles : Resembles (.error e) (.error e')) :
    e.category = e'.category ∧ (e.category ≠ .unbound → e.message = e'.message) := by
  cases resembles with
  | alike same =>
      cases same with
      | same => exact ⟨rfl, fun _ => rfl⟩
      | raised shown => exact ⟨rfl, fun _ => shown⟩
  | missing name left right =>
      have unbound := Error.missing_category left
      exact ⟨unbound.trans (Error.missing_category right).symm, fun other => absurd unbound other⟩

-- What a scope itself gives a name; a placeholder is no value.
def Store.binding? (s : Store) (scope : Nat) (name : String) : Option Value := assigned? ((s.vars scope).lookup name)

theorem Store.lookup_assigned (s : Store) (scope : Nat) (name : String) :
    (s.lookup scope name).toOption = assigned? (s.cell name scope) := by
  rw [lookup_cell]
  cases s.cell name scope with
  | none => rfl
  | some v => cases v <;> rfl

theorem Store.lookup_blank {s : Store} {scope : Nat} {name : String} (blank : s.Blank name scope) :
    ∃ e, s.lookup scope name = .error e ∧ e.missing? = some name := by
  rw [lookup_cell]
  obtain absent | placeholder := blank_iff.mp blank
  · exact ⟨.unbound name, by rw [absent], rfl⟩
  · exact ⟨.unassigned name, by rw [placeholder], rfl⟩

-- Two stores after runs from the store `old` or from stores like it: scopes that stand for each other have the same
-- values, of their own and from the scopes around them, and so has every scope that is old.
structure Store.SameBindings (old : Store) (R : Renaming) (σ τ : Store) : Prop where
  scopes : ∀ i, i < old.scopes.size → R.scopes i i
  closures : ∀ i, i < old.closures → R.closures i i
  outer : ∀ a b, R.scopes a b → Option.Rel R.scopes (σ.outer? a) (τ.outer? b)
  bindings : ∀ a b, R.scopes a b → ∀ name, Option.Rel (Value.Alike R) (σ.binding? a name) (τ.binding? b name)
  visible : ∀ a b, R.scopes a b → ∀ name,
    Option.Rel (Value.Alike R) (σ.lookup a name).toOption (τ.lookup b name).toOption

inductive SameAnswer (old : Store) :
    EStateM.Result Failure (World ρ₁) Value → EStateM.Result Failure (World ρ₂) Value → Prop where
  | value {R : Renaming} {v v' : Value} {w : World ρ₁} {w' : World ρ₂} : old.SameBindings R w.store w'.store →
      v.Alike R v' → v.text = v'.text → SameAnswer old (.ok v w) (.ok v' w')
  | failure {R : Renaming} {f f' : Failure} {w : World ρ₁} {w' : World ρ₂} : old.SameBindings R w.store w'.store →
      f.Resembles f' → SameAnswer old (.error f w) (.error f' w')

theorem Store.Agree.sameBindings {old σ τ : Store} {R : Renaming} {p : List String} {s t : Nat}
    (within : (Renaming.identity old).Within R) (agree : Agree R p s t σ τ) : old.SameBindings R σ τ where
  scopes i present := within.1 i i ⟨rfl, present⟩
  closures i made := within.2 i i ⟨rfl, made⟩
  outer := agree.outer
  bindings a b related name := agree.bindings name related
  visible a b related name := by
    rw [lookup_assigned, lookup_assigned]
    exact agree.values name related

theorem Reader.Readable.alike {v : Value} (readable : Readable v) (R : Renaming) : v.Alike R v := by
  induction readable with
  | list _ ih => exact .ofList (List.forall₂_same.mpr ih)
  | _ => constructor

theorem Failure.Alike.recovered {f g : Failure} (alike : f.Alike g) : f.recovered.Alike g.recovered := by
  cases alike with
  | same f => exact .same f.recovered
  | raised shown => exact .raised shown

theorem Failure.Resembles.recovered {f g : Failure} (resembles : f.Resembles g) :
    f.recovered.Resembles g.recovered := by
  cases resembles with
  | alike failure => exact .alike failure.recovered
  | missing name left right => exact .missing name left right

namespace Simulation

section Text

variable {S : Simulation} {R : Renaming} {p q : List String} {s t : Nat} {same : Renaming → α → β → Prop}

-- What counts as alike or is excused does so also once a text has ended with it.
structure Recovers (S : Simulation) : Prop where
  alike : ∀ {f g}, S.alike f g → S.alike f.recovered g.recovered
  excused₁ : ∀ {f}, S.excused₁ f → S.excused₁ f.recovered
  excused₂ : ∀ {f}, S.excused₂ f → S.excused₂ f.recovered

theorem matches_recover (recovers : S.Recovers) {x : Eval ρ₁ α} {y : Eval ρ₂ β} (run : S.Matches R p q s t same x y) :
    S.Matches R p q s t same x.recover y.recover := by
  intro w₁ w₂ related
  have outcome := run w₁ w₂ related
  rw [Eval.recover_run, Eval.recover_run]
  generalize x w₁ = r₁, y w₂ = r₂ at outcome ⊢
  cases outcome with
  | ok growth next alike => exact .ok growth next alike
  | error growth next alike => exact .error growth next (recovers.alike alike)
  | excused₁ excuse => exact .excused₁ (recovers.excused₁ excuse)
  | excused₂ excuse => exact .excused₂ (recovers.excused₂ excuse)

theorem matches_evalText (recovers : S.Recovers) (depth : Nat) (code : String) :
    S.Matches R p p 0 0 Value.Alike (evalText (.quiet S.reserve₁) depth code : Eval ρ₁ Value)
      (evalText (.quiet S.reserve₂) depth code : Eval ρ₂ Value) := by
  unfold evalText
  cases parsed : Reader.parse depth code with
  | error f => exact matches_throw (S.refl f)
  | ok program =>
      exact matches_recover recovers (matches_weaken (List.filter_subset_self _)
        (evaluate_matches S (.inl rfl) ((Reader.parse_readable parsed).alike R)))

end Text

def agreeing (reserve₁ reserve₂ : Bool) (excuse : Prop) : Simulation where
  reserve₁ := reserve₁
  reserve₂ := reserve₂
  rel := Store.Agree
  alike := Failure.Resembles
  excused₁ f := f = .tooDeep ∧ excuse
  excused₂ f := f = .tooDeep ∧ excuse
  refl f := .alike (.same f)
  raised alike := .alike (.of_values alike)
  running agree := agree.running
  weaken more agree := agree.weaken more
  lookup := by
    intro R p s t σ τ name agree
    obtain seen | ⟨blank₁, blank₂⟩ := agree.cells name agree.running
    · rw [Store.lookup_cell, Store.lookup_cell]
      generalize σ.cell name s = x, τ.cell name t = y at seen
      cases seen with
      | none => exact .inl (.alike (.same _))
      | some alike =>
          have whole := alike
          cases alike with
          | unassigned => exact .inl (.alike (.same _))
          | _ => exact whole
    · obtain ⟨e, left, missing₁⟩ := Store.lookup_blank blank₁
      obtain ⟨f, right, missing₂⟩ := Store.lookup_blank blank₂
      rw [left, right]
      exact .inl (.missing name missing₁ missing₂)
  define name agree alike := agree.define name alike
  reserve name agree := agree.reserve name reserve₁ reserve₂
  closure agree := agree.addClosure
  enter agree captured := agree.enter captured
  leave agree growth inner kept₁ kept₂ := agree.leave growth inner kept₁ kept₂
  abandon agree growth inner kept₁ kept₂ := ⟨_, growth.forget, agree.abandon growth inner kept₁ kept₂⟩

variable {reserve₁ reserve₂ : Bool} {R : Renaming} {p q : List String} {s t : Nat}

theorem agreeing_recovers : (agreeing reserve₁ reserve₂ False).Recovers :=
  ⟨Failure.Resembles.recovered, fun excuse => excuse.2.elim, fun excuse => excuse.2.elim⟩

theorem agreeing_evalText (depth : Nat) (code : String) :
    (agreeing reserve₁ reserve₂ False).Matches R p p 0 0 Value.Alike
      (evalText (.quiet reserve₁) depth code : Eval ρ₁ Value)
      (evalText (.quiet reserve₂) depth code : Eval ρ₂ Value) := matches_evalText agreeing_recovers depth code

theorem agreeing_after {same : Renaming → α → β → Prop} {x : Eval ρ₁ α} {y : Eval ρ₂ β} {w₁ : World ρ₁}
    {w₂ : World ρ₂} (run : (agreeing reserve₁ reserve₂ False).Matches R p q s t same x y)
    (agree : Store.Agree R p s t w₁.store w₂.store) :
    ∃ R' p', R.Within R' ∧ Store.Agree R' p' s t (x.after w₁).store (y.after w₂).store := by
  have outcome := run w₁ w₂ agree
  simp only [Eval.after]
  generalize x w₁ = r₁, y w₂ = r₂ at outcome ⊢
  cases outcome with
  | ok growth next _ => exact ⟨_, _, growth.within, next⟩
  | error growth next _ => exact ⟨_, _, growth.within, next⟩
  | excused₁ excuse => exact excuse.2.elim
  | excused₂ excuse => exact excuse.2.elim

theorem sameAnswer_of_fits {excuse : Prop} {old : Store} {x : Eval ρ₁ Value} {y : Eval ρ₂ Value} {w₁ : World ρ₁}
    {w₂ : World ρ₂} (run : (agreeing reserve₁ reserve₂ excuse).Matches R p q s t Value.Alike x y)
    (fits : excuse → x.Fits w₁ ∧ y.Fits w₂) (within : (Renaming.identity old).Within R)
    (agree : Store.Agree R p s t w₁.store w₂.store) : SameAnswer old (x w₁) (y w₂) := by
  have outcome := run w₁ w₂ agree
  unfold Eval.Fits Eval.failure? at fits
  generalize x w₁ = r₁, y w₂ = r₂ at outcome fits ⊢
  cases outcome with
  | ok growth next alike =>
      exact .value (next.sameBindings ((Renaming.identity old).within_trans within growth.within)) alike alike.text
  | error growth next resembles =>
      exact .failure (next.sameBindings ((Renaming.identity old).within_trans within growth.within)) resembles
  | excused₁ excuse => exact absurd (congrArg some excuse.1) (fits excuse.2).1
  | excused₂ excuse => exact absurd (congrArg some excuse.1) (fits excuse.2).2

theorem sameAnswer_of_matches {old : Store} {x : Eval ρ₁ Value} {y : Eval ρ₂ Value} {w₁ : World ρ₁} {w₂ : World ρ₂}
    (run : (agreeing reserve₁ reserve₂ False).Matches R p q s t Value.Alike x y)
    (within : (Renaming.identity old).Within R) (agree : Store.Agree R p s t w₁.store w₂.store) :
    SameAnswer old (x w₁) (y w₂) := sameAnswer_of_fits run False.elim within agree

end Simulation

theorem sessions_agree (reserve₁ reserve₂ : Bool) (depth : Nat) (texts : List String) {R : Renaming} {p : List String}
    {w₁ : World ρ₁} {w₂ : World ρ₂} (agree : Store.Agree R p 0 0 w₁.store w₂.store) :
    ∃ R' p', R.Within R' ∧ Store.Agree R' p' 0 0
      (session depth (texts.map fun code => (.quiet reserve₁, code)) w₁).store
      (session depth (texts.map fun code => (.quiet reserve₂, code)) w₂).store := by
  induction texts generalizing R p w₁ w₂ with
  | nil => exact ⟨R, p, R.within_refl, agree⟩
  | cons code rest ih =>
      obtain ⟨R₁, p₁, within, next⟩ := Simulation.agreeing_after (Simulation.agreeing_evalText depth code) agree
      obtain ⟨R₂, p₂, more, last⟩ := ih next
      exact ⟨R₂, p₂, R.within_trans within more, last⟩

/-- Reserving names only affects diagnostics. After any session the evaluator and the one in which reserving does
nothing give a text the same answer, and their stores hold the same values. -/
theorem reserving_only_diagnoses (ρ : Type) (depth : Nat) (texts : List String) (code : String) :
    let real : World ρ := session depth (texts.map fun code => (.quiet true, code)) .start
    let plain : World ρ := session depth (texts.map fun code => (.quiet false, code)) .start
    SameAnswer (World.start : World ρ).store (evalText (.quiet true) depth code real)
      (evalText (.quiet false) depth code plain) := by
  have sound : (World.start : World ρ).store.Sound := World.start_sound
  obtain ⟨R, p, within, agree⟩ := sessions_agree true false depth texts (sound.agree start_present)
  exact Simulation.sameAnswer_of_matches (Simulation.agreeing_evalText depth code) within agree

end CurriedLisp
