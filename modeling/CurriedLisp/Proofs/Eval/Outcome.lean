import CurriedLisp.Proofs.Eval.Simulation
import CurriedLisp.Proofs.Scope.Similar

set_option autoImplicit false

namespace CurriedLisp

variable {ρ α : Type}

-- Failures that show the same: values that are raised are shown by their text.
inductive Failure.Alike : Failure → Failure → Prop where
  | same (f : Failure) : Alike f f
  | raised {v w : Value} : v.text = w.text → Alike (.error (.raised v)) (.error (.raised w))

theorem Failure.Alike.of_values {R : Renaming} {v w : Value} (alike : v.Alike R w) :
    Alike (.error (.raised v)) (.error (.raised w)) := .raised alike.text

-- Two stores after runs from the store `old`, equal up to a renaming that leaves all that is old as it is.
structure Store.Renamed (old : Store) (R : Renaming) (σ τ : Store) : Prop where
  scopes : ∀ i, i < old.scopes.size → R.scopes i i
  closures : ∀ i, i < old.closures → R.closures i i
  same : ∀ i, i < old.scopes.size → ∃ f g, σ.scopes[i]? = some f ∧ τ.scopes[i]? = some g ∧ f.outer = g.outer ∧
    List.Forall₂ (EntryAlike R) f.vars g.vars
  contents : ∀ a b, R.scopes a b → ∀ name, Option.Rel (Value.Alike R) (σ.cell name a) (τ.cell name b)

theorem Store.renamed_of_similar {old σ τ : Store} {R : Renaming} {hidden : List (Nat × Scope)}
    (within : (Renaming.identity old).Within R) (similar : Similar R hidden σ τ) : old.Renamed R σ τ := by
  refine ⟨fun i present => within.1 i i ⟨rfl, present⟩, fun i made => within.2 i i ⟨rfl, made⟩, fun i present => ?_,
    fun a b related name => similar.cells name related⟩
  have own := within.1 i i ⟨rfl, present⟩
  obtain ⟨f, g, extra, stop, left, right, frame⟩ := similar.frames i i own
  have older : ∀ o, g.outer = some o → R.scopes o o := fun o inside =>
    within.1 o o ⟨rfl, Nat.lt_trans (similar.ordered₂ i g right o inside) present⟩
  -- The scope around an old one is old, and so it is not hidden.
  have shown : extra = [] ∧ stop = g.outer := by
    have through := frame.through
    generalize g.outer = start at through older
    cases through with
    | here => exact ⟨rfl, rfl⟩
    | next member _ => exact absurd (older _ rfl) ((similar.apart _ _ member).2 _)
  obtain ⟨rfl, rfl⟩ := shown
  refine ⟨f, g, left, right, ?_, frame.entries rfl⟩
  have outer := frame.outer
  generalize f.outer = x, g.outer = y at outer older
  cases outer with
  | none => rfl
  | some related => rw [R.scopesLeft related (older _ rfl)]

inductive SameOutcome (old : Store) :
    EStateM.Result Failure (World ρ) Value → EStateM.Result Failure (World ρ) Value → Prop where
  | value {R : Renaming} {v v' : Value} {w w' : World ρ} : old.Renamed R w.store w'.store → v.Alike R v' →
      v.text = v'.text → SameOutcome old (.ok v w) (.ok v' w')
  | failure {R : Renaming} {f f' : Failure} {w w' : World ρ} : old.Renamed R w.store w'.store → f.Alike f' →
      SameOutcome old (.error f w) (.error f' w')

def Eval.failure? (x : Eval ρ α) (w : World ρ) : Option Failure :=
  match x w with
  | .ok _ _ => none
  | .error f _ => some f

def Eval.Fits (x : Eval ρ α) (w : World ρ) : Prop := x.failure? w ≠ some .tooDeep

instance (x : Eval ρ α) (w : World ρ) : Decidable (x.Fits w) := inferInstanceAs (Decidable (_ ≠ _))

def Simulation.similar (reserve : Bool) (hidden : List (Nat × Scope)) (excuse : Prop) : Simulation where
  reserve₁ := reserve
  reserve₂ := reserve
  rel R _ s t σ τ := R.scopes s t ∧ Store.Similar R hidden σ τ
  alike := Failure.Alike
  excused₁ f := f = .tooDeep ∧ excuse
  excused₂ f := f = .tooDeep ∧ excuse
  refl := .same
  raised := .of_values
  running related := related.1
  weaken _ related := related
  lookup := by
    intro R p s t σ τ name related
    have seen := related.2.lookups name related.1
    generalize σ.lookup s name = x, τ.lookup t name = y at seen
    cases x with
    | ok v =>
        cases y with
        | ok w => exact seen
        | error f => exact seen.elim
    | error e =>
        cases y with
        | ok w => exact seen.elim
        | error f =>
            subst seen
            exact .inl (.same _)
  define name related alike := ⟨related.1, related.2.define name related.1 alike⟩
  reserve := by
    intro R p s t σ τ name related
    cases reserve with
    | false => exact related
    | true => exact ⟨related.1, related.2.reserve name related.1⟩
  closure := by
    intro R p s t σ τ related
    obtain ⟨R', within, scopes, made, similar⟩ := related.2.addClosure
    exact ⟨R', .closure within scopes, made, within.1 _ _ related.1, similar⟩
  enter := by
    intro R p s t σ τ c d related captured
    have frame : FrameAlike R hidden ⟨[], some c⟩ ⟨[], some d⟩ [] (some d) :=
      ⟨.here _, fun _ => .none, fun _ => .nil, .some captured⟩
    obtain ⟨R', within, made, only, similar⟩ := related.2.addFrame frame
    exact ⟨R', .scope within only, made, similar⟩
  leave related growth inner _ _ := ⟨growth.within.1 _ _ related.1, inner.2⟩
  abandon related growth inner _ _ := ⟨_, growth, growth.within.1 _ _ related.1, inner.2⟩

theorem Simulation.similar_depths (reserve : Bool) (hidden : List (Nat × Scope)) (d e : Nat) :
    (similar reserve hidden (d ≠ e)).Depths d e := by
  by_cases same : d = e
  · exact .inl same
  · exact .inr ⟨⟨rfl, same⟩, rfl, same⟩

theorem Simulation.similar_matches {ρ : Type} (reserve : Bool) (hidden : List (Nat × Scope)) (d e : Nat) {R : Renaming}
    {s t : Nat} {v w : Value} (alike : v.Alike R w) :
    (similar reserve hidden (d ≠ e)).Matches R [] [] s t Value.Alike (evaluate (.quiet reserve) d v s : Eval ρ Value)
      (evaluate (.quiet reserve) e w t : Eval ρ Value) :=
  evaluate_matches (similar reserve hidden (d ≠ e)) (similar_depths reserve hidden d e) alike

end CurriedLisp
