import CurriedLisp.Proofs.Eval.Agreement
import CurriedLisp.Proofs.Eval.History
import CurriedLisp.Proofs.Scope.Besides

set_option autoImplicit false

namespace CurriedLisp

variable {ρ : Type}

-- Two runs of which the second one has values besides in its root; the first one is excused where it misses one of
-- them.
def Simulation.besides (extra : String → Option Value) : Simulation where
  reserve₁ := true
  reserve₂ := true
  rel R _ s t σ τ := Store.Besides extra R s t σ τ
  alike := Failure.Alike
  excused₁ f := ∃ e name, f = .error e ∧ e.missing? = some name ∧ (extra name).isSome
  excused₂ _ := False
  refl := .same
  raised := .of_values
  running besides := besides.running
  weaken _ besides := besides
  lookup := by
    intro R p s t σ τ name besides
    obtain seen | ⟨more, blank⟩ := besides.cells name besides.running
    · rw [Store.lookup_cell, Store.lookup_cell]
      generalize σ.cell name s = x, τ.cell name t = y at seen
      cases seen with
      | none => exact .inl (.same _)
      | some alike =>
          have whole := alike
          cases alike with
          | unassigned => exact .inl (.same _)
          | _ => exact whole
    · obtain ⟨e, failed, missing⟩ := Store.lookup_blank blank
      rw [failed]
      have excuse : ∃ e' name', Failure.error e = .error e' ∧ e'.missing? = some name' ∧ (extra name').isSome :=
        ⟨e, name, rfl, missing, more⟩
      cases τ.lookup t name with
      | ok w => exact excuse
      | error f => exact .inr excuse
  define name besides alike := besides.define name alike
  reserve name besides := besides.reserve name
  closure besides := besides.addClosure
  enter besides captured := besides.enter captured
  leave besides growth inner _ _ := inner.run (growth.within.1 _ _ besides.running)
  abandon besides growth inner _ _ := ⟨_, growth, inner.run (growth.within.1 _ _ besides.running)⟩

theorem Simulation.besides_recovers (extra : String → Option Value) : (besides extra).Recovers := by
  refine ⟨Failure.Alike.recovered, ?_, fun never => never⟩
  rintro _ ⟨e, name, rfl, missing, more⟩
  exact ⟨e, name, rfl, missing, more⟩

-- Two stores after runs from `old` without and with a value for a name: what scopes that stand for each other hold is
-- alike, but under that name the right root keeps the value where the left one has none.
structure Store.SameWith (old : Store) (name : String) (v : Value) (R : Renaming) (σ τ : Store) : Prop where
  scopes : ∀ i, i < old.scopes.size → R.scopes i i
  closures : ∀ i, i < old.closures → R.closures i i
  outer : ∀ a b, R.scopes a b → Option.Rel R.scopes (σ.outer? a) (τ.outer? b)
  bindings : ∀ a b, R.scopes a b → ∀ other, a ≠ 0 ∨ other ≠ name →
    Option.Rel (Value.Alike R) (σ.binding? a other) (τ.binding? b other)
  visible : ∀ a b, R.scopes a b → ∀ other, other ≠ name →
    Option.Rel (Value.Alike R) (σ.lookup a other).toOption (τ.lookup b other).toOption
  given : σ.binding? 0 name = none → τ.binding? 0 name = some v
  replaced : ∀ x, σ.binding? 0 name = some x → ∃ y, τ.binding? 0 name = some y ∧ x.Alike R y

inductive SameWith (old : Store) (name : String) (v : Value) :
    EStateM.Result Failure (World ρ) Value → EStateM.Result Failure (World ρ) Value → Prop where
  | value {R : Renaming} {x x' : Value} {w w' : World ρ} : old.SameWith name v R w.store w'.store →
      x.Alike R x' → x.text = x'.text → SameWith old name v (.ok x w) (.ok x' w')
  | failure {R : Renaming} {f f' : Failure} {w w' : World ρ} : old.SameWith name v R w.store w'.store →
      f.Alike f' → SameWith old name v (.error f w) (.error f' w')

theorem Store.Besides.sameWith {old σ τ : Store} {name : String} {v : Value} {R : Renaming} {s t : Nat}
    (within : (Renaming.identity old).Within R) (present : 0 < old.scopes.size)
    (besides : Besides (single name v) R s t σ τ) (fine : σ.Wellformed)
    (held : (τ.binding? 0 name).isSome) : old.SameWith name v R σ τ := by
  have root := (besides.contents 0 0 (within.1 0 0 ⟨rfl, present⟩) name).assigned
  rw [single_same] at root
  change Option.Rel (Value.Alike R) (σ.binding? 0 name) (τ.binding? 0 name) ∨ _ at root
  refine ⟨fun i present => within.1 i i ⟨rfl, present⟩, fun i made => within.2 i i ⟨rfl, made⟩, besides.aligned.outer,
    fun a b related other away => ?_, fun a b related other different => ?_, fun free => ?_, fun x found => ?_⟩
  · obtain alike | ⟨outer, free, kept⟩ := (besides.contents a b related other).assigned
    · exact alike
    · have root := fine.root_of_outer (besides.aligned.bounds a b related).1 outer
      have absent : single name v other = none :=
        Option.not_isSome_iff_eq_none.mp fun more => away.elim (absurd root) (absurd (single_isSome.mp more))
      rw [binding?, binding?, free, kept, absent]
      exact .none
  · obtain seen | ⟨more, _⟩ := besides.cells other related
    · rw [lookup_assigned, lookup_assigned]
      exact assigned_rel seen
    · exact absurd (single_isSome.mp more) different
  · obtain alike | ⟨_, _, kept⟩ := root
    · rw [free] at alike
      generalize τ.binding? 0 name = y at alike held
      cases alike
      cases held
    · rw [binding?, kept] at held ⊢
      cases v with
      | unassigned => cases held
      | _ => rfl
  · obtain alike | ⟨_, free, _⟩ := root
    · rw [found] at alike
      exact rel_some_left alike
    · rw [binding?, free] at found
      cases found

theorem Store.Grows.binding {s t : Store} (grows : s.Grows t) {scope : Nat} {name : String}
    (held : (s.binding? scope name).isSome) : (t.binding? scope name).isSome := by
  unfold binding? at held ⊢
  cases found : (s.vars scope).lookup name with
  | none =>
      rw [found] at held
      cases held
  | some v =>
      have value : v ≠ .unassigned := by
        rintro rfl
        rw [found] at held
        cases held
      obtain ⟨v', found', value'⟩ := grows.assigned scope name v found value
      rw [found']
      cases v' with
      | unassigned => exact absurd rfl value'
      | _ => rfl

/-- Adding a definition changes no program that did well without it. Give the root of a session a value for a name that
has none there: a text that does not fail for want of the name has the same answer as before, and all that it leaves is
the same but for the value, which is there unless the text gave the name another one. -/
theorem adding_definition_changes_nothing (depth₀ : Nat) (steps : List (Mode ρ × String)) {name : String} {v : Value}
    (free : (session depth₀ steps (World.start : World ρ)).store.binding? 0 name = none)
    (fine : v.Wellformed (session depth₀ steps (World.start : World ρ)).store) (depth : Nat) (code : String) :
    let w : World ρ := session depth₀ steps .start
    let run : Eval ρ Value := evalText (.quiet true) depth code
    (∀ e, run.failure? w = some (.error e) → e.missing? ≠ some name) →
      SameWith w.store name v (run w) (run (w.define 0 name v)) := by
  intro w run clean
  have well : w.store.Wellformed := session_store_wellformed depth₀ steps
  have present : 0 < w.store.scopes.size := session_present depth₀ steps
  have given : (w.define 0 name v).store.Wellformed := Store.define_wellformed well (.inr fine)
  have present' : 0 < (w.define 0 name v).store.scopes.size := by simpa [World.define, Store.define] using present
  have held : ((w.define 0 name v).store.binding? 0 name).isSome := by
    change (assigned? (((w.store.define 0 name v).vars 0).lookup name)).isSome
    rw [Store.define_lookup present]
    cases v with
    | unassigned => exact absurd rfl fine.assigned
    | _ => rfl
  have outcome := Simulation.matches_evalText (p := []) (Simulation.besides_recovers _) depth code w (w.define 0 name v)
    (well.besides_define present free v)
  have left := evalText_safe (Mode.quiet true).tells_nothing depth code present w (Store.grows_refl _) ⟨well, trivial⟩
  have right := evalText_safe (Mode.quiet true).tells_nothing depth code present' (w.define 0 name v)
    (Store.grows_refl _) ⟨given, trivial⟩
  change Simulation.Outcome _ _ _ _ _ _ _ _ (run w) (run (w.define 0 name v)) at outcome
  change Lands _ _ _ (run w) at left
  change Lands _ _ _ (run (w.define 0 name v)) at right
  unfold Eval.failure? at clean
  generalize run w = r, run (w.define 0 name v) = r' at clean outcome left right ⊢
  cases outcome with
  | ok growth next alike =>
      cases left with
      | ok _ ended _ =>
          cases right with
          | ok grows _ _ =>
              exact .value (next.sameWith growth.within present ended.store (grows.binding held)) alike alike.text
  | error growth next alike =>
      cases left with
      | error _ ended _ =>
          cases right with
          | error grows _ _ =>
              exact .failure (next.sameWith growth.within present ended.store (grows.binding held)) alike
  | excused₁ excuse =>
      obtain ⟨e, missed, rfl, missing, more⟩ := excuse
      obtain rfl := single_isSome.mp more
      exact absurd missing (clean e rfl)
  | excused₂ never => exact never.elim

-- The session has only reserved the name; the text binds it inside a call, where it is visible on the right alone.
theorem adding_definition_changes_nothing_inside :
    let steps := [(Mode.program true, "(define f (lambda (y) (define x (+ y 1)) (list 'x x))) (head 1) (define x 2)")]
    let w : World String := session 9 steps .start
    let run : Eval String Value := evalText (.quiet true) 9 "(f 2)"
    w.store.binding? 0 "x" = none ∧ (w.store.vars 0).lookup "x" = some .unassigned ∧ run.failure? w = none ∧
      SameWith w.store "x" (.int 7) (run w) (run (w.define 0 "x" (.int 7))) := by
  intro steps w run
  have free : w.store.binding? 0 "x" = none := by decide +kernel
  have ends : run.failure? w = none := by decide +kernel
  refine ⟨free, by decide +kernel, ends, ?_⟩
  have fine : (Value.int 7).Wellformed w.store := trivial
  refine adding_definition_changes_nothing 9 steps free fine 9 "(f 2)" fun e failed => ?_
  change run.failure? w = _ at failed
  rw [ends] at failed
  cases failed

end CurriedLisp
