import CurriedLisp.Proofs.Eval.Block

set_option autoImplicit false

namespace CurriedLisp

variable {ρ : Type}

structure Clause where
  test : Value
  results : List Value

namespace Clause

def form (c : Clause) : Value := .ofList (c.test :: c.results)

def condForm (clauses : List Clause) : Value := .ofList (.sym "cond" :: clauses.map form)

-- A clause whose test is `else` leaves nothing to the clauses after it.
def nestedIf : List Clause → Value
  | [] => condForm []
  | c :: rest =>
      if c.test = .sym "else" then .body c.results
      else .ofList [.sym "if", c.test, .body c.results, nestedIf rest]

end Clause

theorem Machine.runCond_written (m : Machine ρ) (scope : Nat) (c : Clause) (rest : List Value) :
    m.runCond scope (c.form :: rest) =
      m.test scope c.test >>= fun v => if v.isTrue then m.sequence scope v c.results else m.runCond scope rest := by
  rw [runCond, Clause.form, elements_ofList, pure_bind]

theorem evaluate_condForm (reserve : Bool) (depth scope : Nat) (clauses : List Clause) :
    (evaluate (.quiet reserve) (depth + 1) (Clause.condForm clauses) scope : Eval ρ Value) =
      (Machine.ofDepth (.quiet reserve) depth).runCond scope (clauses.map Clause.form) :=
  evaluate_form reserve depth (by decide : _ = some Keyword.cond) _ scope

theorem evaluate_ifForm (reserve : Bool) (depth scope : Nat) (test yes no : Value) :
    (evaluate (.quiet reserve) (depth + 1) (.ofList [.sym "if", test, yes, no]) scope : Eval ρ Value) =
      evaluate (.quiet reserve) depth test scope >>= fun v =>
        if v.isTrue then evaluate (.quiet reserve) depth yes scope else evaluate (.quiet reserve) depth no scope :=
  evaluate_form reserve depth (by decide : _ = some Keyword.ifElse) _ scope

namespace Simulation

variable {R : Renaming} {p : List String} {s t : Nat}

-- By induction on the clauses: each takes one level of depth from the nested forms, and none from the other side.
theorem loosely_clauses (d e : Nat) {clauses : List Clause} (filled : ∀ c ∈ clauses, c.results ≠ [])
    (alike : ∀ c ∈ clauses, ∀ v ∈ c.test :: c.results, v.Alike R v) :
    loosely.Matches R p p s t Value.Alike
      (evaluate (.quiet true) d (Clause.nestedIf clauses) s : Eval ρ Value)
      ((Machine.ofDepth (.quiet true) e : Machine ρ).runCond t (clauses.map Clause.form)) := by
  induction clauses generalizing d R with
  | nil =>
      cases d with
      | zero => exact loosely_deep₁ _
      | succ d =>
          rw [Clause.nestedIf, evaluate_condForm]
          exact matches_raise .noClause
  | cons c rest ih =>
      have results : ∀ form ∈ c.results, form.Alike R form :=
        fun form member => alike c List.mem_cons_self form (.tail _ member)
      rw [List.map_cons, Machine.runCond_written, Clause.nestedIf]
      by_cases isElse : c.test = .sym "else"
      · have holds : (Value.bool true).isTrue = true := rfl
        rw [if_pos isElse, Machine.test, if_pos isElse, pure_bind, if_pos holds]
        exact matches_weaken (List.filter_subset_self _)
          (loosely_body d e (.bool true) (filled c List.mem_cons_self) results)
      · rw [if_neg isElse, Machine.test, if_neg isElse]
        cases d with
        | zero => exact loosely_deep₁ _
        | succ d =>
            have pair : loosely.Pair (.ofDepth (.quiet true) d : Machine ρ) (.ofDepth (.quiet true) e : Machine ρ) :=
              ofDepth_pair loosely (loosely_depths d e)
            rw [evaluate_ifForm]
            refine matches_bind (matches_eval pair (alike c List.mem_cons_self c.test List.mem_cons_self))
              fun R' v w within value => ?_
            rw [value.isTrue]
            by_cases holds : w.isTrue
            · rw [if_pos holds, if_pos holds]
              exact matches_weaken (List.filter_subset_self _) (loosely_body d e w (filled c List.mem_cons_self)
                fun form member => (results form member).mono within)
            · rw [if_neg holds, if_neg holds]
              exact ih d (fun c' member => filled c' (.tail _ member))
                fun c' member v inside => (alike c' (.tail _ member) v inside).mono within

theorem loosely_cond (depth depth' : Nat) {clauses : List Clause} (filled : ∀ c ∈ clauses, c.results ≠ [])
    (alike : ∀ c ∈ clauses, ∀ v ∈ c.test :: c.results, v.Alike R v) :
    loosely.Matches R p p s t Value.Alike
      (evaluate (.quiet true) depth (Clause.nestedIf clauses) s : Eval ρ Value)
      (evaluate (.quiet true) depth' (Clause.condForm clauses) t : Eval ρ Value) := by
  cases depth' with
  | zero => exact loosely_deep₂ _
  | succ e =>
      rw [evaluate_condForm]
      exact loosely_clauses depth e filled alike

end Simulation

/-- A `cond` form does what the nested `if` forms do that its clauses translate to: in any scope, unless one of them
needs more depth than it has, they give the same value, or fail alike but for why a name has no value, and leave the
same values in the scopes that there were before. Where no clause is left both fail. -/
theorem cond_agrees_with_nested_if (depth₀ : Nat) (steps : List (Mode ρ × String)) {clauses : List Clause}
    (filled : ∀ c ∈ clauses, c.results ≠ [])
    (belongs : ∀ c ∈ clauses, ∀ v ∈ c.test :: c.results,
      v.Belongs (session depth₀ steps (World.start : World ρ)).store)
    {scope : Nat} (present : scope < (session depth₀ steps (World.start : World ρ)).store.scopes.size)
    (depth depth' : Nat) :
    let w : World ρ := session depth₀ steps .start
    let nested : Eval ρ Value := evaluate (.quiet true) depth (Clause.nestedIf clauses) scope
    let cond : Eval ρ Value := evaluate (.quiet true) depth' (Clause.condForm clauses) scope
    (nested.Fits w → cond.Fits w → SameAnswer w.store (nested w) (cond w)) ∧
      (evaluate (.quiet true) (depth + 1) (Clause.nestedIf []) scope : Eval ρ Value) w = .error (.error .noClause) w ∧
      Error.noClause.category = .evaluation := by
  intro w nested cond
  have agree := (session_sound depth₀ steps).agree present
  have matched : Simulation.loosely.Matches (Renaming.identity w.store) [] [] scope scope Value.Alike nested cond :=
    Simulation.loosely_cond depth depth' filled fun c member v inside => (belongs c member v inside).alike
  refine ⟨fun fits fits' => ?_, ?_, rfl⟩
  · exact Simulation.sameAnswer_of_fits matched (fun _ => ⟨fits, fits'⟩) (Renaming.within_refl _) agree
  · rw [Clause.nestedIf, evaluate_condForm]
    rfl

-- A test that is false after it has defined a name, `else` although it is bound to false, and results that define what
-- is called for before; in the second list a result calls for a name too early, which only its body has reserved.
theorem cond_agrees_with_nested_if_else :
    let steps := [(Mode.program true, "(define else #false) ((lambda (n) n) 7)")]
    let w : World String := session 12 steps .start
    let missed : Clause := ⟨.ofList [.sym "begin", .ofList [.sym "define", .sym "n", .int 5], .bool false], [.sym "oops"]⟩
    let thunk := Value.ofList [.sym "lambda", .nil, .ofList [.sym "+", .sym "n", .sym "m"]]
    let defining := [Value.ofList [.sym "define", .sym "f", thunk], .ofList [.sym "define", .sym "m", .sym "n"],
      .ofList [.sym "f"]]
    let late : List Clause := [missed, ⟨.sym "else", defining⟩, ⟨.sym "n", [.int 0]⟩]
    let early : List Clause := [missed, ⟨.sym "n", [.sym "m", .ofList [.sym "define", .sym "m", .int 1]]⟩]
    let nested (clauses : List Clause) : Eval String Value := evaluate (.quiet true) 12 (Clause.nestedIf clauses) 1
    let cond (clauses : List Clause) : Eval String Value := evaluate (.quiet true) 12 (Clause.condForm clauses) 1
    SameAnswer w.store (nested late w) (cond late w) ∧ (cond late).failure? w = none ∧
      SameAnswer w.store (nested early w) (cond early w) ∧
      (nested early).failure? w = some (.error (.unassigned "m")) ∧
      (cond early).failure? w = some (.error (.unbound "m")) := by
  intro steps w missed thunk defining late early nested cond
  have present : 1 < (session 12 steps (World.start : World String)).store.scopes.size := by decide +kernel
  have same (clauses : List Clause) (filled : ∀ c ∈ clauses, c.results ≠ [])
      (belongs : ∀ c ∈ clauses, ∀ v ∈ c.test :: c.results,
        v.Belongs (session 12 steps (World.start : World String)).store)
      (fits : (nested clauses).Fits w) (fits' : (cond clauses).Fits w) :
      SameAnswer w.store (nested clauses w) (cond clauses w) :=
    (cond_agrees_with_nested_if 12 steps filled belongs present 12 12).1 fits fits'
  have ends : (cond late).failure? w = none := by decide +kernel
  have unassigned : (nested early).failure? w = some (.error (.unassigned "m")) := by decide +kernel
  have unbound : (cond early).failure? w = some (.error (.unbound "m")) := by decide +kernel
  exact ⟨same late (by decide +kernel) (by decide +kernel) (by decide +kernel) (by decide +kernel), ends,
    same early (by decide +kernel) (by decide +kernel) (by decide +kernel) (by decide +kernel), unassigned, unbound⟩

end CurriedLisp
