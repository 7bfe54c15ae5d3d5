import CurriedLisp.Proofs.Eval.Chunks

set_option autoImplicit false

namespace CurriedLisp

variable {ρ α β γ : Type}

namespace Block

def binding (b : String × Value) : Value := .ofList [.sym b.1, b.2]

def definition (b : String × Value) : Value := .ofList [.sym "define", .sym b.1, b.2]

def letForm (bindings : List (String × Value)) (forms : List Value) : Value :=
  .ofList (.sym "let" :: .ofList (bindings.map binding) :: forms)

def call (forms : List Value) : Value := .ofList [.ofList (.sym "lambda" :: .nil :: forms)]

theorem definedNames_definitions (bindings : List (String × Value)) :
    Machine.definedNames (bindings.map definition) = bindings.map (·.1) := by
  rw [Machine.definedNames, List.filterMap_map]
  exact congrFun List.filterMap_eq_map bindings

theorem definedNames_block (bindings : List (String × Value)) (forms : List Value) :
    Machine.definedNames (bindings.map definition ++ forms) = bindings.map (·.1) ++ Machine.definedNames forms := by
  rw [← definedNames_definitions]
  exact List.filterMap_append

end Block

namespace Machine

theorem mapM_map_pure {f : β → Eval ρ γ} {g : α → β} {h : α → γ} (each : ∀ a, f (g a) = pure (h a)) (as : List α) :
    (as.map g).mapM f = pure (as.map h) := by
  induction as with
  | nil => rfl
  | cons a rest ih => rw [List.map_cons, List.mapM_cons, each, pure_bind, ih, pure_bind, List.map_cons]

theorem binding_written (m : Machine ρ) (b : String × Value) : m.binding (Block.binding b) = pure b := by
  rw [binding, Block.binding, elements_ofList, pure_bind]

theorem runLambda_written (m : Machine ρ) (scope : Nat) {formals : List String} (distinct : formals.Nodup)
    (forms : List Value) :
    m.runLambda scope (.ofList (formals.map .sym) :: forms) = Eval.newClosure formals (.body forms) scope := by
  have names : (formals.map Value.sym).mapM m.formal = pure formals := by
    simpa using mapM_map_pure (fun name => (rfl : m.formal (.sym name) = pure name)) formals
  rw [runLambda, elements_ofList, pure_bind, names, pure_bind, if_pos distinct]

theorem apply_thunk {m : Machine ρ} {reserve : Bool} (quiet : m.mode = .quiet reserve) (id : Nat) (body : Value)
    (captured : Nat) :
    m.apply (.closure id [] body captured) [] = Eval.newScope (some captured) >>= m.eval body := by
  rw [apply, note_quiet quiet, pure_bind]
  simp only [applyClosure, note_quiet quiet, List.length_nil, Nat.lt_irrefl, if_false, pure_bind]
  rfl

theorem reserve_nothing (m : Machine ρ) (scope : Nat) : m.reserve scope [] = pure () := by
  funext w
  rw [reserve_run, List.foldl_nil, ite_self]
  rfl

end Machine

section Equations

variable (reserve : Bool) (depth : Nat) (scope : Nat)

theorem evaluate_letForm (bindings : List (String × Value)) (forms : List Value) :
    (evaluate (.quiet reserve) (depth + 1) (Block.letForm bindings forms) scope : Eval ρ Value) =
      Eval.newScope (some scope) >>= fun inner =>
        (Machine.ofDepth (.quiet reserve) depth).reserve inner (bindings.map (·.1)) >>= fun _ =>
          (Machine.ofDepth (.quiet reserve) depth).bindAll inner bindings >>= fun _ =>
            evaluate (.quiet reserve) depth (.body forms) inner := by
  rw [Block.letForm, evaluate_form reserve depth (by decide : _ = some Keyword.letIn)]
  change Machine.runLet _ scope (.ofList (bindings.map Block.binding) :: forms) = _
  rw [Machine.runLet, Machine.elements_ofList, pure_bind,
    Machine.mapM_map_pure (h := id) (Machine.binding_written (.ofDepth (.quiet reserve) depth)), pure_bind, List.map_id]
  rfl

theorem evaluate_define (b : String × Value) :
    (evaluate (.quiet reserve) (depth + 1) (Block.definition b) scope : Eval ρ Value) =
      evaluate (.quiet reserve) depth b.2 scope >>= fun v => Eval.define scope b.1 v >>= fun _ => pure v := by
  rw [Block.definition, evaluate_form reserve depth (by decide : _ = some Keyword.define)]
  rfl

theorem evaluate_call (forms : List Value) :
    (evaluate (.quiet reserve) (depth + 2) (Block.call forms) scope : Eval ρ Value) =
      Eval.newClosure [] (.body forms) scope >>= fun _ =>
        Eval.newScope (some scope) >>= evaluate (.quiet reserve) (depth + 1) (.body forms) := by
  let m : Machine ρ := Machine.ofDepth (.quiet reserve) (depth + 1)
  have quiet : m.mode = .quiet reserve := Machine.ofDepth_quiet reserve (depth + 1)
  have made : m.eval (.ofList (.sym "lambda" :: .nil :: forms)) scope = Eval.newClosure [] (.body forms) scope := by
    refine (evaluate_form reserve depth (by decide : _ = some Keyword.lambda) _ scope).trans ?_
    exact Machine.runLambda_written _ scope .nil forms
  have called : m.run (Block.call forms) scope =
      m.eval (.ofList (.sym "lambda" :: .nil :: forms)) scope >>= fun proc => m.apply proc [] := by
    refine (Machine.run_call (fun _ never => Value.noConfusion never) (.ofList []) scope).trans ?_
    simp only [Machine.runCall, Machine.elements_ofList, List.mapM_nil, pure_bind]
  have applied (w : World ρ) := congrFun (Machine.apply_thunk quiet w.store.closures (.body forms) scope) w.addClosure
  change m.step (Block.call forms) scope = _
  rw [Machine.step_quiet quiet, called, made]
  exact funext applied

theorem evaluate_body {forms : List Value} (some_ : forms ≠ []) :
    ∃ inner names, names ⊆ Machine.definedNames forms ∧
      (evaluate (.quiet reserve) (depth + 1) (.body forms) scope : Eval ρ Value) =
        (Machine.ofDepth (.quiet reserve) inner).reserve scope names >>= fun _ =>
          (Machine.ofDepth (.quiet reserve) inner).sequence scope .nil forms := by
  cases forms with
  | nil => exact absurd rfl some_
  | cons form rest =>
      cases rest with
      | nil =>
          have alone : (Machine.ofDepth (.quiet reserve) (depth + 1) : Machine ρ).sequence scope .nil [form] =
              evaluate (.quiet reserve) (depth + 1) form scope := by
            simp only [Machine.sequence, bind_pure]
            rfl
          exact ⟨depth + 1, [], List.nil_subset _, by rw [Machine.reserve_nothing, pure_bind, alone]; rfl⟩
      | cons next rest =>
          exact ⟨depth, _, List.Subset.refl _, evaluate_form reserve depth (by decide : _ = some Keyword.begin) _ scope⟩

end Equations

theorem Store.Agree.closureRight {R : Renaming} {p : List String} {s t : Nat} {σ τ : Store}
    (agree : Agree R p s t σ τ) : Agree R p s t σ τ.addClosure := by
  have same (name : String) (i : Nat) : τ.addClosure.cell name i = τ.cell name i :=
    cell_congr (t := τ.addClosure) agree.ordered₂ agree.ordered₂ fun _ _ => ⟨rfl, rfl⟩
  refine { agree with
    closures := fun i j related => ⟨(agree.closures i j related).1, Nat.lt_succ_of_lt (agree.closures i j related).2⟩
    contents := fun a b related name => (agree.contents a b related name).imp_right fun loose => ?_ }
  exact { loose with blank₂ := (congrArg assigned? (same name b)).trans loose.blank₂ }

namespace Simulation

abbrev loosely : Simulation := agreeing true true True

variable {R : Renaming} {p q : List String} {s t : Nat} {same : Renaming → α → β → Prop}

theorem loosely_depths (d e : Nat) : loosely.Depths d e := .inr ⟨⟨rfl, trivial⟩, rfl, trivial⟩

theorem loosely_deep₁ (y : Eval ρ β) :
    loosely.Matches R p q s t same (throw .tooDeep : Eval ρ α) y := fun _ _ _ => .excused₁ ⟨rfl, trivial⟩

theorem loosely_deep₂ (x : Eval ρ α) :
    loosely.Matches R p q s t same x (throw .tooDeep : Eval ρ β) := fun _ _ _ => .excused₂ ⟨rfl, trivial⟩

-- On the right a closure may be made of which nothing is heard again.
theorem loosely_closureRight {x : Eval ρ α} {y : Eval ρ β} (formals : List String) (body : Value) (scope : Nat)
    (run : loosely.Matches R p q s t same x y) :
    loosely.Matches R p q s t same x (Eval.newClosure formals body scope >>= fun _ => y) := by
  intro w₁ w₂ agree
  have growth : Growth R w₁.store w₂.store R w₁.store w₂.addClosure.store :=
    { Growth.refl with closures₂ := Nat.le_succ _ }
  exact outcome_growth growth (run w₁ w₂.addClosure agree.closureRight)

theorem loosely_definitions (d e : Nat) (last : Value) {bindings : List (String × Value)}
    (alike : ∀ b ∈ bindings, b.2.Alike R b.2) :
    loosely.Matches R p (p.filter (· ∉ bindings.map (·.1))) s t (fun _ _ _ => True)
      ((Machine.ofDepth (.quiet true) d : Machine ρ).bindAll s bindings)
      ((Machine.ofDepth (.quiet true) e : Machine ρ).sequence t last (bindings.map Block.definition)) := by
  induction bindings generalizing R p last with
  | nil => exact matches_weaken (by simp) (matches_pure trivial)
  | cons b rest ih =>
      cases e with
      | zero => exact loosely_deep₂ _
      | succ e =>
          have pair : loosely.Pair (.ofDepth (.quiet true) d : Machine ρ) (.ofDepth (.quiet true) e : Machine ρ) :=
            ofDepth_pair loosely (loosely_depths d e)
          have defined : (Machine.ofDepth (.quiet true) (e + 1) : Machine ρ).sequence t last
              ((b :: rest).map Block.definition) =
              evaluate (.quiet true) e b.2 t >>= fun v => Eval.define t b.1 v >>= fun _ =>
                (Machine.ofDepth (.quiet true) (e + 1)).sequence t v (rest.map Block.definition) := by
            refine (congrArg (· >>= _) (evaluate_define true e t b)).trans ?_
            simp only [bind_assoc, pure_bind]
          rw [defined]
          refine matches_bind (matches_eval pair (alike b List.mem_cons_self)) fun R₁ v v' within₁ value =>
            matches_bind (matches_define b.1 value) fun R₂ _ _ within₂ _ => matches_weaken ?_
              (ih v' fun a member => (alike a (List.mem_cons_of_mem _ member)).mono (R.within_trans within₁ within₂))
          intro name member
          simpa [and_comm, and_assoc] using member

theorem loosely_body (d e : Nat) (last : Value) {forms : List Value} (some_ : forms ≠ [])
    (alike : ∀ form ∈ forms, form.Alike R form) :
    loosely.Matches R p (Machine.leftUndefined forms p) s t Value.Alike
      (evaluate (.quiet true) d (.body forms) s : Eval ρ Value)
      ((Machine.ofDepth (.quiet true) e : Machine ρ).sequence t last forms) := by
  cases d with
  | zero => exact loosely_deep₁ _
  | succ d =>
      obtain ⟨inner, names, defined, evaluated⟩ := evaluate_body (ρ := ρ) true d s some_
      have pair : loosely.Pair (.ofDepth (.quiet true) inner : Machine ρ) (.ofDepth (.quiet true) e : Machine ρ) :=
        ofDepth_pair loosely (loosely_depths inner e)
      have whole : (Machine.ofDepth (.quiet true) e : Machine ρ).sequence t last forms =
          (Machine.ofDepth (.quiet true) e).reserve t [] >>= fun _ =>
            (Machine.ofDepth (.quiet true) e).sequence t .nil forms := by
        rw [Machine.reserve_nothing, pure_bind, Machine.sequence_last _ t some_ last .nil]
      rw [evaluated, whole]
      refine agreeing_reserve rfl rfl names [] (matches_weaken ?_
        (matches_sequence pair .nil (List.forall₂_same.mpr alike)))
      intro name member
      simp only [Machine.leftUndefined, List.nil_append, List.mem_filter, List.mem_append, decide_eq_true_eq] at member ⊢
      exact ⟨member.1.resolve_left fun reserved => member.2 (defined reserved), member.2⟩

theorem loosely_block (d e : Nat) {bindings : List (String × Value)} {forms : List Value} (some_ : forms ≠ [])
    (alike : ∀ v ∈ bindings.map (·.2) ++ forms, v.Alike R v) :
    loosely.Matches R [] [] s t Value.Alike
      ((Machine.ofDepth (.quiet true) d).reserve s (bindings.map (·.1)) >>= fun _ =>
        (Machine.ofDepth (.quiet true) d).bindAll s bindings >>= fun _ =>
          (evaluate (.quiet true) d (.body forms) s : Eval ρ Value))
      (evaluate (.quiet true) (e + 1) (.body (bindings.map Block.definition ++ forms)) t : Eval ρ Value) := by
  obtain ⟨inner, names, defined, evaluated⟩ :=
    evaluate_body (ρ := ρ) true e t (List.append_ne_nil_of_right_ne_nil (bindings.map Block.definition) some_)
  rw [evaluated]
  refine agreeing_reserve rfl rfl _ names ?_
  rw [Machine.sequence_append]
  refine matches_bind (loosely_definitions d inner .nil fun b member =>
    alike b.2 (List.mem_append_left _ (List.mem_map.mpr ⟨b, member, rfl⟩))) fun R' _ v within _ => matches_weaken ?_
      (loosely_body d inner v some_ fun form member => (alike form (List.mem_append_right _ member)).mono within)
  -- What was reserved is bound, or defined by a form of the body.
  intro name member
  rw [Block.definedNames_block] at defined
  simp only [Machine.leftUndefined, List.append_nil, List.mem_filter, List.mem_append, decide_eq_true_eq] at member
  obtain ⟨⟨reserved, unbound⟩, undefined⟩ := member
  have known : name ∈ bindings.map (·.1) ++ Machine.definedNames forms :=
    reserved.elim (fun left => defined left) (List.mem_append_left _)
  exact absurd ((List.mem_append.mp known).resolve_left unbound) undefined

theorem loosely_let (depth depth' : Nat) {bindings : List (String × Value)} {forms : List Value} (some_ : forms ≠ [])
    (alike : ∀ v ∈ bindings.map (·.2) ++ forms, v.Alike R v) :
    loosely.Matches R p p s t Value.Alike
      (evaluate (.quiet true) depth (Block.letForm bindings forms) s : Eval ρ Value)
      (evaluate (.quiet true) depth' (Block.call (bindings.map Block.definition ++ forms)) t : Eval ρ Value) := by
  cases depth with
  | zero => exact loosely_deep₁ _
  | succ d =>
      cases depth' with
      | zero => exact loosely_deep₂ _
      | succ depth' =>
          cases depth' with
          | zero => exact loosely_deep₂ _
          | succ e =>
              rw [evaluate_letForm, evaluate_call]
              refine loosely_closureRight _ _ _ (matches_running fun running => ?_)
              exact matches_newScope (.quiet true) (.quiet true) running
                (fun _ _ => Evolution.admits_block ((Evolution.frame _).evaluate_rel d) _ _ _)
                (fun _ _ => Evolution.admits_eval (m := .ofDepth (.quiet true) (e + 1))
                  ((Evolution.frame _).evaluate_rel (e + 1)) _)
                fun R' a b within => loosely_block d e some_ fun v member => (alike v member).mono within

end Simulation

theorem evaluate_letForm_kept (depth scope : Nat) (bindings : List (String × Value)) (forms : List Value)
    (w : World ρ) :
    w.store.Kept ((evaluate (.quiet true) depth (Block.letForm bindings forms) scope).after w).store := by
  cases depth with
  | zero => exact fun _ _ => rfl
  | succ d =>
      rw [evaluate_letForm]
      exact newScope_kept (.quiet true) (some scope)
        (fun _ _ => Evolution.admits_block ((Evolution.frame _).evaluate_rel d) _ _ _) w

theorem evaluate_call_kept (depth scope : Nat) (forms : List Value) (w : World ρ) :
    w.store.Kept ((evaluate (.quiet true) depth (Block.call forms) scope).after w).store := by
  cases depth with
  | zero => exact fun _ _ => rfl
  | succ depth =>
      cases depth with
      | zero => exact fun _ _ => rfl
      | succ d =>
          rw [evaluate_call]
          exact newScope_kept (.quiet true) (some scope)
            (fun _ _ => Evolution.admits_eval (m := .ofDepth (.quiet true) (d + 1))
              ((Evolution.frame _).evaluate_rel (d + 1)) _) w.addClosure

/-- A `let` form does what the call of a procedure does whose body defines the same names to the same expressions and
then goes on with the same forms: in any scope, unless one of them needs more depth than it has, they give the same
value, or fail alike but for why a name has no value. Both leave all scopes that there were before as they were. -/
theorem let_agrees_with_definitions (depth₀ : Nat) (steps : List (Mode ρ × String))
    {bindings : List (String × Value)} {forms : List Value} (some_ : forms ≠ [])
    (belongs : ∀ v ∈ bindings.map (·.2) ++ forms, v.Belongs (session depth₀ steps (World.start : World ρ)).store)
    {scope : Nat} (present : scope < (session depth₀ steps (World.start : World ρ)).store.scopes.size)
    (depth depth' : Nat) :
    let w : World ρ := session depth₀ steps .start
    let inForm : Eval ρ Value := evaluate (.quiet true) depth (Block.letForm bindings forms) scope
    let inCall : Eval ρ Value :=
      evaluate (.quiet true) depth' (Block.call (bindings.map Block.definition ++ forms)) scope
    (inForm.Fits w → inCall.Fits w → SameAnswer w.store (inForm w) (inCall w)) ∧
      w.store.Kept (inForm.after w).store ∧ w.store.Kept (inCall.after w).store := by
  intro w inForm inCall
  have agree := (session_sound depth₀ steps).agree present
  have matched : Simulation.loosely.Matches (Renaming.identity w.store) [] [] scope scope Value.Alike inForm inCall :=
    Simulation.loosely_let depth depth' some_ fun v member => (belongs v member).alike
  refine ⟨fun fits fits' => ?_, evaluate_letForm_kept depth scope bindings forms w,
    evaluate_call_kept depth' scope _ w⟩
  exact Simulation.sameAnswer_of_fits matched (fun _ => ⟨fits, fits'⟩) (Renaming.within_refl _) agree

-- A name that is bound twice, to a procedure that calls for what the body defines later on; and a name of the body
-- that is called for too early, which only the call has reserved by then.
theorem let_agrees_with_definitions_twice :
    let steps := [(Mode.program true, "((lambda (n) n) 7)")]
    let w : World String := session 12 steps .start
    let thunk := Value.ofList [.sym "lambda", .nil, .ofList [.sym "+", .sym "n", .sym "m"]]
    let twice := [("f", Value.ofList [.sym "quote", .sym "f"]), ("n", .ofList [.sym "if", .sym "n", .int 5]), ("f", thunk)]
    let defining := [Value.ofList [.sym "define", .sym "m", .sym "n"], .ofList [.sym "f"]]
    let early := [("a", Value.sym "m")]
    let inForm (bindings : List (String × Value)) : Eval String Value :=
      evaluate (.quiet true) 12 (Block.letForm bindings defining) 1
    let inCall (bindings : List (String × Value)) : Eval String Value :=
      evaluate (.quiet true) 12 (Block.call (bindings.map Block.definition ++ defining)) 1
    SameAnswer w.store (inForm twice w) (inCall twice w) ∧ (inForm twice).failure? w = none ∧
      SameAnswer w.store (inForm early w) (inCall early w) ∧
      (inForm early).failure? w = some (.error (.unbound "m")) ∧
      (inCall early).failure? w = some (.error (.unassigned "m")) := by
  intro steps w thunk twice defining early inForm inCall
  have some_ : defining ≠ [] := List.cons_ne_nil _ _
  have present : 1 < (session 12 steps (World.start : World String)).store.scopes.size := by decide +kernel
  have same (bindings : List (String × Value)) (belongs : ∀ v ∈ bindings.map (·.2) ++ defining,
      v.Belongs (session 12 steps (World.start : World String)).store) (fits : (inForm bindings).Fits w)
      (fits' : (inCall bindings).Fits w) : SameAnswer w.store (inForm bindings w) (inCall bindings w) :=
    (let_agrees_with_definitions 12 steps some_ belongs present 12 12).1 fits fits'
  have ends : (inForm twice).failure? w = none := by decide +kernel
  have unbound : (inForm early).failure? w = some (.error (.unbound "m")) := by decide +kernel
  have unassigned : (inCall early).failure? w = some (.error (.unassigned "m")) := by decide +kernel
  exact ⟨same twice (by decide +kernel) (by decide +kernel) (by decide +kernel), ends,
    same early (by decide +kernel) (by decide +kernel) (by decide +kernel), unbound, unassigned⟩

end CurriedLisp
