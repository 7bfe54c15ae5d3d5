import CurriedLisp.Proofs.Eval.Block
import CurriedLisp.Proofs.Eval.Definitions
import CurriedLisp.Proofs.Scope.Deferred

set_option autoImplicit false

namespace CurriedLisp

variable {ρ : Type}

namespace Deferred

def binding (b : String × Deferred) : Value := .ofList [.sym b.1, b.2.expr]

def definition (b : String × Deferred) : Value := .ofList [.sym "define", .sym b.1, b.2.expr]

def letForm (bindings : List (String × Deferred)) (forms : List Value) : Value :=
  .ofList (.sym "let" :: .ofList (bindings.map binding) :: forms)

theorem letForm_block (bindings : List (String × Deferred)) (forms : List Value) :
    letForm bindings forms = Block.letForm (bindings.map fun b => (b.1, b.2.expr)) forms := by
  rw [Block.letForm, List.map_map]
  rfl

theorem definitions_block (bindings : List (String × Deferred)) :
    bindings.map definition = (bindings.map fun b => (b.1, b.2.expr)).map Block.definition := by
  rw [List.map_map]
  rfl

end Deferred

section Runs

variable (reserve : Bool) (depth : Nat) (scope : Nat) (w : World ρ)

theorem evaluate_deferred (d : Deferred) :
    evaluate (.quiet reserve) (depth + 1) d.expr scope w =
      .ok (d.value scope w.store.closures) { w with store := if d.closes then w.store.addClosure else w.store } := by
  cases d with
  | lambda formals distinct forms =>
      rw [Deferred.expr, evaluate_form reserve depth (by decide : _ = some Keyword.lambda)]
      change Machine.runLambda _ scope (.ofList (formals.map .sym) :: forms) w = _
      rw [Machine.runLambda_written _ scope distinct]
      rfl
  | quoted v =>
      rw [Deferred.expr, evaluate_form reserve depth (by decide : _ = some Keyword.quote)]
      rfl
  | _ => exact congrFun (Machine.step_quiet (Machine.ofDepth_quiet reserve depth) _ scope) w

theorem evaluate_definition (b : String × Deferred) :
    evaluate (.quiet reserve) (depth + 2) (Deferred.definition b) scope w =
      .ok (b.2.value scope w.store.closures) { w with store := Store.bind scope w.store b } := by
  have inner := evaluate_deferred reserve depth scope w b.2
  rw [show Deferred.definition b = Block.definition (b.1, b.2.expr) from rfl, evaluate_define]
  simp only [bind, EStateM.bind, inner]
  rfl

theorem evaluate_definition_shallow {depth : Nat} (shallow : depth < 2) (b : String × Deferred) :
    evaluate (.quiet reserve) depth (Deferred.definition b) scope w = .error .tooDeep w := by
  cases depth with
  | zero => rfl
  | succ depth =>
      obtain rfl : depth = 0 := by omega
      rw [Deferred.definition, evaluate_form reserve 0 (by decide : _ = some Keyword.define)]
      rfl

theorem bindAll_deferred (bindings : List (String × Deferred)) :
    (Machine.ofDepth (.quiet reserve) (depth + 1)).bindAll scope (bindings.map fun b => (b.1, b.2.expr)) w =
      .ok () { w with store := bindings.foldl (Store.bind scope) w.store } := by
  induction bindings generalizing w with
  | nil => rfl
  | cons b rest ih =>
      have first := evaluate_deferred reserve depth scope w b.2
      simp only [List.map_cons, Machine.bindAll, Machine.ofDepth, bind, EStateM.bind, first]
      exact ih _

theorem sequence_definitions (last : Value) (bindings : List (String × Deferred)) :
    ∃ v, (Machine.ofDepth (.quiet reserve) (depth + 2)).sequence scope last (bindings.map Deferred.definition) w =
      .ok v { w with store := bindings.foldl (Store.bind scope) w.store } := by
  induction bindings generalizing w last with
  | nil => exact ⟨last, rfl⟩
  | cons b rest ih =>
      have first := evaluate_definition reserve depth scope w b
      simp only [List.map_cons, Machine.sequence, Machine.ofDepth, bind, EStateM.bind, first]
      exact ih _ _

end Runs

theorem perm_shapes {α : Type} {as bs : List α} (perm : as.Perm bs) :
    as = [] ∧ bs = [] ∨ ∃ a as' b bs', as = a :: as' ∧ bs = b :: bs' := by
  cases as with
  | nil => exact .inl ⟨rfl, List.nil_perm.mp perm⟩
  | cons a as' =>
      cases bs with
      | nil => exact absurd perm (by simp)
      | cons b bs' => exact .inr ⟨a, as', b, bs', rfl, rfl⟩

namespace Simulation

variable {R : Renaming} {p q : List String} {s t : Nat} {bindings bindings' : List (String × Deferred)}

abbrev reordered : Simulation := besides fun _ => none

theorem reordered_reserve {m₁ m₂ : Machine ρ} (quiet₁ : m₁.mode = .quiet true) (quiet₂ : m₂.mode = .quiet true)
    {names names' : List String} (same : ∀ name, name ∈ names ↔ name ∈ names') :
    reordered.Matches R p p s t (fun _ => Eq) (m₁.reserve s names) (m₂.reserve t names') := by
  intro w₁ w₂ besides
  rw [Machine.reserve_run, Machine.reserve_run, quiet₁, quiet₂]
  exact .ok (.steady (Store.reserveIf_extent true _ s names) (Store.reserveIf_extent true _ t names'))
    (besides.reserveAll same) rfl

variable (perm : bindings.Perm bindings') (names : (bindings.map (·.1)).Nodup)
  (alike : ∀ b ∈ bindings, b.2.expr.Alike R b.2.expr)

include perm names alike

theorem reordered_bindAll (depth : Nat) :
    reordered.Matches R p p s t (fun _ => Eq)
      ((Machine.ofDepth (.quiet true) depth : Machine ρ).bindAll s (bindings.map fun b => (b.1, b.2.expr)))
      ((Machine.ofDepth (.quiet true) depth : Machine ρ).bindAll t (bindings'.map fun b => (b.1, b.2.expr))) := by
  intro w₁ w₂ besides
  cases depth with
  | zero =>
      -- No expression can be evaluated, whichever comes first.
      obtain ⟨rfl, rfl⟩ | ⟨b, rest, b', rest', rfl, rfl⟩ := perm_shapes perm
      · exact .ok .refl besides rfl
      · exact .error .refl besides (.same .tooDeep)
  | succ depth =>
      obtain ⟨R', growth, next⟩ := besides.bindAll perm names alike
      rw [bindAll_deferred, bindAll_deferred]
      exact .ok growth next rfl

theorem reordered_definitions (depth : Nat) (last last' : Value) :
    reordered.Matches R p p s t (fun _ _ _ => True)
      ((Machine.ofDepth (.quiet true) depth : Machine ρ).sequence s last (bindings.map Deferred.definition))
      ((Machine.ofDepth (.quiet true) depth : Machine ρ).sequence t last' (bindings'.map Deferred.definition)) := by
  intro w₁ w₂ besides
  by_cases shallow : depth < 2
  · -- The first definition fails, whichever it is.
    obtain ⟨rfl, rfl⟩ | ⟨b, rest, b', rest', rfl, rfl⟩ := perm_shapes perm
    · exact .ok .refl besides trivial
    · have left := evaluate_definition_shallow true s w₁ shallow b
      have right := evaluate_definition_shallow true t w₂ shallow b'
      simp only [List.map_cons, Machine.sequence, Machine.ofDepth, Bind.bind, EStateM.bind, left, right]
      exact .error .refl besides (.same .tooDeep)
  · obtain ⟨depth, rfl⟩ : ∃ d, depth = d + 2 := ⟨depth - 2, by omega⟩
    obtain ⟨R', growth, next⟩ := besides.bindAll perm names alike
    obtain ⟨v, left⟩ := sequence_definitions true depth s w₁ last bindings
    obtain ⟨v', right⟩ := sequence_definitions true depth t w₂ last' bindings'
    rw [left, right]
    exact .ok growth next trivial

theorem reordered_let (depth : Nat) {forms : List Value} (body : List.Forall₂ (Value.Alike R) forms forms) :
    reordered.Matches R p p s t Value.Alike
      (evaluate (.quiet true) depth (Deferred.letForm bindings forms) s : Eval ρ Value)
      (evaluate (.quiet true) depth (Deferred.letForm bindings' forms) t : Eval ρ Value) := by
  cases depth with
  | zero => exact matches_throw (.same .tooDeep)
  | succ depth =>
      have pair : reordered.Pair (.ofDepth (.quiet true) depth : Machine ρ)
          (.ofDepth (.quiet true) depth : Machine ρ) := ofDepth_pair reordered (.inl rfl)
      have same (name : String) : name ∈ (bindings.map fun b => (b.1, b.2.expr)).map (·.1) ↔
          name ∈ (bindings'.map fun b => (b.1, b.2.expr)).map (·.1) := ((perm.map _).map _).mem_iff
      rw [Deferred.letForm_block, Deferred.letForm_block, evaluate_letForm, evaluate_letForm]
      refine matches_running fun running => matches_newScope (.quiet true) (.quiet true) running
        (fun _ _ => Evolution.admits_block pair.frame₁ _ _ _) (fun _ _ => Evolution.admits_block pair.frame₂ _ _ _)
        fun R₁ a b within₁ => ?_
      refine matches_bind (reordered_reserve rfl rfl same) fun R₂ _ _ within₂ _ => ?_
      have kept := R.within_trans within₁ within₂
      refine matches_bind (reordered_bindAll perm names (fun b member => (alike b member).mono kept) depth)
        fun R₃ _ _ within₃ _ => ?_
      exact matches_eval pair (.body (Value.Alike.list_mono (R.within_trans kept within₃) body))

omit perm names alike in
theorem reordered_forms {reserved reserved' : List String} {forms forms' : List Value}
    (same : ∀ name, name ∈ reserved ↔ name ∈ reserved')
    (run : ∀ R' depth, R.Within R' → reordered.Matches R' p q 0 0 Value.Alike
      ((Machine.ofDepth (.quiet true) depth : Machine ρ).sequence 0 .nil forms)
      ((Machine.ofDepth (.quiet true) depth : Machine ρ).sequence 0 .nil forms')) (depth : Nat) :
    reordered.Matches R p q 0 0 Value.Alike (evalForms (.quiet true) depth reserved forms : Eval ρ Value)
      (evalForms (.quiet true) depth reserved' forms' : Eval ρ Value) := by
  cases depth with
  | zero => exact matches_recover (besides_recovers _) (matches_throw (.same .tooDeep))
  | succ depth =>
      exact matches_recover (besides_recovers _)
        (matches_bind (reordered_reserve rfl rfl same) fun R' _ _ within _ => run R' depth within)

theorem reordered_program (depth : Nat) {forms : List Value} (some_ : forms ≠ [])
    (body : List.Forall₂ (Value.Alike R) forms forms) :
    reordered.Matches R p p 0 0 Value.Alike
      (evalForms (.quiet true) depth (Machine.definedNames (bindings.map Deferred.definition ++ forms))
        (bindings.map Deferred.definition ++ forms) : Eval ρ Value)
      (evalForms (.quiet true) depth (Machine.definedNames (bindings'.map Deferred.definition ++ forms))
        (bindings'.map Deferred.definition ++ forms) : Eval ρ Value) := by
  have defined (bindings : List (String × Deferred)) :
      Machine.definedNames (bindings.map Deferred.definition ++ forms) =
        bindings.map (·.1) ++ Machine.definedNames forms := by
    rw [Deferred.definitions_block, Block.definedNames_block, List.map_map]
    rfl
  refine reordered_forms (fun name => ?_) (fun R₁ depth within₁ => ?_) depth
  · rw [defined, defined, List.mem_append, List.mem_append]
    exact or_congr_left (perm.map _).mem_iff
  · have pair : reordered.Pair (.ofDepth (.quiet true) depth : Machine ρ) (.ofDepth (.quiet true) depth : Machine ρ) :=
      ofDepth_pair reordered (.inl rfl)
    rw [Machine.sequence_append, Machine.sequence_append]
    refine matches_bind (reordered_definitions perm names (fun b member => (alike b member).mono within₁) depth _ _)
      fun R₂ v v' within₂ _ => ?_
    rw [Machine.sequence_last _ 0 some_ v .nil, Machine.sequence_last _ 0 some_ v' .nil]
    exact matches_weaken (List.filter_subset_self _)
      (matches_sequence pair .nil (Value.Alike.list_mono (R.within_trans within₁ within₂) body))

theorem reordered_letText (depth : Nat) {forms : List Value} (body : List.Forall₂ (Value.Alike R) forms forms) :
    reordered.Matches R p p 0 0 Value.Alike
      (evalForms (.quiet true) depth (Machine.definedNames [Deferred.letForm bindings forms])
        [Deferred.letForm bindings forms] : Eval ρ Value)
      (evalForms (.quiet true) depth (Machine.definedNames [Deferred.letForm bindings' forms])
        [Deferred.letForm bindings' forms] : Eval ρ Value) := by
  refine reordered_forms (fun _ => Iff.rfl) (fun R₁ depth within₁ => ?_) depth
  refine matches_bind (reordered_let perm names (fun b member => (alike b member).mono within₁) depth
    (Value.Alike.list_mono within₁ body)) fun _ _ _ _ value => ?_
  exact matches_pure value

end Simulation

-- Ends of two runs from stores like `old` in which things are made or listed in another order.
inductive SameUpToOrder (old : Store) :
    EStateM.Result Failure (World ρ) Value → EStateM.Result Failure (World ρ) Value → Prop where
  | value {R : Renaming} {v v' : Value} {w w' : World ρ} : old.SameBindings R w.store w'.store → v.Alike R v' →
      v.text = v'.text → SameUpToOrder old (.ok v w) (.ok v' w')
  | failure {R : Renaming} {f f' : Failure} {w w' : World ρ} : old.SameBindings R w.store w'.store → f.Alike f' →
      SameUpToOrder old (.error f w) (.error f' w')

theorem Store.Besides.sameBindings {old σ τ : Store} {R : Renaming} {s t : Nat}
    (within : (Renaming.identity old).Within R) (besides : Besides (fun _ => none) R s t σ τ) :
    old.SameBindings R σ τ where
  scopes i present := within.1 i i ⟨rfl, present⟩
  closures i made := within.2 i i ⟨rfl, made⟩
  outer := besides.aligned.outer
  bindings a b related name := assigned_rel (besides.contents a b related name).related
  visible a b related name := by
    rw [lookup_assigned, lookup_assigned]
    exact assigned_rel ((besides.cells name related).resolve_right fun more => by cases more.1)

theorem Simulation.sameUpToOrder {p q : List String} {scope : Nat} {x y : Eval ρ Value} {w : World ρ}
    (run : reordered.Matches (Renaming.identity w.store) p q scope scope Value.Alike x y) (sound : w.store.Sound)
    (present : scope < w.store.scopes.size) : SameUpToOrder w.store (x w) (y w) := by
  have outcome := run w w (sound.besides present)
  generalize x w = r, y w = r' at outcome ⊢
  cases outcome with
  | ok growth next alike => exact .value (next.sameBindings growth.within) alike alike.text
  | error growth next alike => exact .failure (next.sameBindings growth.within) alike
  | excused₁ excuse =>
      obtain ⟨e, name, _, _, more⟩ := excuse
      cases more
  | excused₂ never => exact never.elim

/-- The order of deferred bindings does not matter. A `let` form of procedures, quotations and literals under distinct
names does the same, in any scope that there is, when its bindings are permuted; and so does a program that begins with
such definitions, whatever forms follow. -/
theorem deferred_bindings_commute (depth₀ : Nat) (steps : List (Mode ρ × String))
    {bindings bindings' : List (String × Deferred)} (perm : bindings.Perm bindings')
    (names : (bindings.map (·.1)).Nodup) {forms : List Value}
    (belongs : ∀ v ∈ bindings.map (·.2.expr) ++ forms, v.Belongs (session depth₀ steps (World.start : World ρ)).store)
    (depth : Nat) :
    let w : World ρ := session depth₀ steps .start
    let run (expr : Value) (scope : Nat) : Eval ρ Value := evaluate (.quiet true) depth expr scope
    let answer (code : String) : Eval ρ Value := evalText (.quiet true) depth code
    let reads (code : String) (forms : List Value) : Prop :=
      Reader.parse depth code = .ok (.pair (.sym "begin") (.ofList forms))
    (∀ scope, scope < w.store.scopes.size → SameUpToOrder w.store (run (Deferred.letForm bindings forms) scope w)
      (run (Deferred.letForm bindings' forms) scope w)) ∧
    (∀ a b, reads a [Deferred.letForm bindings forms] → reads b [Deferred.letForm bindings' forms] →
      SameUpToOrder w.store (answer a w) (answer b w)) ∧
    (∀ a b, forms ≠ [] → reads a (bindings.map Deferred.definition ++ forms) →
      reads b (bindings'.map Deferred.definition ++ forms) → SameUpToOrder w.store (answer a w) (answer b w)) := by
  intro w run answer reads
  have sound : w.store.Sound := session_sound depth₀ steps
  have root : 0 < w.store.scopes.size := session_present depth₀ steps
  have alike : ∀ b ∈ bindings, b.2.expr.Alike (Renaming.identity w.store) b.2.expr := fun b member =>
    (belongs b.2.expr (List.mem_append_left _ (List.mem_map.mpr ⟨b, member, rfl⟩))).alike
  have body : List.Forall₂ (Value.Alike (Renaming.identity w.store)) forms forms :=
    List.forall₂_same.mpr fun v member => (belongs v (List.mem_append_right _ member)).alike
  refine ⟨fun scope present => ?_, fun a b left right => ?_, fun a b some_ left right => ?_⟩
  · exact Simulation.sameUpToOrder (p := []) (Simulation.reordered_let perm names alike depth body) sound present
  · change SameUpToOrder w.store (evalText (.quiet true) depth a w) (evalText (.quiet true) depth b w)
    rw [evalText_forms true left, evalText_forms true right]
    exact Simulation.sameUpToOrder (p := []) (Simulation.reordered_letText perm names alike depth body) sound root
  · change SameUpToOrder w.store (evalText (.quiet true) depth a w) (evalText (.quiet true) depth b w)
    rw [evalText_forms true left, evalText_forms true right]
    exact Simulation.sameUpToOrder (p := []) (Simulation.reordered_program perm names alike depth some_ body) sound root

-- Procedures that call each other, of which one takes the name of a primitive, and a literal that the body gives them.
theorem deferred_bindings_commute_mutual :
    let n := Value.sym "n"
    let k := ("k", Deferred.bool true)
    let f := ("f", Deferred.lambda ["n"] (by decide) [.ofList [.sym "if", n, .ofList [.sym "not", .bool false], n]])
    let not := ("not", Deferred.lambda ["n"] (by decide) [.ofList [.sym "f", n]])
    let forms := [Value.ofList [.sym "f", .sym "k"]]
    let a := "(define k #true) (define f (lambda (n) (if n (not #false) n))) (define not (lambda (n) (f n))) (f k)"
    let b := "(define not (lambda (n) (f n))) (define f (lambda (n) (if n (not #false) n))) (define k #true) (f k)"
    let w : World String := session 9 [(.program true, "(define k 1) (f k)")] .start
    let answer (code : String) : Eval String Value := evalText (.quiet true) 15 code
    [k, f, not].Perm [not, f, k] ∧ ([k, f, not].map (·.1)).Nodup ∧ (answer a).failure? w = none ∧
      SameUpToOrder w.store (answer a w) (answer b w) ∧
      SameUpToOrder w.store (evaluate (.quiet true) 15 (Deferred.letForm [k, f, not] forms) 0 w)
        (evaluate (.quiet true) 15 (Deferred.letForm [not, f, k] forms) 0 w) := by
  intro n k f not forms a b w answer
  have perm : [k, f, not].Perm [not, f, k] := (List.reverse_perm _).symm
  have names : ([k, f, not].map (·.1)).Nodup := by decide
  have belongs : ∀ v ∈ [k, f, not].map (·.2.expr) ++ forms, v.Belongs w.store := by decide +kernel
  have root := session_present 9 [(Mode.program true, "(define k 1) (f k)")]
  have left : Reader.parse 15 a =
      .ok (.pair (.sym "begin") (.ofList ([k, f, not].map Deferred.definition ++ forms))) := by decide +kernel
  have right : Reader.parse 15 b =
      .ok (.pair (.sym "begin") (.ofList ([not, f, k].map Deferred.definition ++ forms))) := by decide +kernel
  obtain ⟨inForm, _, inText⟩ := deferred_bindings_commute 9 [(Mode.program true, "(define k 1) (f k)")] perm names
    belongs 15
  have ends : (answer a).failure? w = none := by decide +kernel
  exact ⟨perm, names, ends, inText a b (List.cons_ne_nil _ _) left right, inForm 0 root⟩

end CurriedLisp
