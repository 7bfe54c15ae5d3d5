import CurriedLisp.Proofs.Eval.Deeper
import CurriedLisp.Proofs.Eval.Outcome
import CurriedLisp.Proofs.Eval.Wellformed
import Mathlib.Data.List.Induction

set_option autoImplicit false

/-!
Currying. A closure may get its arguments in one application or in groups, one application for each group. The
groups leave their values in hidden scopes, where a single application has all of them in one scope; no program can
tell the difference.
-/

namespace CurriedLisp

variable {ρ α β α' β' : Type}

def curried (f : Value) (groups : List (List Value)) : Value :=
  groups.foldl (fun head group => .pair head (.ofList group)) f

-- How two runs end that began with renaming `R`, when further scopes may have been hidden meanwhile.
inductive Ends (R : Renaming) (same : Renaming → List (Nat × Scope) → α → β → Prop) :
    EStateM.Result Failure (World ρ) α → EStateM.Result Failure (World ρ) β → Prop where
  | ok {R' : Renaming} {hidden : List (Nat × Scope)} {a : α} {b : β} {w w' : World ρ} : R.Within R' →
      Store.Similar R' hidden w.store w'.store → same R' hidden a b → Ends R same (.ok a w) (.ok b w')
  | error {R' : Renaming} {hidden : List (Nat × Scope)} {f g : Failure} {w w' : World ρ} : R.Within R' →
      Store.Similar R' hidden w.store w'.store → f.Alike g → Ends R same (.error f w) (.error g w')
  | deep₁ {w : World ρ} {r : EStateM.Result Failure (World ρ) β} : Ends R same (.error .tooDeep w) r
  | deep₂ {w : World ρ} {r : EStateM.Result Failure (World ρ) α} : Ends R same r (.error .tooDeep w)

section Ends

variable {R : Renaming} {same : Renaming → List (Nat × Scope) → α → β → Prop}
  {same' : Renaming → List (Nat × Scope) → α' → β' → Prop}

theorem Ends.within {R₀ : Renaming} {r : EStateM.Result Failure (World ρ) α} {r' : EStateM.Result Failure (World ρ) β}
    (ends : Ends R same r r') (within : R₀.Within R) : Ends R₀ same r r' := by
  cases ends with
  | ok more similar alike => exact .ok (R₀.within_trans within more) similar alike
  | error more similar alike => exact .error (R₀.within_trans within more) similar alike
  | deep₁ => exact .deep₁
  | deep₂ => exact .deep₂

theorem Ends.bind {x : Eval ρ α} {y : Eval ρ β} {f : α → Eval ρ α'} {g : β → Eval ρ β'} {w w' : World ρ}
    (first : Ends R same (x w) (y w'))
    (rest : ∀ R' hidden a b u u', R.Within R' → Store.Similar R' hidden u.store u'.store → same R' hidden a b →
      Ends R' same' (f a u) (g b u')) :
    Ends R same' ((x >>= f) w) ((y >>= g) w') := by
  simp only [Bind.bind, EStateM.bind]
  generalize x w = r, y w' = r' at first ⊢
  cases first with
  | ok within similar alike => exact (rest _ _ _ _ _ _ within similar alike).within within
  | error within similar alike => exact .error within similar alike
  | deep₁ => exact .deep₁
  | deep₂ => exact .deep₂

theorem Ends.imp {same' : Renaming → List (Nat × Scope) → α → β → Prop} {r : EStateM.Result Failure (World ρ) α}
    {r' : EStateM.Result Failure (World ρ) β} (ends : Ends R same r r')
    (stronger : ∀ R' hidden a b u u', r = .ok a u → r' = .ok b u' → same R' hidden a b → same' R' hidden a b) :
    Ends R same' r r' := by
  cases ends with
  | ok within similar alike => exact .ok within similar (stronger _ _ _ _ _ _ rfl rfl alike)
  | error within similar alike => exact .error within similar alike
  | deep₁ => exact .deep₁
  | deep₂ => exact .deep₂

theorem ends_of_matches {reserve : Bool} {hidden : List (Nat × Scope)} {excuse : Prop} {given : Renaming → α → β → Prop}
    {p q : List String} {s t : Nat} {x : Eval ρ α} {y : Eval ρ β} {w w' : World ρ}
    (run : (Simulation.similar reserve hidden excuse).Matches R p q s t given x y) (running : R.scopes s t)
    (similar : Store.Similar R hidden w.store w'.store) :
    Ends R (fun R' hidden' a b => hidden' = hidden ∧ given R' a b) (x w) (y w') := by
  have outcome := run w w' ⟨running, similar⟩
  generalize x w = r, y w' = r' at outcome ⊢
  cases outcome with
  | ok growth related alike => exact .ok growth.within related.2 ⟨rfl, alike⟩
  | error growth related alike => exact .error growth.within related.2 alike
  | excused₁ excused =>
      cases excused.1
      exact .deep₁
  | excused₂ excused =>
      cases excused.1
      exact .deep₂

theorem ends_evaluate (reserve : Bool) {hidden : List (Nat × Scope)} (d e : Nat) {expr expr' : Value} {s t : Nat}
    {σ τ : Store} {ρs τs : List ρ} (alike : expr.Alike R expr') (running : R.scopes s t)
    (similar : Store.Similar R hidden σ τ) :
    Ends R (fun R' hidden' v v' => hidden' = hidden ∧ v.Alike R' v')
      (evaluate (.quiet reserve) d expr s ⟨σ, ρs⟩) (evaluate (.quiet reserve) e expr' t ⟨τ, τs⟩) :=
  ends_of_matches (Simulation.similar_matches reserve hidden d e alike) running similar

end Ends

-- The closure and the arguments of an application, against the closure that has got these arguments in groups.
inductive Awaits (R : Renaming) (hidden : List (Nat × Scope)) : List String → Value × List Value → Value → Prop where
  | intro {id id' captured captured' scope : Nat} {given rest : List String} {body body' : Value} {vs : List Value}
      {extra : List (String × Value)} : given.length = vs.length → body.Alike R body' → R.scopes captured captured' →
      Through hidden (some scope) extra (some captured') →
      (∀ name, Option.Rel (Value.Alike R) ((given.zip vs).reverse.lookup name) (extra.lookup name)) →
      Awaits R hidden (given ++ rest) (.closure id (given ++ rest) body captured, vs) (.closure id' rest body' scope)

theorem Awaits.mono {R R' : Renaming} {hidden : List (Nat × Scope)} {formals : List String} {p : Value × List Value}
    {v : Value} (within : R.Within R') (awaits : Awaits R hidden formals p v) : Awaits R' hidden formals p v := by
  cases awaits with
  | intro lengths body captured through held =>
      exact .intro lengths (body.mono within) (within.1 _ _ captured) through
        fun name => rel_imp (fun _ _ alike => alike.mono within) (held name)

namespace Machine

def gather (m : Machine ρ) (f : Value) (args : List Value) (scope : Nat) : Eval ρ (Value × List Value) := do
  let proc ← m.eval f scope
  let vs ← args.mapM (m.eval · scope)
  return (proc, vs)

theorem gather_append (m : Machine ρ) (f : Value) (args more : List Value) (scope : Nat) :
    m.gather f (args ++ more) scope = m.gather f args scope >>= fun p =>
      more.mapM (m.eval · scope) >>= fun us => pure (p.1, p.2 ++ us) := by
  simp only [gather, List.mapM_append, bind_assoc, pure_bind]

theorem runCall_ofList (m : Machine ρ) (f : Value) (args : List Value) (scope : Nat) :
    m.runCall f (.ofList args) scope = m.gather f args scope >>= fun p => m.apply p.1 p.2 := by
  simp only [runCall, gather, elements_ofList, bind_assoc, pure_bind]

theorem newScope_defineAll (captured : Nat) (bindings : List (String × Value)) (rest : Nat → Eval ρ α) (w : World ρ) :
    (Eval.newScope (some captured) >>= fun scope => defineAll scope bindings >>= fun _ => rest scope) w =
      rest w.store.scopes.size
        { w with store := w.store.addFrame (Store.assignAll bindings []) (some captured) } := by
  rw [← Store.defineAll_addFrame]
  rfl

variable {m : Machine ρ} {reserve : Bool} (quiet : m.mode = .quiet reserve)

include quiet

theorem step_call {f : Value} (ordinary : ∀ name, f = .sym name → Keyword.ofName? name = none) (args : List Value)
    (scope : Nat) :
    m.step (.pair f (.ofList args)) scope = m.gather f args scope >>= fun p => m.apply p.1 p.2 := by
  rw [step_quiet quiet, run_call ordinary, runCall_ofList]

theorem apply_few {formals : List String} {args : List Value} (few : args.length < formals.length) (id : Nat)
    (body : Value) (captured : Nat) (w : World ρ) :
    m.apply (.closure id formals body captured) args w =
      .ok (.closure w.store.closures (formals.drop args.length) body w.store.scopes.size)
        { w with store :=
          (w.store.addFrame (Store.assignAll (formals.zip args) []) (some captured)).addClosure } := by
  unfold apply
  rw [note_quiet quiet, pure_bind]
  simp only [applyClosure, if_neg (Nat.lt_asymm few), note_quiet quiet, if_pos few, pure_bind]
  rw [newScope_defineAll]
  rfl

theorem apply_all {formals : List String} {args : List Value} (all : args.length = formals.length) (id : Nat)
    (body : Value) (captured : Nat) (w : World ρ) :
    m.apply (.closure id formals body captured) args w =
      m.eval body w.store.scopes.size
        { w with store := w.store.addFrame (Store.assignAll (formals.zip args) []) (some captured) } := by
  unfold apply
  rw [note_quiet quiet, pure_bind]
  simp only [applyClosure, note_quiet quiet, all, Nat.lt_irrefl, if_false, pure_bind]
  rw [newScope_defineAll]

theorem step_curried (f : Value) (ordinary : ∀ name, f = .sym name → Keyword.ofName? name = none)
    (groups : List (List Value)) (group : List Value) (scope : Nat) :
    m.step (curried f (groups ++ [group])) scope =
      m.eval (curried f groups) scope >>= fun v =>
        group.mapM (m.eval · scope) >>= fun ws => m.apply v ws := by
  have head : ∀ name, curried f groups = .sym name → Keyword.ofName? name = none := by
    intro name isName
    induction groups using List.reverseRecOn with
    | nil => exact ordinary name isName
    | append_singleton before last _ =>
        rw [curried, List.foldl_append] at isName
        cases isName
  unfold curried at head ⊢
  rw [List.foldl_append]
  refine (step_call quiet head group scope).trans ?_
  simp only [gather, bind_assoc, pure_bind]

end Machine

theorem mapM_length {f : α → Eval ρ β} {as : List α} {bs : List β} {w u : World ρ} (ran : as.mapM f w = .ok bs u) :
    bs.length = as.length := by
  induction as generalizing bs w with
  | nil =>
      cases ran
      rfl
  | cons a rest ih =>
      rw [List.mapM_cons] at ran
      simp only [bind, EStateM.bind] at ran
      cases first : f a w with
      | error e v => simp [first] at ran
      | ok b v =>
          simp only [first] at ran
          cases others : rest.mapM f v with
          | error e v' => simp [others] at ran
          | ok bs' v' =>
              simp only [others, pure, EStateM.pure] at ran
              cases ran
              rw [List.length_cons, List.length_cons, ih others]

section Groups

variable {reserve : Bool} {R : Renaming} {scope : Nat}

theorem ends_arguments {hidden : List (Nat × Scope)} {u u' : World ρ} (d e : Nat) (running : R.scopes scope scope)
    (similar : Store.Similar R hidden u.store u'.store) {args : List Value} (alike : ∀ arg ∈ args, arg.Alike R arg) :
    Ends R (fun R' hidden' vs ws => hidden' = hidden ∧ List.Forall₂ (Value.Alike R') vs ws ∧ vs.length = args.length)
      (args.mapM ((Machine.ofDepth (.quiet reserve) d).eval · scope) u)
      (args.mapM ((Machine.ofDepth (.quiet reserve) e).eval · scope) u') := by
  have each : List.Forall₂ (Value.Alike R) args args := by
    induction args with
    | nil => exact .nil
    | cons arg rest ih =>
        exact .cons (alike arg List.mem_cons_self) (ih fun a member => alike a (List.mem_cons_of_mem _ member))
  have run := ends_of_matches (Simulation.matches_mapM (S := .similar reserve hidden (d ≠ e)) (p := [])
    (fun _ _ within alike => alike.mono within) (fun _ _ within alike => alike.mono within)
    (fun _ _ _ _ alike => Simulation.similar_matches reserve hidden d e alike) each) running similar
  exact run.imp fun R' hidden' vs ws x x' ran _ alike => ⟨alike.1, alike.2, mapM_length ran⟩

theorem held_append {given more : List String} {vs us ws : List Value} {extra : List (String × Value)}
    (lengths : given.length = vs.length) (alike : List.Forall₂ (Value.Alike R) us ws)
    (held : ∀ name, Option.Rel (Value.Alike R) ((given.zip vs).reverse.lookup name) (extra.lookup name))
    (name : String) : Option.Rel (Value.Alike R) (((given ++ more).zip (vs ++ us)).reverse.lookup name)
      ((Store.assignAll (more.zip ws) [] ++ extra).lookup name) := by
  rw [List.zip_append lengths, List.reverse_append, List.lookup_append, List.lookup_append, Store.lookup_assignAll,
    List.lookup_nil, Option.or_none]
  exact rel_or (contents_entries (List.rel_reverse (entries_zip more alike)) name) (held name)

-- An application to too few arguments, against nothing on the left, hides one more scope on the right.
theorem ends_partial {hidden : List (Nat × Scope)} {formals : List String} {p : Value × List Value} {v : Value}
    {us ws : List Value} {w w' : World ρ} {m : Machine ρ} (quiet : m.mode = .quiet reserve)
    (similar : Store.Similar R hidden w.store w'.store) (awaits : Awaits R hidden formals p v)
    (alike : List.Forall₂ (Value.Alike R) us ws) (few : p.2.length + us.length < formals.length) :
    Ends R (fun R' hidden' p' v' => Awaits R' hidden' formals p' v' ∧ p'.2 = p.2 ++ us)
      ((pure (p.1, p.2 ++ us) : Eval ρ (Value × List Value)) w) (m.apply v ws w') := by
  cases awaits with
  | @intro id id' captured captured' scope given rest body body' vs extra lengths bodies capture through held =>
      have counts := alike.length_eq
      simp only [List.length_append] at few
      obtain ⟨more, rest', rfl, taken⟩ : ∃ more rest', rest = more ++ rest' ∧ more.length = ws.length :=
        ⟨rest.take ws.length, rest.drop ws.length, (List.take_append_drop _ _).symm,
          List.length_take_of_le (by omega)⟩
      have cut : (more ++ rest').zip ws = more.zip ws := by
        conv_lhs => rw [← List.append_nil ws, List.zip_append taken, List.zip_nil_right, List.append_nil]
      rw [Machine.apply_few quiet (by rw [List.length_append]; simp only [List.length_append] at few; omega), cut,
        ← taken, List.drop_left]
      refine .ok R.within_refl (similar.hide _ (similar.starts through (.some capture))).closureRight ⟨?_, rfl⟩
      rw [← List.append_assoc]
      exact .intro (by simp only [List.length_append]; omega) bodies capture
        (.next List.mem_cons_self (through_mono (List.subset_cons_self _ _) through)) (held_append lengths alike held)

theorem ends_full {hidden : List (Nat × Scope)} {formals : List String} {p : Value × List Value} {v : Value}
    {us ws : List Value} {w w' : World ρ} (d e : Nat) (similar : Store.Similar R hidden w.store w'.store)
    (awaits : Awaits R hidden formals p v) (alike : List.Forall₂ (Value.Alike R) us ws)
    (all : p.2.length + us.length = formals.length) :
    Ends R (fun R' _ v v' => v.Alike R' v')
      ((Machine.ofDepth (.quiet reserve) d).apply p.1 (p.2 ++ us) w)
      ((Machine.ofDepth (.quiet reserve) e).apply v ws w') := by
  cases awaits with
  | @intro id id' captured captured' scope given rest body body' vs extra lengths bodies capture through held =>
      have counts := alike.length_eq
      simp only [List.length_append] at all
      rw [Machine.apply_all (Machine.ofDepth_quiet reserve d) (by simp only [List.length_append]; omega),
        Machine.apply_all (Machine.ofDepth_quiet reserve e) (by omega : ws.length = rest.length)]
      have frame : FrameAlike R hidden
          ⟨Store.assignAll ((given ++ rest).zip (vs ++ us)) [], some captured⟩
          ⟨Store.assignAll (rest.zip ws) [], some scope⟩ extra (some captured') := by
        refine ⟨through, fun name => ?_, fun none => ?_, .some capture⟩
        · rw [Store.lookup_assignAll, List.lookup_nil, Option.or_none]
          exact held_append lengths alike held name
        · -- Nothing is hidden, so nothing was given before.
          subst none
          have empty : given.zip vs = [] := by
            cases inside : (given.zip vs).reverse with
            | nil => exact List.reverse_eq_nil_iff.mp inside
            | cons first others =>
                have absent := held first.1
                rw [inside, List.lookup_cons_self] at absent
                cases absent
          obtain rfl : given = [] := by
            cases given with
            | nil => rfl
            | cons name names =>
                cases vs with
                | nil => cases lengths
                | cons value values => cases empty
          obtain rfl : vs = [] := List.eq_nil_of_length_eq_zero lengths.symm
          exact entries_assignAll (entries_zip rest alike) .nil
      obtain ⟨R', within, made, _, next⟩ := similar.addFrame frame
      refine Ends.within ?_ within
      exact (ends_evaluate reserve d e (bodies.mono within) made next).imp fun _ _ _ _ _ _ _ _ same => same.2

theorem gathers {f : Value} {formals : List String} {groups : List (List Value)} {w : World ρ}
    (running : R.scopes scope scope) (alike : ∀ group ∈ groups, ∀ arg ∈ group, arg.Alike R arg)
    (ordinary : ∀ name, f = .sym name → Keyword.ofName? name = none)
    (head : ∀ d e, Ends R (fun R' hidden v v' => Awaits R' hidden formals (v, []) v')
      (evaluate (.quiet reserve) d f scope w) (evaluate (.quiet reserve) e f scope w))
    (few : groups.flatten.length < formals.length) (d e : Nat) :
    Ends R (fun R' hidden p v => Awaits R' hidden formals p v ∧ p.2.length = groups.flatten.length)
      ((Machine.ofDepth (.quiet reserve) d).gather f groups.flatten scope w)
      (evaluate (.quiet reserve) e (curried f groups) scope w) := by
  induction groups using List.reverseRecOn generalizing e with
  | nil =>
      rw [← bind_pure (evaluate (.quiet reserve) e (curried f []) scope)]
      exact (head d e).bind fun R' hidden v v' u u' within similar awaits =>
        .ok R'.within_refl similar ⟨awaits, rfl⟩
  | append_singleton groups group ih =>
      have flat : (groups ++ [group]).flatten = groups.flatten ++ group := by simp
      rw [flat] at few ⊢
      rw [List.length_append] at few
      cases e with
      | zero => exact .deep₂
      | succ e =>
          change Ends R _ _ ((Machine.ofDepth (.quiet reserve) e).step (curried f (groups ++ [group])) scope w)
          rw [Machine.gather_append, Machine.step_curried (Machine.ofDepth_quiet reserve e) f ordinary]
          have before := ih (fun g member => alike g (List.mem_append_left _ member)) (by omega) e
          refine before.bind fun R₁ hidden p v u u' within₁ similar₁ reached => ?_
          refine (ends_arguments d e (within₁.1 _ _ running) similar₁ fun arg member =>
            (alike group (by simp) arg member).mono within₁).bind ?_
          rintro R₂ hidden' us ws x x' within₂ similar₂ ⟨rfl, alikes, count⟩
          refine (ends_partial rfl similar₂ (reached.1.mono within₂) alikes (by omega)).imp ?_
          rintro R₃ hidden₃ p' v' y y' _ _ ⟨awaits, extended⟩
          exact ⟨awaits, by rw [extended, List.length_append, List.length_append, reached.2, count]⟩

theorem curried_ends (reserve : Bool) (w : World ρ) {f : Value} {formals : List String} {groups : List (List Value)}
    (running : R.scopes scope scope) (alike : ∀ group ∈ groups, ∀ arg ∈ group, arg.Alike R arg)
    (ordinary : ∀ name, f = .sym name → Keyword.ofName? name = none)
    (head : ∀ d e, Ends R (fun R' hidden v v' => Awaits R' hidden formals (v, []) v')
      (evaluate (.quiet reserve) d f scope w) (evaluate (.quiet reserve) e f scope w))
    (some_ : groups ≠ []) (filled : ∀ group ∈ groups, group ≠ [])
    (all : groups.flatten.length = formals.length) (d e : Nat) :
    Ends R (fun R' _ v v' => v.Alike R' v')
      (evaluate (.quiet reserve) d (.pair f (.ofList groups.flatten)) scope w)
      (evaluate (.quiet reserve) e (curried f groups) scope w) := by
  cases d with
  | zero => exact .deep₁
  | succ d =>
      cases e with
      | zero => exact .deep₂
      | succ e =>
          obtain ⟨before, last, rfl⟩ : ∃ before last, groups = before ++ [last] :=
            ⟨groups.dropLast, groups.getLast some_, (List.dropLast_append_getLast some_).symm⟩
          have flat : (before ++ [last]).flatten = before.flatten ++ last := by simp
          rw [flat, List.length_append] at all
          have nonempty : 0 < last.length := List.length_pos_iff.mpr (filled last (by simp))
          change Ends R _ ((Machine.ofDepth (.quiet reserve) d).step _ scope w)
            ((Machine.ofDepth (.quiet reserve) e).step _ scope w)
          rw [flat, Machine.step_call (Machine.ofDepth_quiet reserve d) ordinary, Machine.gather_append, bind_assoc,
            Machine.step_curried (Machine.ofDepth_quiet reserve e) f ordinary]
          refine (gathers running (fun g member => alike g (List.mem_append_left _ member)) ordinary head (by omega) d
            e).bind fun R₁ hidden p v u u' within₁ similar₁ reached => ?_
          rw [bind_assoc]
          refine (ends_arguments d e (within₁.1 _ _ running) similar₁ fun arg member =>
            (alike last (by simp) arg member).mono within₁).bind ?_
          rintro R₂ hidden' us ws x x' within₂ similar₂ ⟨rfl, alikes, count⟩
          exact ends_full d e similar₂ (reached.1.mono within₂) alikes (by omega)

end Groups

theorem evaluate_value {reserve : Bool} {depth : Nat} {expr v : Value} {scope : Nat} {w w' : World ρ}
    (ran : evaluate (.quiet reserve) depth expr scope w = .ok v w') {d : Nat} {v' : Value} {u : World ρ}
    (other : evaluate (.quiet reserve) d expr scope w = .ok v' u) : v' = v ∧ u = w' := by
  have fits {depth : Nat} {v : Value} {u : World ρ} (ran : evaluate (.quiet reserve) depth expr scope w = .ok v u) :
      (evaluate (.quiet reserve) depth expr scope).Fits w := by
    simp [Eval.Fits, Eval.failure?, ran]
  rcases Nat.le_total depth d with less | less
  · have same := evaluate_deeper (Mode.quiet_steady reserve) less (fits ran)
    rw [ran, other] at same
    cases same
    exact ⟨rfl, rfl⟩
  · have same := evaluate_deeper (Mode.quiet_steady reserve) less (fits other)
    rw [ran, other] at same
    cases same
    exact ⟨rfl, rfl⟩

/-- For every cut of the arguments into groups, the application to one group after another has the outcome of the
application to all arguments at once. The store is sound as after every session, see `session_sound`. -/
theorem currying_equivalence {reserve : Bool} {depth depth₁ depth₂ id captured scope : Nat} {f body : Value}
    {formals : List String} {groups : List (List Value)} {w w' : World ρ} (sound : w.store.Sound)
    (present : scope < w.store.scopes.size) (ordinary : ∀ name, f = .sym name → Keyword.ofName? name = none)
    (head : f.Belongs w.store) (args : ∀ group ∈ groups, ∀ arg ∈ group, arg.Belongs w.store)
    (procedure : evaluate (.quiet reserve) depth f scope w = .ok (.closure id formals body captured) w')
    (arity : 1 ≤ formals.length) (filled : ∀ group ∈ groups, group ≠ [])
    (all : groups.flatten.length = formals.length)
    (fits₁ : (evaluate (.quiet reserve) depth₁ (.pair f (.ofList groups.flatten)) scope).Fits w)
    (fits₂ : (evaluate (.quiet reserve) depth₂ (curried f groups) scope).Fits w) :
    SameOutcome w.store (evaluate (.quiet reserve) depth₁ (.pair f (.ofList groups.flatten)) scope w)
      (evaluate (.quiet reserve) depth₂ (curried f groups) scope w) := by
  have running : (Renaming.identity w.store).scopes scope scope := ⟨rfl, present⟩
  have some_ : groups ≠ [] := by
    rintro rfl
    simp only [List.flatten_nil, List.length_nil] at all
    omega
  have applied := curried_ends reserve w running (fun g inside arg member => (args g inside arg member).alike)
    ordinary (fun d e => ?_) some_ filled all depth₁ depth₂
  · unfold Eval.Fits Eval.failure? at fits₁ fits₂
    generalize evaluate (.quiet reserve) depth₁ (.pair f (.ofList groups.flatten)) scope w = r₁,
      evaluate (.quiet reserve) depth₂ (curried f groups) scope w = r₂ at applied fits₁ fits₂
    cases applied with
    | ok within similar alike => exact .value (Store.renamed_of_similar within similar) alike alike.text
    | error within similar alike => exact .failure (Store.renamed_of_similar within similar) alike
    | deep₁ => exact absurd rfl fits₁
    | deep₂ => exact absurd rfl fits₂
  · refine (ends_evaluate reserve d e head.alike running sound.similar).imp
      fun R' hidden v v' u u' left right same => ?_
    obtain ⟨rfl, alike⟩ := same
    obtain ⟨rfl, rfl⟩ := evaluate_value procedure left
    obtain ⟨rfl, rfl⟩ := evaluate_value procedure right
    cases alike with
    | closure _ ids captured body =>
        change Awaits R' [] ([] ++ formals) _ _
        exact .intro rfl body captured (.here _) fun _ => .none

-- A body that rebinds one of its formals and returns a closure, called with an argument that binds a name.
theorem currying_equivalence_rebinding :
    let x := Value.sym "x"
    let y := Value.sym "y"
    let rebind := Value.ofList [.sym "define", x, .ofList [.sym "+", x, y]]
    let f := Value.ofList [.sym "lambda", .ofList [x, y], rebind, .ofList [.sym "lambda", .nil, x]]
    let groups := [[Value.ofList [.sym "define", .sym "z", .int 1]], [Value.sym "z"]]
    let w : World String := World.start
    SameOutcome w.store (evaluate (.quiet true) 9 (.pair f (.ofList groups.flatten)) 0 w)
      (evaluate (.quiet true) 9 (curried f groups) 0 w) := by
  intro x y rebind f groups w
  exact currying_equivalence World.start_sound start_present
    (fun _ isName => by simp [f, Value.ofList, Value.chain] at isName) (by decide +kernel) (by decide +kernel)
    (rfl : evaluate (.quiet true) 9 f 0 w = .ok (.closure 0 ["x", "y"] _ 0) _) (by decide) (by decide) rfl
    (by decide +kernel) (by decide +kernel)

end CurriedLisp
