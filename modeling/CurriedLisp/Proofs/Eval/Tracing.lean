import CurriedLisp.Proofs.Eval.Deeper
import CurriedLisp.Proofs.Eval.History

set_option autoImplicit false

namespace CurriedLisp

def Value.overlong : Value → Bool
  | int n => !Text.isWritable n
  | pair first second => first.overlong || second.overlong
  | closure _ _ body _ => body.overlong
  | _ => false

theorem Value.obstacle_overlong (v : Value) {depth : Nat} (fits : v.obstacle? depth ≠ some .tooDeep) :
    v.obstacle? depth = if v.overlong then some .tooLong else none := by
  induction v generalizing depth with
  | int n =>
      change (if Text.isWritable n then none else some Obstacle.tooLong) = if !Text.isWritable n then _ else _
      cases Text.isWritable n <;> rfl
  | pair first second ihFirst ihSecond =>
      cases depth with
      | zero => exact absurd rfl fits
      | succ depth =>
          rw [obstacle_pair] at fits ⊢
          have fitsFirst : first.obstacle? depth ≠ some .tooDeep := fun deep => fits (by rw [deep]; rfl)
          rw [ihFirst fitsFirst] at fits ⊢
          change _ = if first.overlong || second.overlong then some Obstacle.tooLong else none
          cases long : first.overlong with
          | true => rfl
          | false =>
              rw [long] at fits
              exact ihSecond fits
  | closure id formals body scope ih =>
      cases depth with
      | zero => exact absurd rfl fits
      | succ depth => exact ih fits
  | _ => rfl

theorem Value.render_overlong (v : Value) {depth : Nat} (fits : v.render depth ≠ .error .tooDeep) :
    v.render depth = if v.overlong then .error .tooLong else .ok v.text := by
  have free : v.obstacle? depth ≠ some .tooDeep := fun deep => fits (by rw [render, deep])
  rw [render, v.obstacle_overlong free]
  cases v.overlong <;> rfl

theorem Value.mapM_render_overlong (vs : List Value) {depth : Nat} (fits : vs.mapM (·.render depth) ≠ .error .tooDeep) :
    vs.mapM (·.render depth) = if vs.any overlong then .error .tooLong else .ok (vs.map text) := by
  induction vs with
  | nil => rfl
  | cons v rest ih =>
      rw [List.mapM_cons] at fits ⊢
      have first := v.render_overlong (bind_fits fits)
      rw [first] at fits ⊢
      rw [List.any_cons, List.map_cons]
      cases long : v.overlong with
      | true => rfl
      | false =>
          rw [long] at fits
          rw [ih (bind_fits (x := rest.mapM (·.render depth)) fits)]
          cases rest.any overlong <;> rfl

namespace Moment

def line? : Moment → Option String
  | begins expr _ => some ("eval " ++ expr.text)
  | applies proc args => some ("apply " ++ proc.text ++ " to (" ++ " ".intercalate (args.map Value.text) ++ ")")
  | _ => none

def overlong : Moment → Bool
  | begins expr _ => expr.overlong
  | applies proc args => proc.overlong || args.any Value.overlong
  | _ => false

theorem lines_overlong (moment : Moment) {depth : Nat} {store : Store}
    (fits : Watch.lines depth moment store ≠ .error .tooDeep) :
    Watch.lines depth moment store = if moment.overlong then .error .tooLong else .ok moment.line? := by
  cases moment with
  | begins expr scope =>
      simp only [Watch.lines] at fits ⊢
      rw [expr.render_overlong (bind_fits fits), overlong]
      cases expr.overlong <;> rfl
  | applies proc args =>
      simp only [Watch.lines] at fits ⊢
      have first := proc.render_overlong (bind_fits fits)
      rw [first] at fits ⊢
      rw [overlong]
      cases long : proc.overlong with
      | true => rfl
      | false =>
          rw [long] at fits
          rw [Value.mapM_render_overlong args (bind_fits (x := args.mapM (·.render depth)) fits)]
          cases args.any Value.overlong <;> rfl
  | _ => rfl

end Moment

-- The reports of a trace for the moments of a run, both latest first.
def linesOf (records : List (Record String)) : List String := records.filterMap (·.moment.line?)

-- A traced run and the moments of the quiet run; `before` are the lines that were there.
def Lockstep.traced (before : List String) : Lockstep (Mode.program true) (Mode.program false).recorded where
  trace lines records := lines = linesOf records ++ before ∧ ∀ r ∈ records, r.moment.overlong = false
  stops f w records := f = .tooDeep ∨ f = .error .recursion ∨ f = .numeral .tooLongToWrite ∧
    ∃ late r early, records = late ++ r :: early ∧ r.moment.overlong = true ∧
      (∀ e ∈ early, e.moment.overlong = false) ∧ w = ⟨r.store, linesOf early ++ before⟩
  later := by
    rintro f w records report (deep | failed | ⟨long, late, r, early, rfl, first⟩)
    · exact .inl deep
    · exact .inr (.inl failed)
    · exact .inr (.inr ⟨long, report :: late, r, early, rfl, first⟩)
  reserve := rfl
  note := by
    intro moment store depth depth' lines records _ same
    obtain ⟨rfl, clear⟩ := same
    have quiet : (Mode.program false).recorded.watch depth' moment store = .ok (some ⟨moment, store, none⟩) := rfl
    have verbose : (Mode.program true).watch depth moment store = Watch.lines depth moment store := rfl
    rw [quiet, verbose]
    by_cases deep : Watch.lines depth moment store = .error .tooDeep
    · rw [deep]
      exact .inl rfl
    · rw [moment.lines_overlong deep]
      cases long : moment.overlong with
      | true => exact .inr (.inr ⟨rfl, [], ⟨moment, store, none⟩, records, rfl, long, clear, rfl⟩)
      | false =>
          refine ⟨?_, fun r member => ?_⟩
          · change moment.line?.toList ++ (linesOf records ++ before) =
              linesOf (⟨moment, store, none⟩ :: records) ++ before
            unfold linesOf
            rw [List.filterMap_cons]
            cases moment.line? <;> rfl
          · rcases List.mem_cons.mp member with rfl | old
            · exact long
            · exact clear r old

def Lockstep.untraced (before : List String) : Lockstep (Mode.program false).recorded (Mode.program false) where
  trace _ lines := lines = before
  stops _ _ _ := False
  later _ never := never
  reserve := rfl
  note _ _ _ _ _ _ _ same := same

def World.print (lines : List String) (w : World String) : World String := { w with trace := lines.reverse ++ w.trace }

def Eval.printing {α : Type} (lines : List String) (x : Eval String α) : Eval String α := fun w =>
  match x w with
  | .ok a u => .ok a (u.print lines)
  | .error f u => .error f (u.print lines)

def Store.moments (s : Store) (depth : Nat) (code : String) : List (Record String) :=
  ((evalText (Mode.program false).recorded depth code).after ⟨s, []⟩).trace.reverse

theorem Store.moments_reports (s : Store) (depth : Nat) (code : String) :
    s.moments depth code =
      (Lockstep.reports (evalText (Mode.program false).recorded depth code ⟨s, []⟩)).reverse := by
  unfold Store.moments Eval.after
  cases evalText (Mode.program false).recorded depth code ⟨s, []⟩ <;> rfl

-- What a traced run does where the quiet run has these moments: all that the quiet run does, or what it did up to the
-- first of them whose line cannot be written.
inductive Traces (moments : List (Record String)) (quiet verbose : Eval String Value) (w : World String) : Prop where
  | through : (∀ r ∈ moments, r.moment.overlong = false) → verbose w = quiet.printing (linesOf moments) w →
      Traces moments quiet verbose w
  | stopped {before after : List (Record String)} {r : Record String} : moments = before ++ r :: after →
      (∀ e ∈ before, e.moment.overlong = false) → r.moment.overlong = true →
      verbose w = .error (.numeral .tooLongToWrite) (World.print (linesOf before) ⟨r.store, w.trace⟩) →
      Traces moments quiet verbose w

theorem World.eq_print {w u u' : World String} {records : List (Record String)} (stores : u.store = u'.store)
    (traced : u.trace = linesOf records ++ w.trace) (quiet : u'.trace = w.trace) :
    u = u'.print (linesOf records.reverse) := by
  refine World.eq_of stores ?_
  change u.trace = (linesOf records.reverse).reverse ++ u'.trace
  rw [traced, quiet, linesOf, linesOf, List.filterMap_reverse, List.reverse_reverse]

theorem evalText_traces {depth : Nat} {code : String} {w : World String}
    (within : (evalText (.program true) depth code).WithinLimit w) :
    Traces (w.store.moments depth code) (evalText (.program false) depth code) (evalText (.program true) depth code)
      w := by
  obtain ⟨fits, answered⟩ := within
  have kept {f : Failure} {u : World String} {records : List (Record String)}
      (stopped : (Lockstep.traced w.trace).stops f u records) :
      (Lockstep.traced w.trace).stops f.recovered u records := by
    obtain rfl | rfl | ⟨rfl, first⟩ := stopped
    · exact .inr (.inl rfl)
    · exact .inr (.inl rfl)
    · exact .inr (.inr ⟨rfl, first⟩)
  have loud := (Lockstep.evalText_follows kept depth code).agrees w ⟨w.store, []⟩ ⟨rfl, rfl, by simp⟩
  have still := (Lockstep.evalText_follows (L := .untraced w.trace) (fun never => never) depth code).agrees
    ⟨w.store, []⟩ w ⟨rfl, rfl⟩
  rw [Store.moments_reports]
  obtain ⟨r, ran⟩ : ∃ r, evalText (.program true) depth code w = r := ⟨_, rfl⟩
  obtain ⟨r', ran'⟩ : ∃ r', evalText (.program false) depth code w = r' := ⟨_, rfl⟩
  rw [Eval.Fits, Eval.failure?, ran] at fits
  rw [Eval.failure?, ran] at answered
  rw [ran] at loud
  rw [ran'] at still
  generalize evalText (Mode.program false).recorded depth code ⟨w.store, []⟩ = recorded at loud still ⊢
  have listed {records : List (Record String)} (clear : ∀ e ∈ records, e.moment.overlong = false) :
      ∀ e ∈ records.reverse, e.moment.overlong = false := fun e member => clear e (List.mem_reverse.mp member)
  cases loud with
  | ok v traced =>
      cases still with
      | ok _ quiet =>
          refine .through (listed traced.2.2) ?_
          rw [ran, Eval.printing, ran']
          exact congrArg _ (World.eq_print (traced.1.trans quiet.1) traced.2.1 quiet.2)
  | error f traced =>
      cases still with
      | error _ quiet =>
          refine .through (listed traced.2.2) ?_
          rw [ran, Eval.printing, ran']
          exact congrArg _ (World.eq_print (traced.1.trans quiet.1) traced.2.1 quiet.2)
      | stopped never => exact never.elim
  | stopped first =>
      obtain rfl | rfl | ⟨rfl, late, e, early, cut, long, clear, rfl⟩ := first
      · exact absurd rfl fits
      · exact absurd rfl answered
      · have order : (Lockstep.reports recorded).reverse = early.reverse ++ e :: late.reverse := by simp [cut]
        refine .stopped order (listed clear) long ?_
        rw [ran, World.print, linesOf, linesOf, List.filterMap_reverse, List.reverse_reverse]

def Eval.outcome {ρ α : Type} (x : Eval ρ α) (w : World ρ) : Except Failure α × Store :=
  match x w with
  | .ok a u => (.ok a, u.store)
  | .error f u => (.error f, u.store)

theorem Eval.outcome_store {ρ α : Type} (x : Eval ρ α) (w : World ρ) : (x.outcome w).2 = (x.after w).store := by
  unfold outcome after
  cases x w <;> rfl

theorem Eval.failure_outcome {ρ σ α : Type} {x : Eval ρ α} {y : Eval σ α} {w : World ρ} {u : World σ}
    (same : x.outcome w = y.outcome u) : x.failure? w = y.failure? u := by
  have first := congrArg Prod.fst same
  unfold outcome at first
  unfold failure?
  generalize x w = r, y u = r' at first ⊢
  cases r with
  | ok a w =>
      cases r' with
      | ok b u => rfl
      | error f u => cases first
  | error e w =>
      cases r' with
      | ok b u => cases first
      | error f u => exact congrArg some (Except.error.inj first)

theorem Eval.outcome_printing {α : Type} {lines : List String} {x y : Eval String α} {w : World String}
    (same : x w = y.printing lines w) : x.outcome w = y.outcome w := by
  rw [outcome, same, outcome, printing]
  cases y w <;> rfl

theorem recorded_outcome (depth : Nat) (code : String) (w : World String) :
    (evalText (.program false) depth code).outcome w =
      (evalText (Mode.program false).recorded depth code).outcome ⟨w.store, []⟩ := by
  have run := (Lockstep.evalText_follows (L := .untraced w.trace) (fun never => never) depth code).agrees
    ⟨w.store, []⟩ w ⟨rfl, rfl⟩
  unfold Eval.outcome
  generalize evalText (.program false) depth code w = r,
    evalText (Mode.program false).recorded depth code ⟨w.store, []⟩ = r' at run
  cases run with
  | ok v same => exact congrArg _ same.1.symm
  | error f same => exact congrArg _ same.1.symm
  | stopped never => exact never.elim

theorem quiet_outcome (depth : Nat) (code : String) {u w : World String} (stores : u.store = w.store) :
    (evalText (.program false) depth code).outcome u = (evalText (.program false) depth code).outcome w := by
  rw [recorded_outcome, recorded_outcome, stores]

theorem traced_outcome {depth : Nat} {code : String} {w : World String}
    (within : (evalText (.program true) depth code).WithinLimit w)
    (clear : ∀ r ∈ w.store.moments depth code, r.moment.overlong = false) :
    (evalText (.program true) depth code).outcome w = (evalText (.program false) depth code).outcome w := by
  cases evalText_traces within with
  | through _ same => exact Eval.outcome_printing same
  | @stopped _ _ r cut _ long _ =>
      have member : r ∈ w.store.moments depth code := by simp [cut]
      rw [clear r member] at long
      cases long

-- The steps of a session with the toggle as it stands before each text.
def toggled (steps : List (Bool × String)) : List (Mode String × String) :=
  steps.map fun step => (.program step.1, step.2)

-- No traced text of the session reaches the limit or comes to a line that cannot be written.
def Unobstructed (depth : Nat) : List (Bool × String) → World String → Prop
  | [], _ => True
  | (verbose, code) :: rest, w =>
      (verbose = true → (evalText (.program true) depth code).WithinLimit w ∧
        ∀ r ∈ w.store.moments depth code, r.moment.overlong = false) ∧
      Unobstructed depth rest ((evalText (.program verbose) depth code).after w)

theorem session_unobstructed {depth : Nat} {steps : List (Bool × String)} {w q : World String}
    (free : Unobstructed depth steps w) (stores : w.store = q.store) :
    (session depth (toggled steps) w).store =
      (session depth (toggled (steps.map fun step => (false, step.2))) q).store := by
  induction steps generalizing w q with
  | nil => exact stores
  | cons step rest ih =>
      obtain ⟨verbose, code⟩ := step
      obtain ⟨here, later⟩ := free
      have here : (evalText (.program verbose) depth code).outcome w =
          (evalText (.program false) depth code).outcome w := by
        cases verbose with
        | false => rfl
        | true => exact traced_outcome (here rfl).1 (here rfl).2
      refine ih later ?_
      change ((evalText (.program verbose) depth code).after w).store =
        ((evalText (.program false) depth code).after q).store
      rw [← Eval.outcome_store, ← Eval.outcome_store, here, quiet_outcome depth code stores]

/-- Tracing only adds lines. Wherever the toggle stood before, a traced text does what the quiet one does and prints the
lines of its moments, unless one of them cannot be written: then it stops at the first such moment, with all that was
done before it. Where that never happens, the session leaves what it leaves with the toggle off. -/
theorem tracing_only_adds_lines (depth : Nat) (steps : List (Bool × String)) (code : String) (w : World String) :
    let u := session depth (toggled steps) w
    let q := session depth (toggled (steps.map fun step => (false, step.2))) w
    let run (verbose : Bool) : Eval String Value := evalText (.program verbose) depth code
    ((run true).WithinLimit u → Traces (u.store.moments depth code) (run false) (run true) u) ∧
    (Unobstructed depth steps w → u.store = q.store ∧ (run false).outcome u = (run false).outcome q) := by
  intro u q run
  refine ⟨evalText_traces, fun free => ?_⟩
  have stores := session_unobstructed free (rfl : w.store = w.store)
  exact ⟨stores, quiet_outcome depth code stores⟩

-- The argument of an application is too long for its line, so that the text stops after its first definition.
theorem tracing_only_adds_lines_overlong :
    let twice := "(define t (lambda (f x) (f (f x)))) (define big ((t (t t) (lambda (n) (* n n))) 10))"
    let steps := [(false, twice), (true, "(define y 0)")]
    let code := "(define y 1) (list big) (define y 2)"
    let u := session 50 (toggled steps) World.start
    let q := session 50 (toggled (steps.map fun step => (false, step.2))) World.start
    let run (verbose : Bool) : Eval String Value := evalText (.program verbose) 50 code
    (run true).WithinLimit u ∧ Traces (u.store.moments 50 code) (run false) (run true) u ∧
      (run true).failure? u = some (.numeral .tooLongToWrite) ∧
      ((run true).after u).store.lookup 0 "y" = .ok (.int 1) ∧
      u.store = q.store ∧ (run false).outcome u = (run false).outcome q := by
  intro twice steps code u q run
  have within : (run true).WithinLimit u := by decide +kernel
  have free : Unobstructed 50 steps World.start :=
    ⟨by simp, ⟨fun _ => ⟨by decide +kernel, by decide +kernel⟩, trivial⟩⟩
  have traced := tracing_only_adds_lines 50 steps code World.start
  exact ⟨within, traced.1 within, by decide +kernel, by decide +kernel, traced.2 free⟩

end CurriedLisp
