import CurriedLisp.Proofs.Eval.Lockstep
import CurriedLisp.Proofs.Eval.Outcome
import CurriedLisp.Proofs.Reader.Grammar
import CurriedLisp.Proofs.Reader.Refusal
import CurriedLisp.Settings

set_option autoImplicit false

namespace CurriedLisp

variable {ρ : Type}

namespace Reader

theorem push_deeper {depth depth' : Nat} (less : depth ≤ depth') {frame : Frame} {frames : List Frame}
    (fits : push depth frame frames ≠ .error .tooDeep) : push depth' frame frames = push depth frame frames := by
  unfold push at fits ⊢
  by_cases room : frames.length < depth
  · rw [if_pos room, if_pos (Nat.lt_of_lt_of_le room less)]
  · rw [if_neg room] at fits
    exact absurd rfl fits

theorem feed_deeper {depth depth' : Nat} (less : depth ≤ depth') {frames : List Frame} {token : Token}
    (fits : feed depth frames token ≠ .error .tooDeep) : feed depth' frames token = feed depth frames token := by
  cases token with
  | word text => rfl
  | opening => exact push_deeper less fits
  | quote => exact push_deeper less fits
  | closing => rfl

theorem readAllFrom_deeper {depth depth' : Nat} (less : depth ≤ depth') {fault : Option Error} {done : List Value}
    {frames : List Frame} {tokens : List Token}
    (fits : (readAllFrom depth fault done frames tokens).failure ≠ some .tooDeep) :
    readAllFrom depth' fault done frames tokens = readAllFrom depth fault done frames tokens := by
  induction tokens generalizing done frames with
  | nil => rfl
  | cons token rest ih =>
      rw [readAllFrom_cons] at fits ⊢
      rw [readAllFrom_cons]
      have fed : feed depth' frames token = feed depth frames token :=
        feed_deeper less fun deep => fits (by rw [deep]; rfl)
      rw [fed]
      generalize feed depth frames token = progress at fits ⊢
      cases progress with
      | error e => rfl
      | ok progress => cases progress <;> exact ih fits

theorem parse_deeper {depth depth' : Nat} (less : depth ≤ depth') {text : String}
    (fits : parse depth text ≠ .error .tooDeep) : parse depth' text = parse depth text := by
  have same : readAll depth' text.toList = readAll depth text.toList := by
    refine readAllFrom_deeper less fun deep => fits ?_
    change (readAll depth text.toList).failure = some .tooDeep at deep
    unfold parse
    generalize readAll depth text.toList = reading at deep ⊢
    obtain ⟨forms, failure⟩ := reading
    cases deep
    rfl
  rw [parse, parse, same]

end Reader

theorem bind_fits {α β : Type} {x : Except Obstacle α} {f : α → Except Obstacle β}
    (fits : x >>= f ≠ .error .tooDeep) : x ≠ .error .tooDeep := by
  rintro rfl
  exact fits rfl

theorem Value.mapM_render_deeper {depth depth' : Nat} (less : depth ≤ depth') (vs : List Value)
    (fits : vs.mapM (·.render depth) ≠ .error .tooDeep) :
    vs.mapM (·.render depth') = vs.mapM (·.render depth) := by
  induction vs with
  | nil => rfl
  | cons v rest ih =>
      simp only [List.mapM_cons] at fits ⊢
      rw [v.render_deeper less (bind_fits fits)]
      cases shown : v.render depth with
      | error o => rfl
      | ok text =>
          rw [shown] at fits
          rw [ih (bind_fits fits)]

namespace Mode

def Steady (mode : Mode ρ) : Prop :=
  ∀ {depth depth'} moment store, depth ≤ depth' → mode.watch depth moment store ≠ .error .tooDeep →
    mode.watch depth' moment store = mode.watch depth moment store

theorem quiet_steady (reserve : Bool) : (quiet reserve : Mode ρ).Steady := fun _ _ _ _ => rfl

theorem program_steady (verbose : Bool) : (program verbose).Steady := by
  cases verbose with
  | false => exact quiet_steady true
  | true =>
      intro depth depth' moment store less fits
      change Watch.lines depth moment store ≠ _ at fits
      change Watch.lines depth' moment store = Watch.lines depth moment store
      cases moment with
      | begins expr scope =>
          simp only [Watch.lines] at fits ⊢
          rw [expr.render_deeper less (bind_fits fits)]
      | applies proc args =>
          simp only [Watch.lines] at fits ⊢
          rw [proc.render_deeper less (bind_fits fits)]
          cases shown : proc.render depth with
          | error o => rfl
          | ok text =>
              rw [shown] at fits
              rw [Value.mapM_render_deeper less args (bind_fits (x := args.mapM (·.render depth)) fits)]
      | _ => rfl

end Mode

def Lockstep.deeper {mode : Mode ρ} (steady : mode.Steady) : Lockstep mode mode where
  trace := Eq
  stops f _ _ := f = .tooDeep
  later _ stopped := stopped
  reserve := rfl
  note := by
    intro moment store depth depth' trace trace' depths same
    subst same
    have less : depth ≤ depth' := depths.elim Nat.le_of_eq And.left
    by_cases deep : mode.watch depth moment store = .error .tooDeep
    · rw [deep]
      cases mode.watch depth' moment store with
      | error o => exact .inl rfl
      | ok line => rfl
    · rw [steady moment store less deep]
      cases mode.watch depth moment store with
      | error o => exact .inr rfl
      | ok line => rfl

theorem evaluate_deeper {mode : Mode ρ} (steady : mode.Steady) {depth depth' : Nat} (less : depth ≤ depth')
    {expr : Value} {scope : Nat} {w : World ρ} (fits : (evaluate mode depth expr scope).Fits w) :
    evaluate mode depth' expr scope w = evaluate mode depth expr scope w := by
  have run := ((Lockstep.deeper steady).evaluate_follows (.inr ⟨less, fun _ _ => rfl⟩) expr scope).agrees w w
    ⟨rfl, rfl⟩
  unfold Eval.Fits Eval.failure? at fits
  generalize evaluate mode depth expr scope w = r, evaluate mode depth' expr scope w = r' at run fits ⊢
  cases run with
  | ok v same => rw [World.eq_of same.1 same.2]
  | error f same => rw [World.eq_of same.1 same.2]
  | stopped deep =>
      cases deep
      exact absurd rfl fits

theorem recover_deeper {mode : Mode ρ} (steady : mode.Steady) {depth depth' : Nat} (less : depth ≤ depth')
    {expr : Value} {scope : Nat} {w : World ρ}
    (answered : (evaluate mode depth expr scope).recover.failure? w ≠ some (.error .recursion)) :
    (evaluate mode depth' expr scope).recover w = (evaluate mode depth expr scope).recover w := by
  have fits : (evaluate mode depth expr scope).Fits w := by
    intro deep
    unfold Eval.failure? at deep answered
    simp only [Eval.recover] at answered
    generalize evaluate mode depth expr scope w = r at deep answered
    cases r with
    | ok v u => cases deep
    | error f u =>
        cases deep
        exact answered rfl
  rw [Eval.recover, Eval.recover, evaluate_deeper steady less fits]

def Eval.WithinLimit {α : Type} (x : Eval ρ α) (w : World ρ) : Prop :=
  x.Fits w ∧ x.failure? w ≠ some (.error .recursion)

instance {α : Type} (x : Eval ρ α) (w : World ρ) : Decidable (x.WithinLimit w) := inferInstanceAs (Decidable (_ ∧ _))

theorem Eval.recover_fits {α : Type} (x : Eval ρ α) (w : World ρ) : x.recover.Fits w := by
  rw [Fits, failure?, recover_run]
  cases x w with
  | ok a u => exact nofun
  | error f u => cases f <;> exact nofun

theorem evalText_exhausted (mode : Mode ρ) (depth : Nat) (code : String) (w : World ρ) :
    (evalText mode depth code).failure? w = some .tooDeep ↔ Reader.parse depth code = .error .tooDeep := by
  unfold evalText
  cases Reader.parse depth code with
  | ok program => exact iff_of_false (Eval.recover_fits _ w) nofun
  | error f =>
      exact ⟨fun failed => congrArg Except.error (Option.some.inj failed),
        fun same => congrArg some (Except.error.inj same)⟩

/-- Raising the limit of nesting changes no answer but those that it was too low for: what is read from a text has the
same result, with the same trace and the same store, unless it ended in a recursion error; and so has the text itself
unless the limit was too low to read it. Then, and only then, it does not end in an error of the program. -/
theorem raising_limit_keeps_answers (verbose : Bool) {limit limit' : Nat} (less : limit ≤ limit') (code : String)
    (w : World String) :
    let ran (program : Value) (limit : Nat) : Eval String Value :=
      (evaluate (.program verbose) limit program 0).recover
    let answer (limit : Nat) : Eval String Value := evalText (.program verbose) limit code
    (∀ reading program, Reader.parse reading code = .ok program →
      (ran program limit).failure? w ≠ some (.error .recursion) → ran program limit' w = ran program limit w) ∧
    ((answer limit).WithinLimit w → answer limit' w = answer limit w) ∧
    ((answer limit).failure? w = some .tooDeep ↔ Reader.parse limit code = .error .tooDeep) := by
  intro ran answer
  refine ⟨fun _ _ _ => recover_deeper (Mode.program_steady verbose) less, fun ⟨read, answered⟩ => ?_,
    evalText_exhausted (.program verbose) limit code w⟩
  have same : Reader.parse limit' code = Reader.parse limit code :=
    Reader.parse_deeper less fun deep => read ((evalText_exhausted (.program verbose) limit code w).mpr deep)
  simp only [answer, evalText, same] at answered ⊢
  cases parsed : Reader.parse limit code with
  | error f => rfl
  | ok program =>
      rw [parsed] at answered
      exact recover_deeper (Mode.program_steady verbose) less answered

-- A traced program that fails deep inside its calls, from a session that has defined what it calls.
theorem raising_limit_keeps_answers_failing :
    let w : World String := session 9 [(.program true, "(define two (lambda (f x) (f (f x))))")] .start
    let code := "(define y 1) (two head y)"
    let y := Value.sym "y"
    let program := Value.ofList [.sym "begin", .ofList [.sym "define", y, .int 1], .ofList [.sym "two", .sym "head", y]]
    let ran (limit : Nat) : Eval String Value := (evaluate (.program true) limit program 0).recover
    let answer (limit : Nat) : Eval String Value := evalText (.program true) limit code
    5 ≤ 40 ∧ Reader.parse 9 code = .ok program ∧ (answer 5).failure? w = some (.error (.notPair "head" "1")) ∧
      ran 40 w = ran 5 w ∧ answer 40 w = answer 5 w := by
  intro w code y program ran answer
  have less : 5 ≤ 40 := by decide
  have read : Reader.parse 9 code = .ok program := by decide +kernel
  obtain ⟨keptRun, kept, -⟩ := raising_limit_keeps_answers true less code w
  exact ⟨less, read, by decide +kernel, keptRun 9 program read (by decide +kernel), kept (by decide +kernel)⟩

-- A limit that is too low to read a text does not end it in a recursion error, and a greater one changes the answer.
theorem raising_limit_changes_answer :
    ¬ ∀ (verbose : Bool) (steps : List (Bool × String)) (code : String) (limit limit' : Nat),
      Settings.hostLimit ≤ limit → limit ≤ limit' →
      let w : World String := session limit (steps.map fun (verbose, code) => (.program verbose, code)) .start
      (evalText (.program verbose) limit code).failure? w ≠ some (.error .recursion) →
        evalText (.program verbose) limit' code w = evalText (.program verbose) limit code w := by
  intro kept
  obtain ⟨limit, least⟩ : ∃ limit, Settings.hostLimit ≤ limit := ⟨Settings.defaultRecursionLimit, by decide⟩
  let code := String.ofList (List.replicate (limit + 1) '(')
  let start : World String := .start
  have exhausted := (evalText_exhausted (.program false) limit code start).mpr (Reader.parse_openings limit)
  have other : (evalText (.program false) limit code).failure? start ≠ some (.error .recursion) := by
    rw [exhausted]
    nofun
  have same : evalText (.program false) (2 * limit) code start = evalText (.program false) limit code start :=
    kept false [] code limit (2 * limit) least (by omega) other
  have later : (evalText (.program false) (2 * limit) code).failure? start = some .tooDeep := by
    rw [← exhausted, Eval.failure?, Eval.failure?, same]
  have enough : limit + 1 ≤ 2 * limit := by
    have most : 1000 ≤ limit := least
    omega
  exact Reader.openings_fit enough ((evalText_exhausted _ _ _ _).mp later)

end CurriedLisp
