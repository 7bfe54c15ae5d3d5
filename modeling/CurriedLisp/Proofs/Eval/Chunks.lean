import CurriedLisp.Proofs.Eval.Agreement
import CurriedLisp.Proofs.Eval.History
import CurriedLisp.Proofs.Reader.Joining

set_option autoImplicit false

namespace CurriedLisp

variable {ρ ρ₁ ρ₂ α β : Type}

theorem Eval.recover_bind (x : Eval ρ α) (f : α → Eval ρ β) :
    (x >>= f).recover = x.recover >>= fun a => (f a).recover := by
  funext w
  simp only [recover, bind, EStateM.bind]
  cases x w with
  | ok a u => rfl
  | error e u => cases e <;> rfl

namespace Machine

theorem sequence_append (m : Machine ρ) (scope : Nat) (last : Value) (forms more : List Value) :
    m.sequence scope last (forms ++ more) = m.sequence scope last forms >>= fun v => m.sequence scope v more := by
  induction forms generalizing last with
  | nil => rw [List.nil_append, sequence, pure_bind]
  | cons form rest ih =>
      simp only [List.cons_append, sequence, bind_assoc]
      exact congrArg _ (funext ih)

theorem sequence_last (m : Machine ρ) (scope : Nat) {forms : List Value} (some_ : forms ≠ []) (last last' : Value) :
    m.sequence scope last forms = m.sequence scope last' forms := by
  cases forms with
  | nil => exact absurd rfl some_
  | cons form rest => rfl

end Machine

def evalForms (mode : Mode ρ) : Nat → List String → List Value → Eval ρ Value
  | 0, _, _ => Eval.recover (throw .tooDeep)
  | depth + 1, names, forms => Eval.recover do
      (Machine.ofDepth mode depth).reserve 0 names
      (Machine.ofDepth mode depth).sequence 0 .nil forms

theorem evalText_forms (reserve : Bool) {depth : Nat} {code : String} {forms : List Value}
    (parsed : Reader.parse depth code = .ok (.pair (.sym "begin") (.ofList forms))) :
    (evalText (.quiet reserve) depth code : Eval ρ Value) =
      evalForms (.quiet reserve) depth (Machine.definedNames forms) forms := by
  have evaluated : (evalText (.quiet reserve) depth code : Eval ρ Value) =
      (evaluate (.quiet reserve) depth (.pair (.sym "begin") (.ofList forms)) 0).recover := by
    rw [evalText, parsed]
    rfl
  rw [evaluated]
  cases depth with
  | zero => rfl
  | succ depth =>
      exact congrArg Eval.recover (evaluate_form reserve depth (by decide : _ = some Keyword.begin) forms 0)

-- Further forms are evaluated only once the forms before them have a value; no names are reserved for them.
theorem evalForms_append (mode : Mode ρ) (depth : Nat) (names : List String) (forms : List Value) {more : List Value}
    (some_ : more ≠ []) :
    evalForms mode depth names (forms ++ more) =
      evalForms mode depth names forms >>= fun _ => evalForms mode depth [] more := by
  cases depth with
  | zero => rfl
  | succ depth =>
      have alone : (fun v => (Machine.ofDepth mode depth).sequence 0 v more) = fun _ =>
          (Machine.ofDepth mode depth).reserve 0 [] >>= fun _ =>
            (Machine.ofDepth mode depth).sequence 0 .nil more := by
        funext v w
        rw [Machine.sequence_last _ 0 some_ v .nil]
        simp [bind, EStateM.bind, Machine.reserve_run]
      rw [evalForms, evalForms, evalForms, ← Eval.recover_bind, Machine.sequence_append, alone, bind_assoc]

namespace Simulation

variable {reserve₁ reserve₂ : Bool} {R : Renaming} {p q : List String} {s t : Nat}
  {same : Renaming → α → β → Prop} {excuse : Prop}

theorem agreeing_reserve {m₁ : Machine ρ₁} {m₂ : Machine ρ₂} (quiet₁ : m₁.mode = .quiet reserve₁)
    (quiet₂ : m₂.mode = .quiet reserve₂) (names names' : List String) {f : Unit → Eval ρ₁ α} {g : Unit → Eval ρ₂ β}
    (run : (agreeing reserve₁ reserve₂ excuse).Matches R (names' ++ (names ++ p)) q s t same (f ()) (g ())) :
    (agreeing reserve₁ reserve₂ excuse).Matches R p q s t same (m₁.reserve s names >>= f)
      (m₂.reserve t names' >>= g) := by
  intro w₁ w₂ agree
  have left := rel_reserve (S := agreeing reserve₁ false excuse) names agree
  have both := rel_reserve (S := agreeing false reserve₂ excuse) names' left
  simp only [bind, EStateM.bind, Machine.reserve_run, quiet₁, quiet₂]
  exact outcome_growth (.steady (Store.reserveIf_extent reserve₁ _ _ _) (Store.reserveIf_extent reserve₂ _ _ _))
    (run { w₁ with store := _ } { w₂ with store := _ } both)

-- The names that are reserved first have no part in the answer.
theorem agreeing_evalForms (depth : Nat) (names names' : List String) {forms : List Value}
    (readable : ∀ form ∈ forms, Reader.Readable form) :
    (agreeing reserve₁ reserve₂ False).Matches R p (Machine.leftUndefined forms (names' ++ (names ++ p))) 0 0
      Value.Alike (evalForms (.quiet reserve₁) depth names forms : Eval ρ₁ Value)
      (evalForms (.quiet reserve₂) depth names' forms : Eval ρ₂ Value) := by
  cases depth with
  | zero => exact matches_recover agreeing_recovers (matches_throw (.alike (.same .tooDeep)))
  | succ depth =>
      have pair : (agreeing reserve₁ reserve₂ False).Pair (.ofDepth (.quiet reserve₁) depth : Machine ρ₁)
          (.ofDepth (.quiet reserve₂) depth : Machine ρ₂) := ofDepth_pair _ (.inl rfl)
      refine matches_recover agreeing_recovers
        (agreeing_reserve (Machine.ofDepth_quiet _ _) (Machine.ofDepth_quiet _ _) names names' ?_)
      exact matches_sequence pair .nil (List.forall₂_same.mpr fun form member => (readable form member).alike R)

end Simulation

/-- A text of two chunks has the answer of its first chunk followed, if that has a value, by its second; where the
first chunk fails, the text does no more than to evaluate the forms of the first chunk. -/
theorem chunks_compose (depth₀ : Nat) (steps : List (Mode ρ × String)) {depth : Nat} {a b : String}
    {fa fb : List Value} (first : Reader.parse depth a = .ok (.pair (.sym "begin") (.ofList fa)))
    (second : Reader.parse depth b = .ok (.pair (.sym "begin") (.ofList fb))) (some_ : fb ≠ []) :
    let w : World ρ := session depth₀ steps .start
    let joined : Eval ρ Value := evalText (.quiet true) depth (a ++ "\n" ++ b)
    let one : Eval ρ Value := evalText (.quiet true) depth a
    let other : Eval ρ Value := evalText (.quiet true) depth b
    SameAnswer w.store (joined w) ((one >>= fun _ => other) w) ∧
      ∀ f, one.failure? w = some f →
        joined w = evalForms (.quiet true) depth (Machine.definedNames (fa ++ fb)) fa w := by
  intro w joined one other
  have readA : ∀ form ∈ fa, Reader.Readable form := fun form member =>
    Reader.readAll_readable depth a.toList form (by rwa [Reader.parse_forms.mp first])
  have readB : ∀ form ∈ fb, Reader.Readable form := fun form member =>
    Reader.readAll_readable depth b.toList form (by rwa [Reader.parse_forms.mp second])
  have present : 0 < w.store.scopes.size := session_present depth₀ steps
  have agree := (session_sound depth₀ steps).agree present
  have whole : joined = evalForms (.quiet true) depth (Machine.definedNames (fa ++ fb)) fa >>= fun _ =>
      evalForms (.quiet true) depth [] fb :=
    (evalText_forms true (Reader.parse_line first second)).trans (evalForms_append _ depth _ fa some_)
  have alone : one = evalForms (.quiet true) depth (Machine.definedNames fa) fa := evalText_forms true first
  have next : other = evalForms (.quiet true) depth (Machine.definedNames fb) fb := evalText_forms true second
  obtain ⟨q, start⟩ : ∃ q, (Simulation.agreeing true true False).Matches (Renaming.identity w.store) [] q 0 0
      Value.Alike (evalForms (.quiet true) depth (Machine.definedNames (fa ++ fb)) fa : Eval ρ Value) one := by
    rw [alone]
    exact ⟨_, Simulation.agreeing_evalForms depth _ _ readA⟩
  refine ⟨?_, fun f failed => ?_⟩
  · rw [whole, next]
    exact Simulation.sameAnswer_of_matches (Simulation.matches_bind start fun _ _ _ _ _ =>
      Simulation.agreeing_evalForms depth _ _ readB) (Renaming.within_refl _) agree
  · have ends := start w w agree
    rw [whole]
    unfold Eval.failure? at failed
    simp only [bind, EStateM.bind]
    generalize evalForms (.quiet true) depth (Machine.definedNames (fa ++ fb)) fa w = r, one w = r' at ends failed ⊢
    cases ends with
    | ok => cases failed
    | error => rfl
    | excused₁ excuse => exact excuse.2.elim
    | excused₂ excuse => exact excuse.2.elim

-- The first chunk calls for a name that the second one defines, which the joined text has reserved by then.
theorem chunks_compose_forward :
    let a := "(define f (lambda () g)) (f) ; too early"
    let b := "(define g 1)"
    let forms := [Value.ofList [.sym "define", .sym "f", .ofList [.sym "lambda", .nil, .sym "g"]], .ofList [.sym "f"]]
    let w : World String := World.start
    SameAnswer w.store (evalText (.quiet true) 9 (a ++ "\n" ++ b) w)
        ((evalText (.quiet true) 9 a >>= fun _ => evalText (.quiet true) 9 b) w) ∧
      evalText (.quiet true) 9 (a ++ "\n" ++ b) w = evalForms (.quiet true) 9 ["f", "g"] forms w := by
  intro a b forms w
  have first : Reader.parse 9 a = .ok (.pair (.sym "begin") (.ofList forms)) := by decide +kernel
  have second : Reader.parse 9 b =
      .ok (.pair (.sym "begin") (.ofList [.ofList [.sym "define", .sym "g", .int 1]])) := by decide +kernel
  have composed := chunks_compose 9 ([] : List (Mode String × String)) first second (by simp)
  exact ⟨composed.1, composed.2 (.error (.unbound "g")) (by decide +kernel)⟩

end CurriedLisp
