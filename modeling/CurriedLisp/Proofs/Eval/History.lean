import CurriedLisp.Proofs.Eval.Lockstep
import CurriedLisp.Proofs.Scope.Frame

set_option autoImplicit false

/-!
Histories. A recorded run keeps every moment together with the store at that moment and does otherwise what the
run does. Once an evaluation has ended, no later store differs in a scope that was made in it, and the scope of a
partial application stays as it was bound; of a session only the root scope can change between texts.
-/

namespace CurriedLisp

variable {ρ : Type}

structure Record (ρ : Type) where
  moment : Moment
  store : Store
  line : Option ρ

namespace Record

-- The scopes that are final at a moment.
def Settles (r : Record ρ) (i : Nat) : Prop :=
  match r.moment with
  | .ends _ _ older _ => older ≤ i ∧ i < r.store.scopes.size
  | .binds formals args scope => args.length < formals.length ∧ i = scope ∧ i < r.store.scopes.size
  | _ => False

def KeptIn (r : Record ρ) (s : Store) : Prop := ∀ i, r.Settles i → s.scopes[i]? = r.store.scopes[i]?

theorem settles_known {r : Record ρ} {i : Nat} (settled : r.Settles i) : i < r.store.scopes.size := by
  unfold Settles at settled
  split at settled
  · exact settled.2
  · exact settled.2.2
  · exact settled.elim

theorem settles_since {r : Record ρ} {w : World (Record ρ)} {i : Nat} (since : r.moment.IsSince w)
    (settled : r.Settles i) : w.store.scopes.size ≤ i := by
  unfold Settles at settled
  unfold Moment.IsSince at since
  split at settled
  · rename_i moment
    rw [moment] at since
    exact Nat.le_trans since settled.1
  · rename_i moment
    rw [moment] at since
    rw [settled.2.1]
    exact since settled.1
  · exact settled.elim

end Record

def Mode.recorded (mode : Mode ρ) : Mode (Record ρ) where
  watch depth moment store := (mode.watch depth moment store).map fun line => some ⟨moment, store, line⟩
  reserve := mode.reserve

-- The records of a run from `w` to `w'` in a scope, latest first.
structure History (scope : Nat) (w w' : World (Record ρ)) (records : List (Record ρ)) : Prop where
  trace : w'.trace = records ++ w.trace
  framed : w.store.Framed scope w'.store
  framedAt : ∀ r ∈ records, w.store.Framed scope r.store
  fresh : ∀ r ∈ records, ∀ i, r.Settles i → w.store.scopes.size ≤ i
  kept : ∀ r ∈ records, r.KeptIn w'.store
  ordered : records.Pairwise fun later earlier => earlier.KeptIn later.store

namespace History

theorem of_framed {scope : Nat} {w w' : World (Record ρ)} (trace : w'.trace = w.trace)
    (framed : w.store.Framed scope w'.store) : History scope w w' [] :=
  ⟨trace, framed, by simp, by simp, by simp, .nil⟩

theorem append {scope : Nat} {u v w : World (Record ρ)} {first second : List (Record ρ)}
    (present : scope < u.store.scopes.size) (before : History scope u v first)
    (after : History scope v w second) : History scope u w (second ++ first) := by
  -- A scope that is final in the first part is neither the running one nor new in the second part.
  have keeps : ∀ r ∈ first, ∀ s, v.store.Framed scope s → r.KeptIn s := by
    intro r member s framed i settled
    have new := before.fresh r member i settled
    have same := before.kept r member i settled
    have known : i < v.store.scopes.size := by
      have found : v.store.scopes[i]?.isSome := by
        rw [same]
        simpa using Record.settles_known settled
      simpa using found
    exact (framed.others i known (by omega)).trans same
  refine ⟨?_, Store.framed_trans before.framed after.framed, ?_, ?_, ?_, ?_⟩
  · rw [after.trace, before.trace, List.append_assoc]
  · intro r member
    rcases List.mem_append.mp member with late | early
    · exact Store.framed_trans before.framed (after.framedAt r late)
    · exact before.framedAt r early
  · intro r member i settled
    rcases List.mem_append.mp member with late | early
    · exact Nat.le_trans before.framed.grown (after.fresh r late i settled)
    · exact before.fresh r early i settled
  · intro r member
    rcases List.mem_append.mp member with late | early
    · exact after.kept r late
    · exact keeps r early _ after.framed
  · exact List.pairwise_append.mpr ⟨after.ordered, before.ordered,
      fun later late earlier early => keeps earlier early _ (after.framedAt later late)⟩

theorem inner {scope : Nat} {outer : Option Nat} {w w' : World (Record ρ)} {records : List (Record ρ)}
    (present : scope < w.store.scopes.size)
    (within : History w.store.scopes.size (w.addScope outer) w' records) : History scope w w' records := by
  refine ⟨within.trace, Store.framed_inner present within.framed,
    fun r member => Store.framed_inner present (within.framedAt r member), ?_, within.kept, within.ordered⟩
  intro r member i settled
  have new := within.fresh r member i settled
  simp only [World.addScope, Store.addScope_size] at new
  omega

theorem report {scope : Nat} {w w' : World (Record ρ)} {records : List (Record ρ)} (r : Record ρ)
    (run : History scope w w' records) (since : r.moment.IsSince w) (current : r.store = w'.store) :
    History scope w (w'.report r) (r :: records) := by
  refine ⟨by simp [World.report, run.trace], run.framed, ?_, ?_, ?_, ?_⟩
  · intro e member
    rcases List.mem_cons.mp member with rfl | old
    · rw [current]
      exact run.framed
    · exact run.framedAt e old
  · intro e member i settled
    rcases List.mem_cons.mp member with rfl | old
    · exact Record.settles_since since settled
    · exact run.fresh e old i settled
  · intro e member
    rcases List.mem_cons.mp member with rfl | old
    · intro i _
      rw [current]
      rfl
    · exact run.kept e old
  · refine List.pairwise_cons.mpr ⟨fun e old => ?_, run.ordered⟩
    rw [current]
    exact run.kept e old

end History

def Evolution.history (mode : Mode ρ) : Evolution mode.recorded where
  rel scope w w' := scope < w.store.scopes.size → ∃ records, History scope w w' records
  refl scope w _ := ⟨[], .of_framed rfl (Store.framed_refl scope w.store)⟩
  trans first second present := by
    obtain ⟨early, before⟩ := first present
    obtain ⟨late, after⟩ := second (Nat.lt_of_lt_of_le present before.framed.grown)
    exact ⟨late ++ early, before.append present after⟩
  define scope w name value _ := ⟨[], .of_framed rfl (Store.define_framed w.store scope name value)⟩
  closure scope w _ := ⟨[], .of_framed rfl ⟨Nat.le_refl _, fun _ _ _ => rfl, rfl, List.prefix_refl _⟩⟩
  inner within present := by
    obtain ⟨records, history⟩ := within (by simp [World.addScope, Store.addScope_size])
    exact ⟨records, history.inner present⟩
  note := by
    intro scope w w' depth moment line run since seen present
    obtain ⟨records, history⟩ := run present
    simp only [Mode.recorded] at seen
    cases told : mode.watch depth moment w'.store with
    | error o => simp [told, Except.map] at seen
    | ok own =>
        rw [told] at seen
        cases seen
        exact ⟨_, history.report ⟨moment, w'.store, own⟩ since rfl⟩

def Lockstep.recorded (mode : Mode ρ) : Lockstep mode.recorded mode where
  trace records lines := lines = records.filterMap (·.line)
  stops _ _ _ := False
  later _ never := never
  reserve := rfl
  note := by
    intro moment store depth₁ depth₂ records lines depths same
    obtain rfl | ⟨_, never⟩ := depths
    · simp only [Mode.recorded]
      cases mode.watch depth₁ moment store with
      | error o => exact .inr rfl
      | ok line => cases line <;> simp [Except.map, same]
    · exact (never ⟨store, records⟩ lines).elim

def World.lines (w : World (Record ρ)) : World ρ := ⟨w.store, w.trace.filterMap (·.line)⟩

theorem World.eq_lines {mode : Mode ρ} {recorded : World (Record ρ)} {w : World ρ}
    (related : (Lockstep.recorded mode).rel recorded w) : w = recorded.lines :=
  World.eq_of related.1.symm related.2

theorem evalText_recorded (mode : Mode ρ) (depth : Nat) (code : String) (w : World (Record ρ)) :
    (evalText mode depth code).after w.lines = ((evalText mode.recorded depth code).after w).lines := by
  have run := (Lockstep.evalText_follows (L := .recorded mode) (fun never => never) depth code).agrees w w.lines
    ⟨rfl, rfl⟩
  unfold Eval.after
  generalize evalText mode.recorded depth code w = r₁, evalText mode depth code w.lines = r₂ at run ⊢
  cases run with
  | ok a related => exact World.eq_lines related
  | error f related => exact World.eq_lines related
  | stopped never => exact never.elim

def recordedSteps (steps : List (Mode ρ × String)) : List (Mode (Record ρ) × String) :=
  steps.map fun step => (step.1.recorded, step.2)

theorem session_recorded (depth : Nat) (steps : List (Mode ρ × String)) (w : World (Record ρ)) :
    session depth steps w.lines = (session depth (recordedSteps steps) w).lines := by
  induction steps generalizing w with
  | nil => rfl
  | cons step rest ih =>
      change session depth rest ((evalText step.1 depth step.2).after w.lines) = _
      rw [evalText_recorded, ih]
      rfl

theorem session_history (depth : Nat) (steps : List (Mode ρ × String)) (w : World (Record ρ))
    (present : 0 < w.store.scopes.size) :
    ∃ records, History 0 w (session depth (recordedSteps steps) w) records := by
  induction steps generalizing w with
  | nil => exact ⟨[], .of_framed rfl (Store.framed_refl 0 w.store)⟩
  | cons step rest ih =>
      obtain ⟨early, before⟩ := (Evolution.history step.1).evalText_rel depth step.2 w present
      obtain ⟨late, after⟩ := ih _ (Nat.lt_of_lt_of_le present before.framed.grown)
      exact ⟨late ++ early, before.append present after⟩

theorem session_append (depth : Nat) (before after : List (Mode ρ × String)) (w : World ρ) :
    session depth (before ++ after) w = session depth after (session depth before w) :=
  List.foldl_append

theorem session_framed (depth : Nat) (steps : List (Mode ρ × String)) (w : World ρ)
    (present : 0 < w.store.scopes.size) : w.store.Framed 0 (session depth steps w).store := by
  induction steps generalizing w with
  | nil => exact Store.framed_refl 0 w.store
  | cons step rest ih =>
      have first := (Evolution.frame step.1).evalText_rel depth step.2 w present
      exact Store.framed_trans first (ih _ (Nat.lt_of_lt_of_le present first.grown))

theorem session_present (depth : Nat) (steps : List (Mode ρ × String)) :
    0 < (session depth steps World.start).store.scopes.size :=
  Nat.lt_of_lt_of_le start_present (session_framed depth steps World.start start_present).grown

/-- Whatever an evaluation does, it changes none of the scopes that were there but its own, and that one only by
binding names; scopes are final once they are settled; and between the texts of a session all but the root are. -/
theorem evaluation_frame_law (ρ : Type) :
    (∀ (mode : Mode ρ) (depth : Nat) (expr : Value) (scope : Nat) (w : World ρ),
      scope < w.store.scopes.size →
        w.store.Framed scope ((evaluate mode depth expr scope).after w).store) ∧
    (∀ (depth : Nat) (steps : List (Mode ρ × String)),
      let recorded := session depth (recordedSteps steps) World.start
      session depth steps World.start = recorded.lines ∧
        recorded.trace.Pairwise (fun later earlier => earlier.KeptIn later.store) ∧
        ∀ r ∈ recorded.trace, r.KeptIn recorded.store) ∧
    (∀ (depth : Nat) (before after : List (Mode ρ × String)) (i : Nat), i ≠ 0 →
      i < (session depth before World.start).store.scopes.size →
        (session depth (before ++ after) World.start).store.scopes[i]? =
          (session depth before World.start).store.scopes[i]?) := by
  refine ⟨evaluate_framed, fun depth steps => ?_, fun depth before after i other old => ?_⟩
  · obtain ⟨records, history⟩ := session_history depth steps World.start start_present
    have trace : (session depth (recordedSteps steps) World.start).trace = records := by
      rw [history.trace]
      exact List.append_nil records
    intro recorded
    exact ⟨session_recorded depth steps World.start, trace ▸ history.ordered, trace ▸ history.kept⟩
  · have first := session_framed depth before World.start start_present
    rw [session_append]
    exact (session_framed depth after _ (Nat.lt_of_lt_of_le start_present first.grown)).others i old other

theorem evaluation_frame_law_curried :
    let steps := [(Mode.program true, "(define add (lambda (x y) (+ x y))) (define one (add 1))")]
    let after := [(Mode.program true, "(let ((x 5)) (one (define y x)))")]
    let w : World String := session 9 steps World.start
    0 < w.store.scopes.size ∧
      w.store.Framed 0 ((evaluate (.program true) 9 (.ofList [.sym "one", .int 2]) 0).after w).store ∧
      1 ≠ 0 ∧ 1 < w.store.scopes.size ∧
      (session 9 (steps ++ after) World.start).store.scopes[1]? = w.store.scopes[1]? := by
  have root : 0 < (session 9 [(Mode.program true, "(define add (lambda (x y) (+ x y))) (define one (add 1))")]
      World.start).store.scopes.size := by decide +kernel
  have made : 1 < (session 9 [(Mode.program true, "(define add (lambda (x y) (+ x y))) (define one (add 1))")]
      World.start).store.scopes.size := by decide +kernel
  exact ⟨root, (evaluation_frame_law String).1 _ _ _ _ _ root, by decide, made,
    (evaluation_frame_law String).2.2 _ _ _ _ (by decide) made⟩

end CurriedLisp
