import CurriedLisp.Proofs.Eval.History
import CurriedLisp.Proofs.Eval.Wellformed

set_option autoImplicit false

namespace CurriedLisp

variable {ρ : Type}

inductive Store.Rooted (s : Store) : Nat → Prop where
  | root : s.outer? 0 = none → Rooted s 0
  | inside {scope outer : Nat} : s.outer? scope = some outer → Rooted s outer → Rooted s scope

theorem Store.Wellformed.chain_rooted {s : Store} (fine : s.Wellformed) {scope : Nat}
    (present : scope < s.scopes.size) : s.Rooted scope := by
  induction scope using Nat.strongRecOn with
  | ind scope ih =>
      cases around : s.outer? scope with
      | some outer =>
          have older := fine.ordered.older around
          exact .inside around (ih outer older (Nat.lt_trans older present))
      | none =>
          have found : s.scopes[scope]? = some s.scopes[scope] := Array.getElem?_eq_getElem present
          rw [outer?, found] at around
          obtain rfl := fine.rooted scope _ found around
          exact .root (by rw [outer?, found, around])

theorem Store.find_outward {s : Store} (ordered : s.Ordered) (name : String) (scope : Nat) :
    s.find? name scope =
      if ((s.vars scope).lookup name).isSome then some scope else (s.outer? scope).bind (s.find? name) := by
  rw [find?]
  cases found : s.scopes[scope]? with
  | none => simp [vars, outer?, found]
  | some f =>
      have own : s.vars scope = f.vars := by rw [vars, found]
      have around : s.outer? scope = f.outer := by rw [outer?, found]
      rw [own, around]
      change (if (f.vars.lookup name).isSome then _ else _) = _
      cases inside : f.outer with
      | none => rfl
      | some outer =>
          have older := ordered scope f found outer inside
          simp [older]

def Record.Wellformed (r : Record ρ) : Prop := r.store.Wellformed ∧ r.moment.Wellformed r.store

-- Every record is well-formed, and stores only grow from one record to a later one and to the end.
def Account.growing : Account (Record ρ) where
  keeps s records := (∀ r ∈ records, r.Wellformed ∧ r.store.Grows s) ∧
    records.Pairwise fun (later earlier : Record ρ) => earlier.store.Grows later.store
  mono := by
    intro s t records grows kept
    exact ⟨fun r member => ⟨(kept.1 r member).1, Store.grows_trans (kept.1 r member).2 grows⟩, kept.2⟩

theorem Mode.recorded_tells (mode : Mode ρ) : mode.recorded.Tells .growing := by
  intro depth moment s records report fine well kept seen
  obtain ⟨line, rfl⟩ : ∃ line, report = ⟨moment, s, line⟩ := by
    simp only [Mode.recorded] at seen
    cases told : mode.watch depth moment s with
    | error o => simp [told, Except.map] at seen
    | ok line =>
        rw [told] at seen
        cases seen
        exact ⟨line, rfl⟩
  refine ⟨fun r member => ?_, List.pairwise_cons.mpr ⟨fun r old => (kept.1 r old).2, kept.2⟩⟩
  rcases List.mem_cons.mp member with rfl | old
  · exact ⟨⟨well, fine⟩, s.grows_refl⟩
  · exact kept.1 r old

/-- At every moment of a session and after it, placeholders are found in cells alone, primitives are known, closures
have distinct formals and a scope that exists, and every scope lies in the root; no value gives way to a placeholder.
A further text, read or failing, has a well-formed answer. -/
theorem sessions_stay_wellformed (ρ : Type) (depth : Nat) (steps : List (Mode ρ × String)) :
    let recorded := session depth (recordedSteps steps) World.start
    session depth steps World.start = recorded.lines ∧
      (∀ r ∈ recorded.trace, r.moment.Wellformed r.store) ∧
      (∀ s ∈ recorded.store :: recorded.trace.map (·.store), s.Wellformed ∧
        ∀ scope, scope < s.scopes.size → s.Rooted scope ∧ ∀ name, s.find? name scope =
          if ((s.vars scope).lookup name).isSome then some scope else (s.outer? scope).bind (s.find? name)) ∧
      (recorded.store :: recorded.trace.map (·.store)).Pairwise (fun later earlier => earlier.Grows later) ∧
      ∀ (mode : Mode ρ) (depth : Nat) (code : String),
        Lands .nothing recorded.store Value.Wellformed (evalText mode depth code recorded.lines) := by
  intro recorded
  have tells : ∀ step ∈ recordedSteps steps, step.1.Tells .growing := by
    intro step member
    obtain ⟨own, _, rfl⟩ := List.mem_map.mp member
    exact own.1.recorded_tells
  have start : (World.start : World (Record ρ)).Wellformed .growing :=
    ⟨World.start_wellformed, fun r member => (List.not_mem_nil member).elim, .nil⟩
  obtain ⟨well, grows⟩ := session_wellformed depth tells start start_present
  obtain ⟨records, growing⟩ := well.trace
  refine ⟨session_recorded depth steps World.start, fun r member => (records r member).1.2, fun s member => ?_, ?_,
    fun mode depth code => ?_⟩
  · have fine : s.Wellformed := by
      rcases List.mem_cons.mp member with rfl | earlier
      · exact well.store
      · obtain ⟨r, reported, rfl⟩ := List.mem_map.mp earlier
        exact (records r reported).1.1
    exact ⟨fine, fun scope present => ⟨fine.chain_rooted present, fun name => Store.find_outward fine.ordered name scope⟩⟩
  · refine List.pairwise_cons.mpr ⟨fun s earlier => ?_, List.pairwise_map.mpr growing⟩
    obtain ⟨r, reported, rfl⟩ := List.mem_map.mp earlier
    exact (records r reported).2
  · exact evalText_safe mode.tells_nothing depth code (grows.present start_present) recorded.lines
      recorded.store.grows_refl ⟨well.store, trivial⟩

-- A partial application is kept by a text that fails after it; what it waits in is a scope in the root.
theorem sessions_stay_wellformed_failing :
    let steps := [(Mode.program true, "(define add (lambda (x y) (+ x y)))"),
      (Mode.program false, "(define one (add 1)) (define two (one (one)))")]
    let recorded := session 9 (recordedSteps steps) World.start
    recorded.store ∈ recorded.store :: recorded.trace.map (·.store) ∧ 1 < recorded.store.scopes.size ∧
      recorded.store.Rooted 1 ∧
      Lands .nothing recorded.store Value.Wellformed (evalText (.program true) 9 "(error one)" recorded.lines) := by
  intro steps recorded
  have made : 1 < recorded.store.scopes.size := by decide +kernel
  obtain ⟨_, _, stores, _, further⟩ := sessions_stay_wellformed String 9 steps
  exact ⟨List.mem_cons_self, made, ((stores recorded.store List.mem_cons_self).2 1 made).1, further _ _ _⟩

end CurriedLisp
