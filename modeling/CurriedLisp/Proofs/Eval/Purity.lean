import CurriedLisp.Proofs.Eval.History
import CurriedLisp.Proofs.Eval.Outcome
import CurriedLisp.Proofs.Eval.Wellformed

set_option autoImplicit false

namespace CurriedLisp

variable {ρ : Type}

-- The second store has further scopes and closures, and all that the first store has is there unchanged.
structure Store.Extension (s t : Store) : Prop where
  kept : s.Kept t
  scopes : s.scopes.size ≤ t.scopes.size
  closures : s.closures ≤ t.closures
  ordered : t.Ordered

theorem Store.Sound.extension_similar {s t : Store} (sound : s.Sound) (extension : s.Extension t) :
    Similar (Renaming.identity s) [] s t := by
  obtain ⟨ordered, _, _, frames, closures⟩ := sound.similar
  refine ⟨ordered, extension.ordered, fun x f member => (List.not_mem_nil member).elim, fun a b related => ?_,
    fun i j related => ?_⟩
  · obtain ⟨f, g, extra, stop, left, right, alike⟩ := frames a b related
    have old : b < s.scopes.size := related.1 ▸ related.2
    exact ⟨f, g, extra, stop, left, (extension.kept b old).trans right, alike⟩
  · exact ⟨(closures i j related).1, Nat.lt_of_lt_of_le (closures i j related).2 extension.closures⟩

-- Keeping every scope but the running one, which need not be there.
def Evolution.others (mode : Mode ρ) : Evolution mode where
  rel scope w w' := w.store.scopes.size ≤ w'.store.scopes.size ∧
    ∀ i, i < w.store.scopes.size → i ≠ scope → w'.store.scopes[i]? = w.store.scopes[i]?
  refl _ _ := ⟨Nat.le_refl _, fun _ _ _ => rfl⟩
  trans first second := ⟨Nat.le_trans first.1 second.1, fun i old other =>
    (second.2 i (Nat.lt_of_lt_of_le old first.1) other).trans (first.2 i old other)⟩
  define scope w name value := ⟨by simp [World.define, Store.define], fun _ _ other =>
    Store.define_other w.store name value other⟩
  closure _ _ := ⟨Nat.le_refl _, fun _ _ _ => rfl⟩
  inner {_ outer w _} within := by
    have grown : w.store.scopes.size < (w.addScope outer).store.scopes.size :=
      Nat.lt_of_lt_of_eq (Nat.lt_succ_self _) (w.store.addScope_size outer).symm
    exact ⟨Nat.le_trans (Nat.le_of_lt grown) within.1, fun i old _ =>
      (within.2 i (Nat.lt_trans old grown) (Nat.ne_of_lt old)).trans (w.store.addScope_old outer old)⟩
  note run _ _ := run

theorem apply_kept (mode : Mode ρ) (depth : Nat) (proc : Value) (args : List Value) (w : World ρ) :
    w.store.Kept (((Machine.ofDepth mode depth).apply proc args).after w).store := by
  have run : (Evolution.others mode).Admits w.store.scopes.size w ((Machine.ofDepth mode depth).apply proc args) :=
    Evolution.admits_apply (m := .ofDepth mode depth) rfl ((Evolution.others mode).evaluate_rel depth) proc args
  exact fun i old => (run w ((Evolution.others mode).refl _ w)).2 i old (Nat.ne_of_lt old)

theorem Store.Sound.extension_refl {s : Store} (sound : s.Sound) : s.Extension s :=
  ⟨fun _ _ => rfl, Nat.le_refl _, Nat.le_refl _, sound.ordered⟩

section Apply

variable {proc : Value} {args : List Value} {w w' : World ρ} (sound : w.store.Sound)
  (present : 0 < w.store.scopes.size) (belongs : proc.Belongs w.store) (given : ∀ arg ∈ args, arg.Belongs w.store)

include sound present belongs given

theorem apply_outcome (reserve : Bool) (d e : Nat) (extension : w.store.Extension w'.store) :
    (Simulation.similar reserve [] (d ≠ e)).Outcome (Renaming.identity w.store) [] 0 0 Value.Alike w.store w'.store
      ((Machine.ofDepth (.quiet reserve) d).apply proc args w)
      ((Machine.ofDepth (.quiet reserve) e).apply proc args w') := by
  have pair : (Simulation.similar reserve [] (d ≠ e)).Pair (.ofDepth (.quiet reserve) d : Machine ρ)
      (.ofDepth (.quiet reserve) e : Machine ρ) := Simulation.ofDepth_pair _ (Simulation.similar_depths reserve [] d e)
  have alike : List.Forall₂ (Value.Alike (Renaming.identity w.store)) args args :=
    List.forall₂_same.mpr fun arg member => (given arg member).alike
  exact Simulation.matches_apply pair belongs.alike alike w w' ⟨⟨rfl, present⟩, sound.extension_similar extension⟩

theorem apply_extension (reserve : Bool) (depth : Nat) :
    w.store.Extension (((Machine.ofDepth (.quiet reserve) depth).apply proc args).after w).store := by
  have kept := apply_kept (.quiet reserve) depth proc args w
  have outcome := apply_outcome sound present belongs given reserve depth depth sound.extension_refl
  unfold Eval.after at kept ⊢
  generalize (Machine.ofDepth (.quiet reserve) depth).apply proc args w = r at outcome kept ⊢
  cases outcome with
  | ok growth related => exact ⟨kept, growth.scopes₁, growth.closures₁, related.2.ordered₁⟩
  | error growth related => exact ⟨kept, growth.scopes₁, growth.closures₁, related.2.ordered₁⟩
  | excused₁ excuse => exact absurd rfl excuse.2
  | excused₂ excuse => exact absurd rfl excuse.2

end Apply

/-- Procedures are pure: an application only extends the store, and from every extension of the store it has the same
outcome again, to whatever depth either may nest as long as neither exhausts it. -/
theorem procedures_are_pure (depth₀ : Nat) (steps : List (Mode ρ × String)) {proc : Value} {args : List Value}
    (belongs : proc.Belongs (session depth₀ steps (World.start : World ρ)).store)
    (given : ∀ arg ∈ args, arg.Belongs (session depth₀ steps (World.start : World ρ)).store) (reserve : Bool)
    (d e : Nat) :
    let w : World ρ := session depth₀ steps .start
    let first : Eval ρ Value := (Machine.ofDepth (.quiet reserve) d).apply proc args
    let again : Eval ρ Value := (Machine.ofDepth (.quiet reserve) e).apply proc args
    w.store.Extension (first.after w).store ∧
      ∀ w' : World ρ, w.store.Extension w'.store → d = e ∨ first.Fits w ∧ again.Fits w' →
        SameOutcome w.store (first w) (again w') := by
  intro w first again
  have sound : w.store.Sound := session_sound depth₀ steps
  have present : 0 < w.store.scopes.size := session_present depth₀ steps
  refine ⟨apply_extension sound present belongs given reserve d, fun w' extension enough => ?_⟩
  have outcome := apply_outcome sound present belongs given reserve d e extension
  change Simulation.Outcome _ _ _ _ _ _ _ _ (first w) (again w') at outcome
  unfold Eval.Fits Eval.failure? at enough
  generalize first w = r, again w' = r' at outcome enough ⊢
  cases outcome with
  | ok growth related alike => exact .value (Store.renamed_of_similar growth.within related.2) alike alike.text
  | error growth related alike => exact .failure (Store.renamed_of_similar growth.within related.2) alike
  | excused₁ excuse =>
      obtain ⟨rfl, other⟩ := excuse
      exact absurd rfl (enough.resolve_left other).1
  | excused₂ excuse =>
      obtain ⟨rfl, other⟩ := excuse
      exact absurd rfl (enough.resolve_left other).2

-- A body that rebinds its formal does so in a scope of its own, so that a second call finds nothing changed.
theorem procedures_are_pure_rebinding :
    let x := Value.sym "x"
    let body := Value.ofList [.sym "begin", .ofList [.sym "define", x, .ofList [.sym "+", x, .sym "y"]], x]
    let proc := Value.closure 0 ["x", "y"] body 0
    let w : World String := session 9 [(.program true, "(define f (lambda (x y) (define x (+ x y)) x))")] .start
    let call : Eval String Value := (Machine.ofDepth (.quiet true) 9).apply proc [.int 1, .int 2]
    w.store.lookup 0 "f" = .ok proc ∧ call.failure? w = none ∧ w.store.Extension (call.after w).store ∧
      SameOutcome w.store (call w) (call (call.after w)) := by
  intro x body proc w call
  have pure_ := procedures_are_pure 9 [(.program true, "(define f (lambda (x y) (define x (+ x y)) x))")]
    (by decide +kernel : proc.Belongs w.store) (by decide : ∀ arg ∈ [Value.int 1, Value.int 2], arg.Belongs w.store) true 9 9
  exact ⟨by decide +kernel, by decide +kernel, pure_.1, pure_.2 _ pure_.1 (.inl rfl)⟩

end CurriedLisp
