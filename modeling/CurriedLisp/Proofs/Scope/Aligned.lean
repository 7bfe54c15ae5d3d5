import CurriedLisp.Proofs.Scope.Cell
import CurriedLisp.Proofs.Scope.Growth
import CurriedLisp.Proofs.Scope.Similar

set_option autoImplicit false

namespace CurriedLisp.Store

theorem Ordered.of_outer {s t : Store} (ordered : s.Ordered) (same : ∀ i, t.outer? i = s.outer? i) : t.Ordered := by
  intro i f present o inside
  refine ordered.older ?_
  rw [← same, outer?, present]
  exact inside

-- One store is the other one but for what a scope holds and for closures that were made.
structure Rebound (s : Store) (scope : Nat) (t : Store) : Prop where
  size : t.scopes.size = s.scopes.size
  closures : s.closures ≤ t.closures
  outer : ∀ i, t.outer? i = s.outer? i
  others : ∀ i, i ≠ scope → ∀ name, (t.vars i).lookup name = (s.vars i).lookup name

namespace Rebound

variable {s t u : Store} {scope : Nat}

theorem refl (s : Store) (scope : Nat) : s.Rebound scope s := ⟨rfl, Nat.le_refl _, fun _ => rfl, fun _ _ _ => rfl⟩

theorem trans (first : s.Rebound scope t) (second : t.Rebound scope u) : s.Rebound scope u :=
  ⟨second.size.trans first.size, Nat.le_trans first.closures second.closures,
    fun i => (second.outer i).trans (first.outer i),
    fun i other name => (second.others i other name).trans (first.others i other name)⟩

theorem closure (s : Store) (scope : Nat) : s.Rebound scope s.addClosure :=
  ⟨rfl, Nat.le_succ _, fun _ => rfl, fun _ _ _ => rfl⟩

theorem define (s : Store) (scope : Nat) (name : String) (value : Value) :
    s.Rebound scope (s.define scope name value) := by
  refine ⟨by simp [Store.define], Nat.le_refl _, fun i => ?_, fun i other name' => ?_⟩
  · by_cases same : i = scope
    · subst same
      exact (define_framed s i name value).outer
    · rw [outer?, outer?, define_other s name value same]
  · rw [define_vars, if_neg fun here => other here.1]

theorem reserve (s : Store) (scope : Nat) (name : String) : s.Rebound scope (s.reserve scope name) := by
  rw [reserve_cell]
  by_cases seen : (s.cell name scope).isSome
  · rw [if_pos seen]
    exact refl s scope
  · rw [if_neg seen]
    exact define s scope name .unassigned

theorem reserveAll (s : Store) (scope : Nat) (names : List String) :
    s.Rebound scope (names.foldl (·.reserve scope) s) := by
  induction names generalizing s with
  | nil => exact refl s scope
  | cons name rest ih => exact (reserve s scope name).trans (ih _)

end Rebound

structure Aligned (R : Renaming) (σ τ : Store) : Prop where
  ordered₁ : σ.Ordered
  ordered₂ : τ.Ordered
  bounds : ∀ a b, R.scopes a b → a < σ.scopes.size ∧ b < τ.scopes.size
  closures : ∀ i j, R.closures i j → i < σ.closures ∧ j < τ.closures
  outer : ∀ a b, R.scopes a b → Option.Rel R.scopes (σ.outer? a) (τ.outer? b)

namespace Aligned

variable {R R' : Renaming} {s t : Nat} {σ τ σ' τ' : Store}

theorem rebound (aligned : Aligned R σ τ) (within : R.Within R') (scopes : R'.scopes = R.scopes)
    (closures : ∀ i j, R'.closures i j → R.closures i j ∨ i < σ'.closures ∧ j < τ'.closures) (left : σ.Rebound s σ')
    (right : τ.Rebound t τ') : Aligned R' σ' τ' := by
  refine ⟨aligned.ordered₁.of_outer left.outer, aligned.ordered₂.of_outer right.outer, fun a b related => ?_,
    fun i j related => ?_, fun a b related => ?_⟩
  · rw [left.size, right.size]
    rw [scopes] at related
    exact aligned.bounds a b related
  · obtain old | new := closures i j related
    · obtain ⟨made₁, made₂⟩ := aligned.closures i j old
      exact ⟨Nat.lt_of_lt_of_le made₁ left.closures, Nat.lt_of_lt_of_le made₂ right.closures⟩
    · exact new
  · rw [left.outer, right.outer]
    rw [scopes] at related
    exact rel_imp within.1 (aligned.outer a b related)

theorem addClosure (aligned : Aligned R σ τ) : ∃ R' : Renaming,
    Growth R σ τ R' σ.addClosure τ.addClosure ∧ R'.scopes = R.scopes ∧ R'.closures σ.closures τ.closures ∧
      Aligned R' σ.addClosure τ.addClosure := by
  have left : ∀ j, ¬ R.closures σ.closures j := fun j old => absurd (aligned.closures _ _ old).1 (Nat.lt_irrefl _)
  have right : ∀ i, ¬ R.closures i τ.closures := fun i old => absurd (aligned.closures _ _ old).2 (Nat.lt_irrefl _)
  have within := R.within_withClosure left right
  refine ⟨R.withClosure _ _ left right, .closure within rfl, rfl, .inr ⟨rfl, rfl⟩,
    aligned.rebound within rfl (fun i j related => ?_) (.closure σ 0) (.closure τ 0)⟩
  obtain old | ⟨rfl, rfl⟩ := related
  · exact .inl old
  · exact .inr ⟨Nat.lt_succ_self _, Nat.lt_succ_self _⟩

theorem addScope (aligned : Aligned R σ τ) {c d : Nat} (captured : R.scopes c d) : ∃ R' : Renaming,
    Growth R σ τ R' (σ.addScope (some c)) (τ.addScope (some d)) ∧
      (∀ a b, R'.scopes a b ↔ R.scopes a b ∨ a = σ.scopes.size ∧ b = τ.scopes.size) ∧
      Aligned R' (σ.addScope (some c)) (τ.addScope (some d)) := by
  have left : ∀ b, ¬ R.scopes σ.scopes.size b := fun b old => absurd (aligned.bounds _ b old).1 (Nat.lt_irrefl _)
  have right : ∀ a, ¬ R.scopes a τ.scopes.size := fun a old => absurd (aligned.bounds a _ old).2 (Nat.lt_irrefl _)
  have within := R.within_withScope left right
  obtain ⟨present₁, present₂⟩ := aligned.bounds c d captured
  refine ⟨R.withScope _ _ left right, .scope within fun _ _ related => related, fun _ _ => Iff.rfl,
    addFrame_ordered aligned.ordered₁ [] fun o same => Option.some.inj same ▸ present₁,
    addFrame_ordered aligned.ordered₂ [] fun o same => Option.some.inj same ▸ present₂, fun a b related => ?_,
    aligned.closures, fun a b related => ?_⟩
  · rw [addScope_size, addScope_size]
    obtain old | ⟨rfl, rfl⟩ := related
    · exact ⟨Nat.lt_succ_of_lt (aligned.bounds a b old).1, Nat.lt_succ_of_lt (aligned.bounds a b old).2⟩
    · exact ⟨Nat.lt_succ_self _, Nat.lt_succ_self _⟩
  · have kept₁ : σ.Kept (σ.addScope (some c)) := fun i old => σ.addScope_old (some c) old
    have kept₂ : τ.Kept (τ.addScope (some d)) := fun i old => τ.addScope_old (some d) old
    obtain old | ⟨rfl, rfl⟩ := related
    · rw [kept₁.outer (aligned.bounds a b old).1, kept₂.outer (aligned.bounds a b old).2]
      exact rel_imp within.1 (aligned.outer a b old)
    · rw [addScope_outer, addScope_outer]
      exact .some (.inl captured)

end Aligned

theorem Sound.aligned {s : Store} (sound : s.Sound) : Aligned (Renaming.identity s) s s := by
  refine ⟨sound.ordered, sound.ordered, ?_, ?_, ?_⟩
  · rintro a b ⟨rfl, bound⟩
    exact ⟨bound, bound⟩
  · rintro i j ⟨rfl, made⟩
    exact ⟨made, made⟩
  · rintro a b ⟨rfl, bound⟩
    cases inside : s.outer? a with
    | none => exact .none
    | some o => exact .some ⟨rfl, Nat.lt_trans (sound.ordered.older inside) bound⟩

theorem Sound.contents {s : Store} (sound : s.Sound) {scope : Nat} (present : scope < s.scopes.size) (name : String) :
    Option.Rel (Value.Alike (Renaming.identity s)) ((s.vars scope).lookup name) ((s.vars scope).lookup name) := by
  have found : s.scopes[scope]? = some s.scopes[scope] := Array.getElem?_eq_getElem present
  rw [vars, found]
  exact contents_entries (sound.entries found) name

end CurriedLisp.Store
