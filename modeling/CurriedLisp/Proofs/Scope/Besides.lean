import CurriedLisp.Proofs.Scope.Agree
import CurriedLisp.Proofs.Scope.Wellformed

set_option autoImplicit false

/-!
Stores with values besides. Scopes that stand for each other hold values that are alike, in any order, but the root of
the right store may also have values for names that have none in the left root. Such a name is visible from everywhere
on the right, so that a block which reserves it on the left need not do so there.
-/

namespace CurriedLisp

variable {R R' : Renaming} {s t : Nat} {σ τ σ' τ' : Store} {name : String}

-- What a scope holds under a name on the left and on the right; `extra` is the value that the right root has besides,
-- and `outer` tells whether this is the root.
inductive Facing (R : Renaming) (extra : Option Value) (outer : Option Nat) : Option Value → Option Value → Prop where
  | alike {x y : Option Value} : Option.Rel (Value.Alike R) x y → (extra.isSome → outer = none → y.isSome) →
      Facing R extra outer x y
  | reserved : extra.isSome → outer.isSome → Facing R extra outer (some .unassigned) none
  | given {x : Option Value} {v : Value} : extra = some v → outer = none → assigned? x = none →
      Facing R extra outer x (some v)

namespace Facing

variable {extra : Option Value} {outer : Option Nat} {x y : Option Value}

theorem mono (within : R.Within R') (facing : Facing R extra outer x y) : Facing R' extra outer x y := by
  cases facing with
  | alike related present => exact .alike (rel_imp (fun _ _ alike => alike.mono within) related) present
  | reserved besides inside => exact .reserved besides inside
  | given besides root open_ => exact .given besides root open_

theorem values {v w : Value} (alike : v.Alike R w) : Facing R extra outer (some v) (some w) :=
  .alike (.some alike) fun _ _ => rfl

theorem related (facing : Facing R none outer x y) : Option.Rel (Value.Alike R) x y := by
  cases facing with
  | alike related _ => exact related
  | reserved besides _ => cases besides
  | given besides _ _ => cases besides

theorem assigned (facing : Facing R extra outer x y) :
    Option.Rel (Value.Alike R) (assigned? x) (assigned? y) ∨ outer = none ∧ assigned? x = none ∧ y = extra := by
  cases facing with
  | alike related _ => exact .inl (assigned_rel related)
  | reserved _ _ => exact .inl .none
  | given besides root open_ => exact .inr ⟨root, open_, besides.symm⟩

end Facing

structure Store.Besides (extra : String → Option Value) (R : Renaming) (s t : Nat) (σ τ : Store) : Prop where
  aligned : Store.Aligned R σ τ
  running : R.scopes s t
  contents : ∀ a b, R.scopes a b → ∀ name,
    Facing R (extra name) (σ.outer? a) ((σ.vars a).lookup name) ((τ.vars b).lookup name)

theorem Store.reserveAll_lookup (ordered : σ.Ordered) (present : s < σ.scopes.size) (names : List String)
    (name : String) : ((names.foldl (·.reserve s) σ).vars s).lookup name =
      if name ∈ names ∧ σ.cell name s = none then some .unassigned else (σ.vars s).lookup name := by
  induction names generalizing σ with
  | nil => simp
  | cons first rest ih =>
      rw [List.foldl_cons]
      by_cases seen : (σ.cell first s).isSome
      · rw [reserve_cell, if_pos seen, ih ordered present]
        by_cases same : name = first
        · subst same
          simp [Option.isSome_iff_ne_none.mp seen]
        · simp only [List.mem_cons, same, false_or]
      · have rebound := Rebound.reserve σ s first
        rw [ih (ordered.of_outer rebound.outer) (rebound.size ▸ present), reserve_cell, if_neg seen]
        have touched := σ.define_touched s first .unassigned
        by_cases same : name = first
        · subst same
          have held := define_lookup present name .unassigned
          rw [cell_step (define_ordered ordered s name .unassigned), held]
          simp [Option.not_isSome_iff_eq_none.mp seen]
        · rw [touched.cell ordered (.inr same), touched.others s name (.inr same)]
          simp only [List.mem_cons, same, false_or]

namespace Store.Besides

variable {extra : String → Option Value}

theorem visible (besides : Besides extra R s t σ τ) (more : (extra name).isSome) {a b : Nat} (related : R.scopes a b) :
    (τ.cell name b).isSome := by
  induction a using Nat.strongRecOn generalizing b with
  | ind a ih =>
      have held := besides.contents a b related name
      have outer := besides.aligned.outer a b related
      have older (o : Nat) (inside : σ.outer? a = some o) : o < a := besides.aligned.ordered₁.older inside
      rw [cell_step besides.aligned.ordered₂, Option.isSome_or, Bool.or_eq_true]
      generalize (σ.vars a).lookup name = x, (τ.vars b).lookup name = y at held
      generalize σ.outer? a = o, τ.outer? b = o' at held outer older
      cases outer with
      | some around => exact .inr (ih _ (older _ rfl) around)
      | none =>
          cases held with
          | alike _ present => exact .inl (present more rfl)
          | reserved _ inside => cases inside
          | given => exact .inl rfl

theorem cells (besides : Besides extra R s t σ τ) (name : String) {a b : Nat} (related : R.scopes a b) :
    Option.Rel (Value.Alike R) (σ.cell name a) (τ.cell name b) ∨ (extra name).isSome ∧ σ.Blank name a := by
  induction a using Nat.strongRecOn generalizing b with
  | ind a ih =>
      have held := besides.contents a b related name
      have outer := besides.aligned.outer a b related
      have older (o : Nat) (inside : σ.outer? a = some o) : o < a := besides.aligned.ordered₁.older inside
      rw [Blank, cell_step besides.aligned.ordered₁, cell_step besides.aligned.ordered₂]
      generalize (σ.vars a).lookup name = x, (τ.vars b).lookup name = y at held
      generalize σ.outer? a = o, τ.outer? b = o' at held outer older
      cases held with
      | alike values _ =>
          cases values with
          | some alike => exact .inl (.some alike)
          | none =>
              cases outer with
              | some around => exact ih _ (older _ rfl) around
              | none => exact .inl .none
      | reserved more _ => exact .inr ⟨more, rfl⟩
      | given more root open_ =>
          subst root
          refine .inr ⟨Option.isSome_of_eq_some more, ?_⟩
          rw [Option.bind_none, Option.or_none]
          exact open_

theorem rebound (besides : Besides extra R s t σ τ) (within : R.Within R') (scopes : R'.scopes = R.scopes)
    (closures : ∀ i j, R'.closures i j → R.closures i j ∨ i < σ'.closures ∧ j < τ'.closures) (left : σ.Rebound s σ')
    (right : τ.Rebound t τ')
    (here : ∀ name, Facing R' (extra name) (σ.outer? s) ((σ'.vars s).lookup name) ((τ'.vars t).lookup name)) :
    Besides extra R' s t σ' τ' := by
  refine ⟨besides.aligned.rebound within scopes closures left right, within.1 _ _ besides.running,
    fun a b related name => ?_⟩
  rw [scopes] at related
  rw [left.outer]
  by_cases same : a = s
  · subst same
    obtain rfl := R.scopesRight related besides.running
    exact here name
  · have other : b ≠ t := fun equal => same (R.scopesLeft (equal ▸ related) besides.running)
    rw [left.others a same, right.others b other]
    exact (besides.contents a b related name).mono within

theorem define (besides : Besides extra R s t σ τ) (name : String) {v w : Value} (alike : v.Alike R w) :
    Besides extra R s t (σ.define s name v) (τ.define t name w) := by
  obtain ⟨present₁, present₂⟩ := besides.aligned.bounds s t besides.running
  refine besides.rebound R.within_refl rfl (fun _ _ old => .inl old) (.define σ s name v) (.define τ t name w)
    fun other => ?_
  by_cases same : other = name
  · subst same
    rw [define_lookup present₁, define_lookup present₂]
    exact .values alike
  · rw [(σ.define_touched s name v).others s other (.inr same), (τ.define_touched t name w).others t other (.inr same)]
    exact besides.contents s t besides.running other

-- A name that is visible on the right alone is reserved on the left alone.
theorem reserve (besides : Besides extra R s t σ τ) (name : String) :
    Besides extra R s t (σ.reserve s name) (τ.reserve t name) := by
  rw [reserve_cell, reserve_cell]
  obtain seen | ⟨more, _⟩ := besides.cells name besides.running
  · have same : (σ.cell name s).isSome = (τ.cell name t).isSome := by
      generalize σ.cell name s = x, τ.cell name t = y at seen
      cases seen <;> rfl
    rw [same]
    by_cases held : (τ.cell name t).isSome
    · rw [if_pos held, if_pos held]
      exact besides
    · rw [if_neg held, if_neg held]
      exact besides.define name .unassigned
  · rw [if_pos (besides.visible more besides.running)]
    by_cases held : (σ.cell name s).isSome
    · rw [if_pos held]
      exact besides
    · rw [if_neg held]
      refine besides.rebound R.within_refl rfl (fun _ _ old => .inl old) (.define σ s name .unassigned) (.refl τ t)
        fun other => ?_
      have facing := besides.contents s t besides.running other
      by_cases same : other = name
      · subst same
        have absent : (σ.vars s).lookup other = none := by
          rw [cell_step besides.aligned.ordered₁, Option.isSome_or, Bool.or_eq_true, not_or] at held
          exact Option.not_isSome_iff_eq_none.mp held.1
        rw [define_lookup (besides.aligned.bounds s t besides.running).1]
        rw [absent] at facing
        generalize (τ.vars t).lookup other = y at facing
        cases facing with
        | alike nothing present =>
            cases nothing
            refine .reserved more (Option.isSome_iff_ne_none.mpr fun root => ?_)
            cases present more root
        | given besides root _ => exact .given besides root rfl
      · rw [(σ.define_touched s name .unassigned).others s other (.inr same)]
        exact facing

theorem reserveAll (besides : Besides (fun _ => none) R s t σ τ) {names names' : List String}
    (same : ∀ name, name ∈ names ↔ name ∈ names') :
    Besides (fun _ => none) R s t (names.foldl (·.reserve s) σ) (names'.foldl (·.reserve t) τ) := by
  obtain ⟨present₁, present₂⟩ := besides.aligned.bounds s t besides.running
  refine besides.rebound R.within_refl rfl (fun _ _ old => .inl old) (.reserveAll σ s names) (.reserveAll τ t names')
    fun name => ?_
  have seen := (besides.cells name besides.running).resolve_right fun more => by cases more.1
  have unseen : σ.cell name s = none ↔ τ.cell name t = none := by
    generalize σ.cell name s = x, τ.cell name t = y at seen
    cases seen <;> simp
  have alike := and_congr (same name) unseen
  rw [reserveAll_lookup besides.aligned.ordered₁ present₁, reserveAll_lookup besides.aligned.ordered₂ present₂]
  by_cases new : name ∈ names ∧ σ.cell name s = none
  · rw [if_pos new, if_pos (alike.mp new)]
    exact .values .unassigned
  · rw [if_neg new, if_neg fun other => new (alike.mpr other)]
    exact besides.contents s t besides.running name

theorem addClosure (besides : Besides extra R s t σ τ) : ∃ R' : Renaming,
    Growth R σ τ R' σ.addClosure τ.addClosure ∧ R'.closures σ.closures τ.closures ∧
      Besides extra R' s t σ.addClosure τ.addClosure := by
  obtain ⟨R', growth, scopes, made, aligned⟩ := besides.aligned.addClosure
  exact ⟨R', growth, made, besides.rebound growth.within scopes (fun i j related => .inr (aligned.closures i j related))
    (.closure σ s) (.closure τ t) fun name => (besides.contents s t besides.running name).mono growth.within⟩

theorem enter (besides : Besides extra R s t σ τ) {c d : Nat} (captured : R.scopes c d) : ∃ R' : Renaming,
    Growth R σ τ R' (σ.addScope (some c)) (τ.addScope (some d)) ∧
      Besides extra R' σ.scopes.size τ.scopes.size (σ.addScope (some c)) (τ.addScope (some d)) := by
  obtain ⟨R', growth, only, aligned⟩ := besides.aligned.addScope captured
  have kept₁ : σ.Kept (σ.addScope (some c)) := fun i old => σ.addScope_old (some c) old
  have kept₂ : τ.Kept (τ.addScope (some d)) := fun i old => τ.addScope_old (some d) old
  refine ⟨R', growth, aligned, (only _ _).mpr (.inr ⟨rfl, rfl⟩), fun a b related name => ?_⟩
  obtain old | ⟨rfl, rfl⟩ := (only a b).mp related
  · obtain ⟨bound₁, bound₂⟩ := besides.aligned.bounds a b old
    rw [kept₁.vars bound₁, kept₂.vars bound₂, kept₁.outer bound₁]
    exact (besides.contents a b old name).mono growth.within
  · rw [addScope_vars, addScope_vars, addScope_outer]
    exact .alike .none fun _ root => by cases root

theorem run (besides : Besides extra R s t σ τ) {a b : Nat} (related : R.scopes a b) : Besides extra R a b σ τ :=
  { besides with running := related }

end Store.Besides

theorem Store.Sound.besides (sound : σ.Sound) {scope : Nat} (present : scope < σ.scopes.size) :
    Besides (fun _ => none) (Renaming.identity σ) scope scope σ σ := by
  refine ⟨sound.aligned, ⟨rfl, present⟩, ?_⟩
  rintro a b ⟨rfl, bound⟩ name
  exact .alike (sound.contents bound name) fun more => by cases more

theorem Store.Wellformed.root_of_outer (fine : σ.Wellformed) {scope : Nat} (present : scope < σ.scopes.size)
    (root : σ.outer? scope = none) : scope = 0 := by
  have found : σ.scopes[scope]? = some σ.scopes[scope] := Array.getElem?_eq_getElem present
  rw [outer?, found] at root
  exact fine.rooted scope _ found root

def single (name : String) (v : Value) (other : String) : Option Value := if other = name then some v else none

@[simp] theorem single_same (name : String) (v : Value) : single name v name = some v := if_pos rfl

theorem single_isSome {name other : String} {v : Value} : (single name v other).isSome ↔ other = name := by
  unfold single
  by_cases same : other = name <;> simp [same]

theorem Store.Wellformed.besides_define (fine : σ.Wellformed) (present : 0 < σ.scopes.size)
    (free : assigned? ((σ.vars 0).lookup name) = none) (v : Value) :
    Besides (single name v) (Renaming.identity σ) 0 0 σ (σ.define 0 name v) := by
  have aligned := fine.sound.aligned.rebound (Renaming.within_refl _) rfl (fun _ _ old => .inl old) (.refl σ 0)
    (.define σ 0 name v)
  refine ⟨aligned, ⟨rfl, present⟩, ?_⟩
  rintro a b ⟨rfl, bound⟩ other
  by_cases here : a = 0 ∧ other = name
  · obtain ⟨rfl, rfl⟩ := here
    have root : σ.outer? 0 = none := Option.eq_none_iff_forall_ne_some.mpr fun o inside =>
      absurd (fine.ordered.older inside) (Nat.not_lt_zero o)
    rw [define_lookup present]
    exact .given (single_same other v) root free
  · rw [(σ.define_touched 0 name v).others a other (not_and_or.mp here)]
    exact .alike (fine.sound.contents bound other) fun more root =>
      absurd ⟨fine.root_of_outer bound root, single_isSome.mp more⟩ here

end CurriedLisp
