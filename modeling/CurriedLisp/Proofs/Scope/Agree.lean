import CurriedLisp.Proofs.Scope.Aligned

set_option autoImplicit false

/-!
Stores that agree up to reserved names. Scopes that stand for each other hold values that are alike, except that one
of them may hold a placeholder, or nothing at all, where the other holds a placeholder or nothing; such a name has no
value from either of them. These exceptions are confined to scopes that were made no later than the running one, so
that a definition in the running scope is hidden from no scope inside it.
-/

namespace CurriedLisp

def assigned? : Option Value → Option Value
  | some .unassigned => none
  | content => content

theorem assigned_rel {R : Renaming} {x y : Option Value} (contents : Option.Rel (Value.Alike R) x y) :
    Option.Rel (Value.Alike R) (assigned? x) (assigned? y) := by
  cases contents with
  | none => exact .none
  | some alike =>
      have whole := alike
      cases alike with
      | unassigned => exact .none
      | _ => exact .some whole

namespace Store

def Blank (s : Store) (name : String) (scope : Nat) : Prop := assigned? (s.cell name scope) = none

theorem blank_iff {s : Store} {name : String} {scope : Nat} :
    s.Blank name scope ↔ s.cell name scope = none ∨ s.cell name scope = some .unassigned := by
  rw [Blank]
  cases s.cell name scope with
  | none => simp [assigned?]
  | some v => cases v <;> simp [assigned?]

theorem blank_own {s : Store} (ordered : s.Ordered) {name : String} {scope : Nat} (blank : s.Blank name scope) :
    assigned? ((s.vars scope).lookup name) = none := by
  rw [Blank, cell_step ordered] at blank
  cases held : (s.vars scope).lookup name with
  | none => rfl
  | some v => simpa [held] using blank

-- One store is the other one but for what a scope holds under a name.
structure Touched (s : Store) (scope : Nat) (name : String) (t : Store) : Prop where
  extent : t.extent = s.extent
  outer : ∀ i, t.outer? i = s.outer? i
  others : ∀ i other, i ≠ scope ∨ other ≠ name → (t.vars i).lookup other = (s.vars i).lookup other

theorem touched_refl (s : Store) (scope : Nat) (name : String) : s.Touched scope name s :=
  ⟨rfl, fun _ => rfl, fun _ _ _ => rfl⟩

theorem define_touched (s : Store) (scope : Nat) (name : String) (value : Value) :
    s.Touched scope name (s.define scope name value) := by
  refine ⟨define_extent s scope name value, (Rebound.define s scope name value).outer, fun i other away => ?_⟩
  rw [define_vars]
  by_cases here : i = scope ∧ i < s.scopes.size
  · rw [if_pos here, lookup_assign_other (away.resolve_left fun other => other here.1)]
  · rw [if_neg here]

theorem reserveIf_touched (reserve : Bool) (s : Store) (scope : Nat) (name : String) :
    s.Touched scope name (if reserve then s.reserve scope name else s) := by
  cases reserve with
  | false => exact s.touched_refl scope name
  | true =>
      change s.Touched scope name (s.reserve scope name)
      rw [reserve_cell]
      by_cases seen : (s.cell name scope).isSome
      · rw [if_pos seen]
        exact s.touched_refl scope name
      · rw [if_neg seen]
        exact s.define_touched scope name .unassigned

namespace Touched

variable {s t : Store} {scope : Nat} {name : String}

theorem ordered (touched : s.Touched scope name t) (ordered : s.Ordered) : t.Ordered := ordered.of_outer touched.outer

theorem rebound (touched : s.Touched scope name t) : s.Rebound scope t :=
  ⟨congrArg Prod.fst touched.extent, Nat.le_of_eq (congrArg Prod.snd touched.extent).symm, touched.outer,
    fun i other name' => touched.others i name' (.inl other)⟩

theorem cell (touched : s.Touched scope name t) (ordered : s.Ordered) {i : Nat} {other : String}
    (away : i < scope ∨ other ≠ name) : t.cell other i = s.cell other i := by
  refine cell_congr ordered (touched.ordered ordered) fun j below => ⟨touched.outer j, touched.others j other ?_⟩
  exact away.imp_left fun older => Nat.ne_of_lt (Nat.lt_of_le_of_lt below older)

end Touched

theorem reserveIf_blank (reserve : Bool) {s : Store} (ordered : s.Ordered) {name : String} {scope : Nat}
    (present : scope < s.scopes.size) (blank : s.Blank name scope) :
    (if reserve then s.reserve scope name else s).Blank name scope := by
  cases reserve with
  | false => exact blank
  | true =>
      change (s.reserve scope name).Blank name scope
      rw [reserve_cell]
      by_cases seen : (s.cell name scope).isSome
      · rw [if_pos seen]
        exact blank
      · rw [if_neg seen, Blank, cell_step (define_ordered ordered scope name .unassigned), define_lookup present]
        rfl

-- What may differ between two scopes under a name.
structure Loose (pending : List String) (s t : Nat) (σ τ : Store) (a b : Nat) (name : String) : Prop where
  blank₁ : σ.Blank name a
  blank₂ : τ.Blank name b
  older₁ : a ≤ s
  older₂ : b ≤ t
  pending : a = s → name ∈ pending

structure Agree (R : Renaming) (pending : List String) (s t : Nat) (σ τ : Store) : Prop where
  ordered₁ : σ.Ordered
  ordered₂ : τ.Ordered
  running : R.scopes s t
  bounds : ∀ a b, R.scopes a b → a < σ.scopes.size ∧ b < τ.scopes.size
  closures : ∀ i j, R.closures i j → i < σ.closures ∧ j < τ.closures
  outer : ∀ a b, R.scopes a b → Option.Rel R.scopes (σ.outer? a) (τ.outer? b)
  contents : ∀ a b, R.scopes a b → ∀ name,
    Option.Rel (Value.Alike R) ((σ.vars a).lookup name) ((τ.vars b).lookup name) ∨ Loose pending s t σ τ a b name

namespace Agree

variable {R R' : Renaming} {p q : List String} {s t : Nat} {σ τ σ' τ' : Store} {name : String}

theorem aligned (agree : Agree R p s t σ τ) : Aligned R σ τ :=
  ⟨agree.ordered₁, agree.ordered₂, agree.bounds, agree.closures, agree.outer⟩

theorem cells (agree : Agree R p s t σ τ) (name : String) {a b : Nat} (related : R.scopes a b) :
    Option.Rel (Value.Alike R) (σ.cell name a) (τ.cell name b) ∨ σ.Blank name a ∧ τ.Blank name b := by
  induction a using Nat.strongRecOn generalizing b with
  | ind a ih =>
      obtain held | loose := agree.contents a b related name
      · have outer := agree.outer a b related
        have older (o : Nat) (inside : σ.outer? a = some o) : o < a := agree.ordered₁.older inside
        rw [Blank, Blank, cell_step agree.ordered₁, cell_step agree.ordered₂]
        generalize (σ.vars a).lookup name = x, (τ.vars b).lookup name = y at held
        generalize σ.outer? a = o, τ.outer? b = o' at outer older
        cases held with
        | some alike => exact .inl (.some alike)
        | none =>
            cases outer with
            | some around => exact ih _ (older _ rfl) around
            | none => exact .inl .none
      · exact .inr ⟨loose.blank₁, loose.blank₂⟩

theorem values (agree : Agree R p s t σ τ) (name : String) {a b : Nat} (related : R.scopes a b) :
    Option.Rel (Value.Alike R) (assigned? (σ.cell name a)) (assigned? (τ.cell name b)) := by
  obtain seen | ⟨blank₁, blank₂⟩ := agree.cells name related
  · exact assigned_rel seen
  · rw [blank₁, blank₂]
    exact .none

theorem bindings (agree : Agree R p s t σ τ) (name : String) {a b : Nat} (related : R.scopes a b) :
    Option.Rel (Value.Alike R) (assigned? ((σ.vars a).lookup name)) (assigned? ((τ.vars b).lookup name)) := by
  obtain held | loose := agree.contents a b related name
  · exact assigned_rel held
  · rw [blank_own agree.ordered₁ loose.blank₁, blank_own agree.ordered₂ loose.blank₂]
    exact .none

theorem touched (agree : Agree R p s t σ τ) (left : σ.Touched s name σ') (right : τ.Touched t name τ')
    (here : Option.Rel (Value.Alike R) ((σ'.vars s).lookup name) ((τ'.vars t).lookup name) ∨
      σ'.Blank name s ∧ τ'.Blank name t ∧ name ∈ q)
    (others : ∀ n ∈ p, n ≠ name → n ∈ q) : Agree R q s t σ' τ' := by
  obtain ⟨ordered₁, ordered₂, bounds, closures, outer⟩ :=
    agree.aligned.rebound R.within_refl rfl (fun _ _ old => .inl old) left.rebound right.rebound
  refine ⟨ordered₁, ordered₂, agree.running, bounds, closures, outer, ?_⟩
  intro a b related n
  by_cases changed : a = s ∧ n = name
  · obtain ⟨rfl, rfl⟩ := changed
    obtain rfl := R.scopesRight related agree.running
    exact here.imp_right fun ⟨blank₁, blank₂, member⟩ =>
      ⟨blank₁, blank₂, Nat.le_refl _, Nat.le_refl _, fun _ => member⟩
  · have away₁ : a ≠ s ∨ n ≠ name := not_and_or.mp changed
    have away₂ : b ≠ t ∨ n ≠ name :=
      away₁.imp_left fun other same => other (R.scopesLeft (same ▸ related) agree.running)
    rw [left.others a n away₁, right.others b n away₂]
    refine (agree.contents a b related n).imp_right fun loose => ?_
    have cell₁ := left.cell agree.ordered₁ (away₁.imp_left (Nat.lt_of_le_of_ne loose.older₁))
    have cell₂ := right.cell agree.ordered₂ (away₂.imp_left (Nat.lt_of_le_of_ne loose.older₂))
    refine ⟨?_, ?_, loose.older₁, loose.older₂, fun same => ?_⟩
    · rw [Blank, cell₁]
      exact loose.blank₁
    · rw [Blank, cell₂]
      exact loose.blank₂
    · exact others n (loose.pending same) (away₁.resolve_left fun other => other same)

theorem define (agree : Agree R p s t σ τ) (name : String) {v w : Value} (alike : v.Alike R w) :
    Agree R (p.filter (· ≠ name)) s t (σ.define s name v) (τ.define t name w) := by
  obtain ⟨present₁, present₂⟩ := agree.bounds s t agree.running
  refine agree.touched (σ.define_touched s name v) (τ.define_touched t name w) (.inl ?_)
    fun n member other => by simp [member, other]
  rw [define_lookup present₁, define_lookup present₂]
  exact .some alike

theorem reserve (agree : Agree R p s t σ τ) (name : String) (reserve₁ reserve₂ : Bool) :
    Agree R (name :: p) s t (if reserve₁ then σ.reserve s name else σ) (if reserve₂ then τ.reserve t name else τ) := by
  obtain ⟨present₁, present₂⟩ := agree.bounds s t agree.running
  refine agree.touched (reserveIf_touched reserve₁ σ s name) (reserveIf_touched reserve₂ τ t name) ?_
    fun n member _ => List.mem_cons_of_mem _ member
  by_cases blank : σ.Blank name s ∧ τ.Blank name t
  · exact .inr ⟨reserveIf_blank reserve₁ agree.ordered₁ present₁ blank.1,
      reserveIf_blank reserve₂ agree.ordered₂ present₂ blank.2, List.mem_cons_self⟩
  · -- The name is visible on both sides, so that it is left alone.
    have seen := (agree.cells name agree.running).resolve_right blank
    have visible : (σ.cell name s).isSome ∧ (τ.cell name t).isSome := by
      rw [blank_iff, blank_iff] at blank
      generalize σ.cell name s = x, τ.cell name t = y at seen blank
      cases seen with
      | none => simp at blank
      | some _ => exact ⟨rfl, rfl⟩
    have same₁ : (if reserve₁ then σ.reserve s name else σ) = σ := by
      rw [reserve_cell, if_pos visible.1, ite_self]
    have same₂ : (if reserve₂ then τ.reserve t name else τ) = τ := by
      rw [reserve_cell, if_pos visible.2, ite_self]
    rw [same₁, same₂]
    exact .inl ((agree.contents s t agree.running name).resolve_right fun loose =>
      blank ⟨loose.blank₁, loose.blank₂⟩)

theorem weaken (more : p ⊆ q) (agree : Agree R p s t σ τ) : Agree R q s t σ τ :=
  { agree with
    contents := fun a b related n => (agree.contents a b related n).imp_right fun loose =>
      ⟨loose.blank₁, loose.blank₂, loose.older₁, loose.older₂, fun same => more (loose.pending same)⟩ }

theorem addClosure (agree : Agree R p s t σ τ) : ∃ R' : Renaming,
    Growth R σ τ R' σ.addClosure τ.addClosure ∧ R'.closures σ.closures τ.closures ∧
      Agree R' p s t σ.addClosure τ.addClosure := by
  obtain ⟨R', growth, scopes, made, ordered₁, ordered₂, bounds, closures, outer⟩ := agree.aligned.addClosure
  refine ⟨R', growth, made, ordered₁, ordered₂, growth.within.1 _ _ agree.running, bounds, closures, outer,
    fun a b related n => ?_⟩
  rw [scopes] at related
  refine (agree.contents a b related n).imp (rel_imp fun _ _ alike => alike.mono growth.within) fun loose => ?_
  have same (s : Store) (ordered : s.Ordered) (i : Nat) : s.addClosure.cell n i = s.cell n i :=
    cell_congr (t := s.addClosure) ordered ordered fun _ _ => ⟨rfl, rfl⟩
  refine ⟨?_, ?_, loose.older₁, loose.older₂, loose.pending⟩
  · rw [Blank, same σ agree.ordered₁]
    exact loose.blank₁
  · rw [Blank, same τ agree.ordered₂]
    exact loose.blank₂

theorem loose_kept (agree : Agree R p s t σ τ) (ordered₁ : σ'.Ordered) (ordered₂ : τ'.Ordered)
    (kept₁ : σ.Kept σ') (kept₂ : τ.Kept τ') {a b : Nat} (related : R.scopes a b)
    (loose : Loose p s t σ τ a b name) : σ'.Blank name a ∧ τ'.Blank name b := by
  obtain ⟨bound₁, bound₂⟩ := agree.bounds a b related
  rw [Blank, Blank, kept₁.cell agree.ordered₁ ordered₁ bound₁, kept₂.cell agree.ordered₂ ordered₂ bound₂]
  exact ⟨loose.blank₁, loose.blank₂⟩

theorem enter (agree : Agree R p s t σ τ) {c d : Nat} (captured : R.scopes c d) : ∃ R' : Renaming,
    Growth R σ τ R' (σ.addScope (some c)) (τ.addScope (some d)) ∧
      Agree R' [] σ.scopes.size τ.scopes.size (σ.addScope (some c)) (τ.addScope (some d)) := by
  obtain ⟨R', growth, only, ordered₁, ordered₂, bounds, closures, outer⟩ := agree.aligned.addScope captured
  have kept₁ : σ.Kept (σ.addScope (some c)) := fun i old => σ.addScope_old (some c) old
  have kept₂ : τ.Kept (τ.addScope (some d)) := fun i old => τ.addScope_old (some d) old
  refine ⟨R', growth, ordered₁, ordered₂, (only _ _).mpr (.inr ⟨rfl, rfl⟩), bounds, closures, outer,
    fun a b related n => ?_⟩
  obtain old | ⟨rfl, rfl⟩ := (only a b).mp related
  · obtain ⟨bound₁, bound₂⟩ := agree.bounds a b old
    rw [kept₁.vars bound₁, kept₂.vars bound₂]
    refine (agree.contents a b old n).imp (rel_imp fun _ _ alike => alike.mono growth.within) fun loose => ?_
    obtain ⟨blank₁, blank₂⟩ := agree.loose_kept ordered₁ ordered₂ kept₁ kept₂ old loose
    exact ⟨blank₁, blank₂, Nat.le_of_lt bound₁, Nat.le_of_lt bound₂, fun same => absurd same (Nat.ne_of_lt bound₁)⟩
  · rw [addScope_vars, addScope_vars]
    exact .inl .none

theorem leave (agree : Agree R p s t σ τ) (growth : Growth R σ τ R' σ' τ')
    (inner : Agree R' [] σ.scopes.size τ.scopes.size σ' τ') (kept₁ : σ.Kept σ') (kept₂ : τ.Kept τ') :
    Agree R' p s t σ' τ' := by
  refine { inner with running := growth.within.1 _ _ agree.running, contents := fun a b related n => ?_ }
  refine (inner.contents a b related n).elim .inl fun loose => ?_
  have other : a ≠ σ.scopes.size := fun same => List.not_mem_nil (loose.pending same)
  have below : a < σ.scopes.size := Nat.lt_of_le_of_ne loose.older₁ other
  -- What the scopes inside came to relate is not older than they are.
  have old : R.scopes a b := (growth.fresh a b related).resolve_right fun new => absurd new.1 (Nat.not_le_of_lt below)
  obtain ⟨bound₁, bound₂⟩ := agree.bounds a b old
  rw [kept₁.vars bound₁, kept₂.vars bound₂]
  refine (agree.contents a b old n).imp (rel_imp fun _ _ alike => alike.mono growth.within) fun before => ?_
  exact ⟨loose.blank₁, loose.blank₂, before.older₁, before.older₂, before.pending⟩

theorem abandon (agree : Agree R p s t σ τ) (growth : Growth R σ τ R' σ' τ')
    (inner : Agree R' q σ.scopes.size τ.scopes.size σ' τ') (kept₁ : σ.Kept σ') (kept₂ : τ.Kept τ') :
    Agree R p s t σ' τ' := by
  refine ⟨inner.ordered₁, inner.ordered₂, agree.running, fun a b related => ?_, fun i j related => ?_,
    fun a b related => ?_, fun a b related n => ?_⟩
  · obtain ⟨bound₁, bound₂⟩ := agree.bounds a b related
    exact ⟨Nat.lt_of_lt_of_le bound₁ growth.scopes₁, Nat.lt_of_lt_of_le bound₂ growth.scopes₂⟩
  · obtain ⟨made₁, made₂⟩ := agree.closures i j related
    exact ⟨Nat.lt_of_lt_of_le made₁ growth.closures₁, Nat.lt_of_lt_of_le made₂ growth.closures₂⟩
  · obtain ⟨bound₁, bound₂⟩ := agree.bounds a b related
    rw [kept₁.outer bound₁, kept₂.outer bound₂]
    exact agree.outer a b related
  · obtain ⟨bound₁, bound₂⟩ := agree.bounds a b related
    rw [kept₁.vars bound₁, kept₂.vars bound₂]
    refine (agree.contents a b related n).imp_right fun loose => ?_
    obtain ⟨blank₁, blank₂⟩ := agree.loose_kept inner.ordered₁ inner.ordered₂ kept₁ kept₂ related loose
    exact ⟨blank₁, blank₂, loose.older₁, loose.older₂, loose.pending⟩

end Agree

theorem Sound.agree {s : Store} (sound : s.Sound) {scope : Nat} (present : scope < s.scopes.size) :
    Agree (Renaming.identity s) [] scope scope s s := by
  obtain ⟨ordered₁, ordered₂, bounds, closures, outer⟩ := sound.aligned
  refine ⟨ordered₁, ordered₂, ⟨rfl, present⟩, bounds, closures, outer, ?_⟩
  rintro a b ⟨rfl, bound⟩ name
  exact .inl (sound.contents bound name)

end Store

end CurriedLisp
