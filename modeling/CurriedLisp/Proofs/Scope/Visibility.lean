import CurriedLisp.Proofs.Scope.Aligned

set_option autoImplicit false

namespace CurriedLisp.Store

-- What the target holds under the name is seen from the scope: no scope nearer to it holds the name.
def Reaches (s : Store) (name : String) (scope target : Nat) : Prop :=
  target ∈ s.chain scope ∧ ∀ i ∈ (s.chain scope).takeWhile (· ≠ target), (s.vars i).lookup name = none

instance (s : Store) (name : String) (scope target : Nat) : Decidable (s.Reaches name scope target) :=
  inferInstanceAs (Decidable (_ ∧ _))

section Chain

variable {s t : Store} {scope outer target : Nat} {name : String}

theorem chain_root (root : s.outer? scope = none) : s.chain scope = [scope] := by
  rw [chain, root]

theorem chain_inside (ordered : s.Ordered) (inside : s.outer? scope = some outer) :
    s.chain scope = scope :: s.chain outer := by
  rw [chain, inside]
  exact if_pos (ordered.older inside)

theorem chain_congr (same : ∀ i, i ≤ scope → t.outer? i = s.outer? i) : t.chain scope = s.chain scope := by
  induction scope using Nat.strongRecOn with
  | ind scope ih =>
      rw [chain, chain, same scope (Nat.le_refl _)]
      cases s.outer? scope with
      | none => rfl
      | some outer =>
          by_cases older : outer < scope
          · have rest := ih outer older fun i below => same i (Nat.le_trans below (Nat.le_of_lt older))
            simp only [if_pos older, rest]
          · simp only [if_neg older]

theorem Rebound.chain {changed : Nat} (rebound : s.Rebound changed t) (scope : Nat) : t.chain scope = s.chain scope :=
  chain_congr fun i _ => rebound.outer i

theorem mem_chain_self (ordered : s.Ordered) (scope : Nat) : scope ∈ s.chain scope := by
  cases around : s.outer? scope with
  | none => simp [chain_root around]
  | some outer => simp [chain_inside ordered around]

theorem chain_older (ordered : s.Ordered) (member : target ∈ s.chain scope) : target ≤ scope := by
  induction scope using Nat.strongRecOn with
  | ind scope ih =>
      cases around : s.outer? scope with
      | none =>
          rw [chain_root around, List.mem_singleton] at member
          exact Nat.le_of_eq member
      | some outer =>
          rw [chain_inside ordered around, List.mem_cons] at member
          have older := ordered.older around
          cases member with
          | inl same => exact Nat.le_of_eq same
          | inr member => exact Nat.le_trans (ih outer older member) (Nat.le_of_lt older)

theorem beside_outside (ordered : s.Ordered) (other : scope ≠ target)
    (beside : scope ∈ s.chain target ∨ s.outer? scope = s.outer? target) : target ∉ s.chain scope := by
  intro inside
  cases beside with
  | inl around =>
      have older := chain_older ordered around
      have younger := chain_older ordered inside
      omega
  | inr sibling =>
      cases around : s.outer? scope with
      | none =>
          rw [chain_root around, List.mem_singleton] at inside
          exact other inside.symm
      | some outer =>
          rw [chain_inside ordered around, List.mem_cons] at inside
          have below := chain_older ordered (inside.resolve_left (Ne.symm other))
          have older := ordered.older (sibling.symm.trans around)
          omega

theorem cell_none_outward (ordered : s.Ordered) (member : target ∈ s.chain scope) (blank : s.cell name scope = none) :
    s.cell name target = none := by
  induction scope using Nat.strongRecOn with
  | ind scope ih =>
      cases around : s.outer? scope with
      | none =>
          rw [chain_root around, List.mem_singleton] at member
          rwa [member]
      | some outer =>
          rw [chain_inside ordered around, List.mem_cons] at member
          cases member with
          | inl same => rwa [same]
          | inr member =>
              rw [cell_step ordered, around, Option.or_eq_none_iff] at blank
              exact ih outer (ordered.older around) member blank.2

theorem reaches_self (ordered : s.Ordered) (name : String) (scope : Nat) : s.Reaches name scope scope := by
  refine ⟨mem_chain_self ordered scope, fun i nearer => ?_⟩
  cases around : s.outer? scope with
  | none => simp [chain_root around] at nearer
  | some outer => simp [chain_inside ordered around] at nearer

theorem reaches_root (root : s.outer? scope = none) (other : scope ≠ target) : ¬ s.Reaches name scope target := by
  intro reaches
  have member := reaches.1
  rw [chain_root root, List.mem_singleton] at member
  exact other member.symm

theorem reaches_inside (ordered : s.Ordered) (inside : s.outer? scope = some outer) (other : scope ≠ target) :
    s.Reaches name scope target ↔ (s.vars scope).lookup name = none ∧ s.Reaches name outer target := by
  have away : decide (scope ≠ target) = true := decide_eq_true other
  unfold Reaches
  rw [chain_inside ordered inside, List.takeWhile_cons, if_pos away, List.mem_cons, List.forall_mem_cons]
  simp only [Ne.symm other, false_or]
  exact and_left_comm

theorem reaches_blank (ordered : s.Ordered) (member : target ∈ s.chain scope) (blank : s.cell name scope = none) :
    s.Reaches name scope target := by
  refine ⟨member, fun i nearer => ?_⟩
  have around : i ∈ s.chain scope := (List.takeWhile_sublist _).subset nearer
  have none := cell_none_outward ordered around blank
  rw [cell_step ordered, Option.or_eq_none_iff] at none
  exact none.1

theorem reaches_cell (ordered : s.Ordered) (reaches : s.Reaches name scope target) :
    s.cell name scope = s.cell name target := by
  induction scope using Nat.strongRecOn with
  | ind scope ih =>
      by_cases same : scope = target
      · rw [same]
      · cases around : s.outer? scope with
        | none => exact absurd reaches (reaches_root around same)
        | some outer =>
            obtain ⟨free, further⟩ := (reaches_inside ordered around same).mp reaches
            rw [cell_step ordered, free, around]
            exact ih outer (ordered.older around) further

end Chain

section Define

variable {s : Store} {target : Nat}

theorem define_cell (ordered : s.Ordered) (present : target < s.scopes.size) (name : String) (value : Value)
    (key : String) (scope : Nat) :
    (s.define target name value).cell key scope =
      if key = name ∧ s.Reaches name scope target then some value else s.cell key scope := by
  have rebound := Rebound.define s target name value
  induction scope using Nat.strongRecOn with
  | ind scope ih =>
      rw [cell_step (define_ordered ordered target name value), rebound.outer, cell_step ordered key scope]
      by_cases here : scope = target
      · subst here
        by_cases same : key = name
        · subst same
          rw [define_lookup present, if_pos ⟨rfl, reaches_self ordered key scope⟩]
          rfl
        · rw [define_vars, if_pos ⟨rfl, present⟩, lookup_assign_other same, if_neg fun both => same both.1]
          cases around : s.outer? scope with
          | none => rfl
          | some outer =>
              rw [Option.bind_some, Option.bind_some, ih outer (ordered.older around), if_neg fun both => same both.1]
      · rw [rebound.others scope here]
        cases around : s.outer? scope with
        | none =>
            rw [if_neg fun both => reaches_root around here both.2]
            rfl
        | some outer =>
            rw [Option.bind_some, Option.bind_some, ih outer (ordered.older around)]
            simp only [reaches_inside ordered around here]
            cases held : (s.vars scope).lookup key with
            | none =>
                by_cases same : key = name
                · subst same
                  simp [held]
                · simp [same]
            | some v =>
                have blocked : ¬ (key = name ∧ (s.vars scope).lookup name = none ∧ s.Reaches name outer target) := by
                  intro both
                  rw [← both.1, held] at both
                  cases both.2.1
                rw [if_neg blocked]
                rfl

theorem lookup_define (ordered : s.Ordered) (present : target < s.scopes.size) (name : String) {value : Value}
    (assigned : value ≠ .unassigned) (scope : Nat) (key : String) :
    (s.define target name value).lookup scope key =
      if key = name ∧ s.Reaches name scope target then .ok value else s.lookup scope key := by
  rw [lookup_cell, lookup_cell, define_cell ordered present]
  by_cases seen : key = name ∧ s.Reaches name scope target
  · rw [if_pos seen, if_pos seen]
    cases value with
    | unassigned => exact absurd rfl assigned
    | _ => rfl
  · rw [if_neg seen, if_neg seen]

end Define

section Reserve

variable {s : Store} {target : Nat}

theorem cell_reserve (ordered : s.Ordered) (present : target < s.scopes.size) (name key : String) (scope : Nat) :
    (s.reserve target name).cell key scope =
      if key = name ∧ target ∈ s.chain scope ∧ s.cell key scope = none then some .unassigned else s.cell key scope := by
  rw [reserve_cell]
  by_cases seen : (s.cell name target).isSome
  · rw [if_pos seen, if_neg]
    intro ⟨same, member, blank⟩
    subst same
    rw [cell_none_outward ordered member blank] at seen
    cases seen
  · have free : s.cell name target = none := Option.not_isSome_iff_eq_none.mp seen
    rw [if_neg seen, define_cell ordered present]
    refine if_congr (and_congr_right fun same => ?_) rfl rfl
    subst same
    exact ⟨fun reaches => ⟨reaches.1, (reaches_cell ordered reaches).trans free⟩,
      fun both => reaches_blank ordered both.1 both.2⟩

theorem cell_reserveAll (ordered : s.Ordered) (present : target < s.scopes.size) (names : List String) (key : String)
    (scope : Nat) :
    (names.foldl (·.reserve target) s).cell key scope =
      if key ∈ names ∧ target ∈ s.chain scope ∧ s.cell key scope = none then some .unassigned
      else s.cell key scope := by
  induction names generalizing s with
  | nil => simp
  | cons name rest ih =>
      have rebound := Rebound.reserve s target name
      rw [List.foldl_cons, ih (ordered.of_outer rebound.outer) (rebound.size ▸ present), rebound.chain,
        cell_reserve ordered present]
      by_cases first : key = name ∧ target ∈ s.chain scope ∧ s.cell key scope = none
      · obtain ⟨rfl, member, blank⟩ := first
        simp [member, blank]
      · rw [if_neg first]
        refine if_congr ?_ rfl rfl
        rw [List.mem_cons, or_and_right]
        exact (or_iff_right first).symm

theorem lookup_unbound (s : Store) (scope : Nat) (name : String) :
    s.lookup scope name = .error (.unbound name) ↔ s.cell name scope = none := by
  rw [lookup_cell]
  cases s.cell name scope with
  | none => simp
  | some v => cases v <;> simp

theorem lookup_error {scope : Nat} {name : String} {e : Error} (failed : s.lookup scope name = .error e) :
    e = .unbound name ∨ e = .unassigned name := by
  rw [lookup_cell] at failed
  cases seen : s.cell name scope with
  | none =>
      rw [seen] at failed
      cases failed
      exact .inl rfl
  | some v =>
      rw [seen] at failed
      cases v with
      | unassigned =>
          cases failed
          exact .inr rfl
      | _ => cases failed

theorem lookup_reserveAll (ordered : s.Ordered) (present : target < s.scopes.size) (names : List String) (scope : Nat)
    (key : String) :
    (names.foldl (·.reserve target) s).lookup scope key =
      if key ∈ names ∧ target ∈ s.chain scope ∧ s.lookup scope key = .error (.unbound key) then
        .error (.unassigned key)
      else s.lookup scope key := by
  simp only [lookup_unbound]
  rw [lookup_cell, lookup_cell s, cell_reserveAll ordered present]
  by_cases first : key ∈ names ∧ target ∈ s.chain scope ∧ s.cell key scope = none
  · rw [if_pos first, if_pos first]
  · rw [if_neg first, if_neg first]

theorem reserveAll_visible {names : List String} (visible : ∀ name ∈ names, (s.cell name target).isSome) :
    names.foldl (·.reserve target) s = s := by
  induction names with
  | nil => rfl
  | cons name rest ih =>
      obtain ⟨first, others⟩ := List.forall_mem_cons.mp visible
      rw [List.foldl_cons, reserve_cell, if_pos first]
      exact ih others

end Reserve

end CurriedLisp.Store
