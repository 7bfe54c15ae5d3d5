import CurriedLisp.Proofs.Scope.Frame

set_option autoImplicit false

namespace CurriedLisp.Store

def cell (store : Store) (name : String) (scope : Nat) : Option Value :=
  (store.find? name scope).bind fun holder => (store.vars holder).lookup name

def Ordered (s : Store) : Prop :=
  ∀ (i : Nat) (f : Scope), s.scopes[i]? = some f → ∀ o, f.outer = some o → o < i

def assignAll (bindings : List (String × Value)) (vars : List (String × Value)) : List (String × Value) :=
  bindings.foldl (fun vars (name, v) => assign name v vars) vars

theorem find_holds {s : Store} {name : String} {scope holder : Nat} (found : s.find? name scope = some holder) :
    ((s.vars holder).lookup name).isSome := by
  induction scope using Nat.strongRecOn generalizing holder with
  | ind scope ih =>
      rw [find?] at found
      cases present : s.scopes[scope]? with
      | none => simp [present] at found
      | some f =>
          simp only [present] at found
          split at found
          · rename_i holds
            cases found
            simpa only [vars, present, Scope.get?] using holds
          · split at found
            · cases found
            · split at found
              · rename_i older
                exact ih _ older found
              · cases found

theorem cell_frame {s : Store} {scope : Nat} {f : Scope} (ordered : s.Ordered) (present : s.scopes[scope]? = some f)
    (name : String) : s.cell name scope = (f.vars.lookup name).or (f.outer.bind (s.cell name)) := by
  rw [cell, find?]
  simp only [present, Scope.get?]
  by_cases held : (f.vars.lookup name).isSome
  · obtain ⟨v, found⟩ := Option.isSome_iff_exists.mp held
    simp [vars, present, found]
  · have absent := Option.not_isSome_iff_eq_none.mp held
    cases inside : f.outer with
    | none => simp [absent]
    | some o => simp [absent, ordered scope f present o inside, cell]

theorem Ordered.older {s : Store} (ordered : s.Ordered) {scope outer : Nat} (inside : s.outer? scope = some outer) :
    outer < scope := by
  cases present : s.scopes[scope]? with
  | none => simp [outer?, present] at inside
  | some f => exact ordered scope f present outer (by simpa only [outer?, present] using inside)

theorem cell_step {s : Store} (ordered : s.Ordered) (name : String) (scope : Nat) :
    s.cell name scope = ((s.vars scope).lookup name).or ((s.outer? scope).bind (s.cell name)) := by
  cases present : s.scopes[scope]? with
  | none => simp [cell, find?, vars, outer?, present]
  | some f =>
      rw [cell_frame ordered present name]
      simp [vars, outer?, present]

-- A cell depends on the scope, on those around it, and on what they have under its name.
theorem cell_congr {s t : Store} (ordered : s.Ordered) (ordered' : t.Ordered) {name : String} {scope : Nat}
    (same : ∀ i, i ≤ scope → t.outer? i = s.outer? i ∧ (t.vars i).lookup name = (s.vars i).lookup name) :
    t.cell name scope = s.cell name scope := by
  induction scope using Nat.strongRecOn with
  | ind scope ih =>
      obtain ⟨outer, held⟩ := same scope (Nat.le_refl _)
      rw [cell_step ordered, cell_step ordered', outer, held]
      congr 1
      cases inside : s.outer? scope with
      | none => rfl
      | some o =>
          have older := ordered.older inside
          exact ih o older fun i below => same i (Nat.le_trans below (Nat.le_of_lt older))

theorem Kept.outer {s t : Store} (kept : s.Kept t) {i : Nat} (old : i < s.scopes.size) : t.outer? i = s.outer? i := by
  rw [outer?, outer?, kept i old]

theorem Kept.vars {s t : Store} (kept : s.Kept t) {i : Nat} (old : i < s.scopes.size) : t.vars i = s.vars i := by
  rw [Store.vars, Store.vars, kept i old]

theorem Kept.cell {s t : Store} (kept : s.Kept t) (ordered : s.Ordered) (ordered' : t.Ordered) {name : String}
    {i : Nat} (old : i < s.scopes.size) : t.cell name i = s.cell name i :=
  cell_congr ordered ordered' fun j below =>
    have older := Nat.lt_of_le_of_lt below old
    ⟨kept.outer older, by rw [kept.vars older]⟩

theorem addScope_outer (s : Store) (outer : Option Nat) : (s.addScope outer).outer? s.scopes.size = outer := by
  simp [outer?, addScope]

theorem addScope_vars (s : Store) (outer : Option Nat) : (s.addScope outer).vars s.scopes.size = [] := by
  simp [vars, addScope]

theorem find_isSome (s : Store) (name : String) (scope : Nat) :
    (s.find? name scope).isSome = (s.cell name scope).isSome := by
  unfold cell
  cases found : s.find? name scope with
  | none => rfl
  | some holder => simpa using find_holds found

theorem lookup_cell (s : Store) (name : String) (scope : Nat) :
    s.lookup scope name = match s.cell name scope with
      | none => .error (.unbound name)
      | some .unassigned => .error (.unassigned name)
      | some v => .ok v := by
  unfold lookup cell
  cases s.find? name scope with
  | none => rfl
  | some holder => rfl

theorem reserve_cell (s : Store) (name : String) (scope : Nat) :
    s.reserve scope name = if (s.cell name scope).isSome then s else s.define scope name .unassigned := by
  rw [← find_isSome, reserve]
  cases s.find? name scope <;> rfl

theorem define_vars (s : Store) (scope i : Nat) (name : String) (value : Value) :
    (s.define scope name value).vars i =
      if i = scope ∧ i < s.scopes.size then assign name value (s.vars i) else s.vars i := by
  by_cases same : i = scope
  · subst same
    by_cases present : i < s.scopes.size
    · rw [if_pos ⟨rfl, present⟩, vars, vars, define_same]
      simp [present]
    · rw [if_neg fun both => present both.2, vars, vars, define_same]
      simp [present]
  · rw [if_neg fun both => same both.1, vars, vars, define_other s name value same]

theorem define_lookup {s : Store} {scope : Nat} (present : scope < s.scopes.size) (name : String) (value : Value) :
    ((s.define scope name value).vars scope).lookup name = some value := by
  rw [define_vars, if_pos ⟨rfl, present⟩, lookup_assign_same]

theorem define_ordered {s : Store} (ordered : s.Ordered) (scope : Nat) (name : String) (value : Value) :
    (s.define scope name value).Ordered := by
  intro i f present o inside
  by_cases same : i = scope
  · subst same
    rw [define_same] at present
    obtain ⟨g, old, rfl⟩ := Option.map_eq_some_iff.mp present
    exact ordered i g old o inside
  · rw [define_other s name value same] at present
    exact ordered i f present o inside

theorem addFrame_ordered {s : Store} (ordered : s.Ordered) (entries : List (String × Value)) {outer : Option Nat}
    (older : ∀ o, outer = some o → o < s.scopes.size) : (s.addFrame entries outer).Ordered := by
  intro i f present o inside
  have bound : i < (s.addFrame entries outer).scopes.size := (Array.getElem?_eq_some_iff.mp present).1
  rw [addFrame_size] at bound
  by_cases last : i = s.scopes.size
  · subst last
    rw [addFrame_new] at present
    cases present
    exact older o inside
  · rw [addFrame_old s entries outer (by omega)] at present
    exact ordered i f present o inside

theorem define_addFrame (s : Store) (entries : List (String × Value)) (outer : Option Nat) (name : String)
    (value : Value) : (s.addFrame entries outer).define s.scopes.size name value =
      s.addFrame (assign name value entries) outer := by
  have same : (s.scopes.push ⟨entries, outer⟩).modify s.scopes.size
      (fun f => { f with vars := assign name value f.vars }) = s.scopes.push ⟨assign name value entries, outer⟩ := by
    apply Array.ext_getElem?
    intro i
    rw [Array.getElem?_modify, Array.getElem?_push, Array.getElem?_push]
    by_cases last : i = s.scopes.size
    · simp [last]
    · simp [last, Ne.symm last]
  unfold define addFrame
  rw [same]

theorem defineAll_addFrame (s : Store) (entries : List (String × Value)) (outer : Option Nat)
    (bindings : List (String × Value)) :
    bindings.foldl (fun t (name, v) => t.define s.scopes.size name v) (s.addFrame entries outer) =
      s.addFrame (assignAll bindings entries) outer := by
  induction bindings generalizing entries with
  | nil => rfl
  | cons first rest ih =>
      obtain ⟨name, value⟩ := first
      simp only [List.foldl_cons, define_addFrame]
      exact ih (assign name value entries)

theorem lookup_assignAll (name : String) (bindings entries : List (String × Value)) :
    (assignAll bindings entries).lookup name = (bindings.reverse.lookup name).or (entries.lookup name) := by
  induction bindings generalizing entries with
  | nil => simp [assignAll]
  | cons first rest ih =>
      obtain ⟨key, value⟩ := first
      change (assignAll rest (assign key value entries)).lookup name = _
      rw [ih, List.reverse_cons, List.lookup_append, Option.or_assoc]
      congr 1
      by_cases same : name = key
      · subst same
        rw [lookup_assign_same]
        simp
      · rw [lookup_assign_other same]
        have unequal : (name == key) = false := by simpa using same
        simp [List.lookup_cons, unequal]

end CurriedLisp.Store
