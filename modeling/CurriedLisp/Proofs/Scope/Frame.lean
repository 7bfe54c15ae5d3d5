import CurriedLisp.Proofs.Eval.Change

set_option autoImplicit false

namespace CurriedLisp

variable {ρ α : Type}

namespace Store

structure Framed (scope : Nat) (before after : Store) : Prop where
  grown : before.scopes.size ≤ after.scopes.size
  others : ∀ i, i < before.scopes.size → i ≠ scope → after.scopes[i]? = before.scopes[i]?
  outer : after.outer? scope = before.outer? scope
  names : (before.vars scope).map (·.1) <+: (after.vars scope).map (·.1)

theorem framed_refl (scope : Nat) (s : Store) : s.Framed scope s :=
  ⟨Nat.le_refl _, fun _ _ _ => rfl, rfl, List.prefix_refl _⟩

theorem framed_trans {scope : Nat} {s t u : Store} (first : s.Framed scope t) (second : t.Framed scope u) :
    s.Framed scope u :=
  ⟨Nat.le_trans first.grown second.grown,
    fun i old other => (second.others i (Nat.lt_of_lt_of_le old first.grown) other).trans (first.others i old other),
    second.outer.trans first.outer, first.names.trans second.names⟩

theorem define_other (s : Store) (name : String) (value : Value) {scope i : Nat} (other : i ≠ scope) :
    (s.define scope name value).scopes[i]? = s.scopes[i]? := by
  simp [define, Array.getElem?_modify, Ne.symm other]

theorem define_same (s : Store) (scope : Nat) (name : String) (value : Value) :
    (s.define scope name value).scopes[scope]? =
      s.scopes[scope]?.map fun f => { f with vars := assign name value f.vars } := by
  simp [define, Array.getElem?_modify]

theorem define_framed (s : Store) (scope : Nat) (name : String) (value : Value) :
    s.Framed scope (s.define scope name value) := by
  refine ⟨by simp [define], fun i _ other => define_other s name value other, ?_, ?_⟩
  · rw [outer?, outer?, define_same]
    cases s.scopes[scope]? <;> rfl
  · rw [vars, vars, define_same]
    cases s.scopes[scope]? with
    | none => exact List.prefix_refl _
    | some f =>
        simp only [Option.map_some, keys_assign]
        exact List.prefix_append _ _

def extent (s : Store) : Nat × Nat := (s.scopes.size, s.closures)

theorem define_extent (s : Store) (scope : Nat) (name : String) (value : Value) :
    (s.define scope name value).extent = s.extent := by simp [extent, define]

theorem defineAll_extent (s : Store) (scope : Nat) (bindings : List (String × Value)) :
    (bindings.foldl (fun s (name, v) => s.define scope name v) s).extent = s.extent := by
  induction bindings generalizing s with
  | nil => rfl
  | cons binding rest ih => exact (ih _).trans (define_extent s scope _ _)

theorem reserve_extent (s : Store) (scope : Nat) (name : String) : (s.reserve scope name).extent = s.extent := by
  unfold reserve
  split
  · rfl
  · exact define_extent s scope name .unassigned

theorem reserveIf_extent (reserve : Bool) (s : Store) (scope : Nat) (names : List String) :
    (if reserve then names.foldl (·.reserve scope) s else s).extent = s.extent := by
  cases reserve with
  | false => rfl
  | true =>
      change (names.foldl (·.reserve scope) s).extent = s.extent
      induction names generalizing s with
      | nil => rfl
      | cons name rest ih => exact (ih _).trans (reserve_extent s scope name)

def addClosure (s : Store) : Store := { s with closures := s.closures + 1 }

def addFrame (s : Store) (entries : List (String × Value)) (outer : Option Nat) : Store :=
  { s with scopes := s.scopes.push ⟨entries, outer⟩ }

theorem addFrame_old (s : Store) (entries : List (String × Value)) (outer : Option Nat) {i : Nat}
    (old : i < s.scopes.size) : (s.addFrame entries outer).scopes[i]? = s.scopes[i]? := by
  simp [addFrame, Array.getElem?_push, Nat.ne_of_lt old]

theorem addFrame_new (s : Store) (entries : List (String × Value)) (outer : Option Nat) :
    (s.addFrame entries outer).scopes[s.scopes.size]? = some ⟨entries, outer⟩ := by
  simp [addFrame]

theorem addFrame_size (s : Store) (entries : List (String × Value)) (outer : Option Nat) :
    (s.addFrame entries outer).scopes.size = s.scopes.size + 1 := by
  simp [addFrame]

theorem addScope_old (s : Store) (outer : Option Nat) {i : Nat} (old : i < s.scopes.size) :
    (s.addScope outer).scopes[i]? = s.scopes[i]? := s.addFrame_old [] outer old

theorem addScope_size (s : Store) (outer : Option Nat) : (s.addScope outer).scopes.size = s.scopes.size + 1 :=
  s.addFrame_size [] outer

def Kept (before after : Store) : Prop := ∀ i, i < before.scopes.size → after.scopes[i]? = before.scopes[i]?

theorem kept_inner {s t : Store} {outer : Option Nat} (within : (s.addScope outer).Framed s.scopes.size t) :
    s.Kept t := by
  intro i old
  rw [within.others i (by rw [addScope_size]; omega) (by omega), addScope_old s outer old]

theorem framed_inner {s t : Store} {outer : Option Nat} {scope : Nat} (present : scope < s.scopes.size)
    (within : (s.addScope outer).Framed s.scopes.size t) : s.Framed scope t := by
  have kept := kept_inner within
  have grown := within.grown
  rw [addScope_size] at grown
  refine ⟨by omega, fun i old _ => kept i old, ?_, ?_⟩
  · rw [outer?, outer?, kept scope present]
  · have same : t.vars scope = s.vars scope := by rw [vars, vars, kept scope present]
    exact same ▸ List.prefix_refl _

end Store

def Evolution.frame (mode : Mode ρ) : Evolution mode where
  rel scope w w' := scope < w.store.scopes.size → w.store.Framed scope w'.store
  refl scope w _ := Store.framed_refl scope w.store
  trans first second present :=
    Store.framed_trans (first present) (second (Nat.lt_of_lt_of_le present (first present).grown))
  define scope w name value _ := Store.define_framed w.store scope name value
  closure scope w _ := ⟨Nat.le_refl _, fun _ _ _ => rfl, rfl, List.prefix_refl _⟩
  inner within present :=
    Store.framed_inner present (within (by simp [World.addScope, Store.addScope_size]))
  note run _ _ := run

theorem newScope_kept (mode : Mode ρ) (outer : Option Nat) {f : Nat → Eval ρ α}
    (inside : ∀ scope w, (Evolution.frame mode).Admits scope w (f scope)) (w : World ρ) :
    w.store.Kept ((Eval.newScope outer >>= f).after w).store :=
  Store.kept_inner (inside w.store.scopes.size (w.addScope outer) _ ((Evolution.frame mode).refl _ _)
    (by simp [World.addScope, Store.addScope_size]))

theorem evaluate_framed (mode : Mode ρ) (depth : Nat) (expr : Value) (scope : Nat) (w : World ρ)
    (present : scope < w.store.scopes.size) :
    w.store.Framed scope ((evaluate mode depth expr scope).after w).store :=
  (Evolution.frame mode).evaluate_rel depth expr scope w present

theorem start_present : 0 < (World.start : World ρ).store.scopes.size := by
  change 0 < Store.empty.addRoot.scopes.size
  decide

end CurriedLisp
