import CurriedLisp.Failure

set_option autoImplicit false

/-!
Scopes. A store holds every scope, numbered by age; a scope lists its variables in the order of their first
binding and may lie in an outer scope, which is older.
-/

namespace CurriedLisp

-- Gives a key a value: a key keeps its place, and a new key comes last.
def assign {κ α : Type} [DecidableEq κ] (key : κ) (value : α) : List (κ × α) → List (κ × α)
  | [] => [(key, value)]
  | (k, v) :: rest => if k = key then (k, value) :: rest else (k, v) :: assign key value rest

theorem lookup_assign_same {α : Type} (name : String) (value : α) (entries : List (String × α)) :
    (assign name value entries).lookup name = some value := by
  induction entries with
  | nil => simp [assign]
  | cons entry rest ih =>
    obtain ⟨key, old⟩ := entry
    by_cases same : key = name
    · simp [assign, same]
    · have other : (name == key) = false := by simpa using Ne.symm same
      simpa only [assign, if_neg same, List.lookup_cons, other] using ih

theorem lookup_assign_other {α : Type} {name other : String} (different : other ≠ name) (value : α)
    (entries : List (String × α)) : (assign name value entries).lookup other = entries.lookup other := by
  have unequal : (other == name) = false := by simpa using different
  induction entries with
  | nil => simp only [assign, List.lookup_cons, unequal]
  | cons entry rest ih =>
    obtain ⟨key, old⟩ := entry
    by_cases same : key = name
    · subst same
      simp only [assign, if_pos, List.lookup_cons, unequal]
    · simp only [assign, if_neg same, List.lookup_cons, ih]

theorem keys_assign {α : Type} (name : String) (value : α) (entries : List (String × α)) :
    (assign name value entries).map (·.1) =
      entries.map (·.1) ++ if name ∈ entries.map (·.1) then [] else [name] := by
  induction entries with
  | nil => rfl
  | cons entry rest ih =>
    by_cases same : entry.1 = name
    · simp [assign, same]
    · simp only [assign, if_neg same, List.map_cons, ih, List.mem_cons, Ne.symm same, false_or,
        List.cons_append]

structure Scope where
  vars : List (String × Value)
  outer : Option Nat

def Scope.get? (scope : Scope) (name : String) : Option Value := scope.vars.lookup name

structure Store where
  scopes : Array Scope
  -- The number of closures made so far, which is the identity of the next one.
  closures : Nat

namespace Store

def empty : Store := ⟨#[], 0⟩

def addScope (store : Store) (outer : Option Nat) : Store :=
  { store with scopes := store.scopes.push ⟨[], outer⟩ }

def define (store : Store) (scope : Nat) (name : String) (value : Value) : Store :=
  { store with scopes := store.scopes.modify scope fun s => { s with vars := assign name value s.vars } }

def vars (store : Store) (scope : Nat) : List (String × Value) :=
  match store.scopes[scope]? with
  | some s => s.vars
  | none => []

def outer? (store : Store) (scope : Nat) : Option Nat :=
  match store.scopes[scope]? with
  | some s => s.outer
  | none => none

-- The nearest scope, from the given one outwards, that holds the name. An outer scope is older and so has
-- a smaller number, which bounds the search.
def find? (store : Store) (name : String) (scope : Nat) : Option Nat :=
  match store.scopes[scope]? with
  | none => none
  | some s =>
      if (s.get? name).isSome then some scope
      else
        match s.outer with
        | none => none
        | some outer => if outer < scope then store.find? name outer else none
termination_by scope

def lookup (store : Store) (scope : Nat) (name : String) : Except Error Value :=
  match store.find? name scope with
  | none => .error (.unbound name)
  | some holder =>
      match (store.vars holder).lookup name with
      | none => .error (.unbound name)
      | some .unassigned => .error (.unassigned name)
      | some v => .ok v

def reserve (store : Store) (scope : Nat) (name : String) : Store :=
  match store.find? name scope with
  | some _ => store
  | none => store.define scope name .unassigned

-- The scope and those around it, innermost first.
def chain (store : Store) (scope : Nat) : List Nat :=
  match store.outer? scope with
  | none => [scope]
  | some outer => if outer < scope then scope :: store.chain outer else [scope]
termination_by scope

end Store

end CurriedLisp
