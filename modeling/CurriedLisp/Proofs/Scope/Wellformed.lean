import CurriedLisp.Eval.Primitive
import CurriedLisp.Proofs.Scope.Similar
import CurriedLisp.Session

set_option autoImplicit false

/-!
Well-formed stores. Every value in a cell refers to scopes and closures that exist, is built from known primitives and
from closures with distinct formals, and has no placeholder in it; the root is the only scope that lies in no other.
A store grows where nothing is lost and where every cell with a value keeps having one.
-/

namespace CurriedLisp

def Value.Wellformed (s : Store) : Value → Prop
  | pair first second => first.Wellformed s ∧ second.Wellformed s
  | closure id formals body scope => id < s.closures ∧ scope < s.scopes.size ∧ formals.Nodup ∧ body.Wellformed s
  | builtin key => (Primitive.ofKey? key).isSome
  | unassigned => False
  | _ => True

namespace Store

structure Wellformed (s : Store) : Prop where
  ordered : s.Ordered
  rooted : ∀ (i : Nat) (f : Scope), s.scopes[i]? = some f → f.outer = none → i = 0
  held : ∀ (i : Nat) (f : Scope), s.scopes[i]? = some f → ∀ entry ∈ f.vars,
    entry.2 = .unassigned ∨ entry.2.Wellformed s

structure Grows (s t : Store) : Prop where
  scopes : s.scopes.size ≤ t.scopes.size
  closures : s.closures ≤ t.closures
  assigned : ∀ i name v, (s.vars i).lookup name = some v → v ≠ .unassigned →
    ∃ v', (t.vars i).lookup name = some v' ∧ v' ≠ .unassigned

theorem grows_refl (s : Store) : s.Grows s := ⟨Nat.le_refl _, Nat.le_refl _, fun _ _ v held value => ⟨v, held, value⟩⟩

theorem grows_trans {s t u : Store} (first : s.Grows t) (second : t.Grows u) : s.Grows u := by
  refine ⟨Nat.le_trans first.scopes second.scopes, Nat.le_trans first.closures second.closures,
    fun i name v held value => ?_⟩
  obtain ⟨v', held', value'⟩ := first.assigned i name v held value
  exact second.assigned i name v' held' value'

theorem Grows.present {s t : Store} (grows : s.Grows t) {scope : Nat} (present : scope < s.scopes.size) :
    scope < t.scopes.size := Nat.lt_of_lt_of_le present grows.scopes

end Store

namespace Value.Wellformed

variable {s t : Store} {v w : Value}

theorem resize (scopes : s.scopes.size ≤ t.scopes.size) (closures : s.closures ≤ t.closures)
    (fine : v.Wellformed s) : v.Wellformed t := by
  induction v with
  | pair first second ihFirst ihSecond => exact ⟨ihFirst fine.1, ihSecond fine.2⟩
  | closure id formals body scope ih =>
      obtain ⟨made, captured, distinct, inside⟩ := fine
      exact ⟨Nat.lt_of_lt_of_le made closures, Nat.lt_of_lt_of_le captured scopes, distinct, ih inside⟩
  | builtin key => exact fine
  | unassigned => exact fine
  | _ => trivial

theorem mono (grows : s.Grows t) (fine : v.Wellformed s) : v.Wellformed t := fine.resize grows.scopes grows.closures

theorem assigned (fine : v.Wellformed s) : v ≠ .unassigned := by
  rintro rfl
  exact fine

theorem belongs (fine : v.Wellformed s) : v.Belongs s := by
  induction v with
  | pair first second ihFirst ihSecond => exact ⟨ihFirst fine.1, ihSecond fine.2⟩
  | closure id formals body scope ih => exact ⟨fine.1, fine.2.1, ih fine.2.2.2⟩
  | _ => trivial

theorem items (fine : v.Wellformed s) : ∀ item ∈ v.items, item.Wellformed s := by
  induction v with
  | pair first second _ ih =>
      intro item member
      rcases List.mem_cons.mp member with rfl | inside
      · exact fine.1
      · exact ih fine.2 item inside
  | _ => simp [Value.items]

theorem ofList {vs : List Value} (fine : ∀ v ∈ vs, v.Wellformed s) : (Value.ofList vs).Wellformed s := by
  induction vs with
  | nil => trivial
  | cons first rest ih =>
      exact ⟨fine first List.mem_cons_self, ih fun v member => fine v (List.mem_cons_of_mem _ member)⟩

theorem body {forms : List Value} (fine : ∀ v ∈ forms, v.Wellformed s) : (Value.body forms).Wellformed s := by
  rcases forms with _ | ⟨form, _ | ⟨next, rest⟩⟩
  · trivial
  · exact fine form List.mem_cons_self
  · exact ⟨trivial, ofList fine⟩

end Value.Wellformed

namespace Store

variable {s : Store} {scope : Nat} {name : String}

theorem vars_of_scope {f : Scope} {i : Nat} (present : s.scopes[i]? = some f) : s.vars i = f.vars := by
  rw [vars, present]

theorem mem_of_lookup {α : Type} {entries : List (String × α)} {v : α} (found : entries.lookup name = some v) :
    (name, v) ∈ entries := by
  obtain ⟨before, after, rfl, _⟩ := List.lookup_eq_some_iff.mp found
  simp

theorem mem_assign {α : Type} {value : α} {entries : List (String × α)} {entry : String × α}
    (member : entry ∈ assign name value entries) : entry ∈ entries ∨ entry.2 = value := by
  induction entries with
  | nil => exact .inr (by simpa [assign] using congrArg Prod.snd (List.mem_singleton.mp member))
  | cons first rest ih =>
      unfold assign at member
      split at member
      · rcases List.mem_cons.mp member with rfl | inside
        · exact .inr rfl
        · exact .inl (List.mem_cons_of_mem _ inside)
      · rcases List.mem_cons.mp member with rfl | inside
        · exact .inl List.mem_cons_self
        · exact (ih inside).imp_left (List.mem_cons_of_mem _)

-- Defining a value loses none; a placeholder may go only where nothing stands.
theorem define_grows {value : Value} (fits : value ≠ .unassigned ∨ (s.vars scope).lookup name = none) :
    s.Grows (s.define scope name value) := by
  refine ⟨by simp [define], Nat.le_refl _, fun i other v held real => ?_⟩
  rw [define_vars]
  split
  · rename_i here
    by_cases same : other = name
    · subst same
      obtain value | absent := fits
      · exact ⟨_, lookup_assign_same _ _ _, value⟩
      · rw [here.1, absent] at held
        cases held
    · exact ⟨v, by rw [lookup_assign_other same]; exact held, real⟩
  · exact ⟨v, held, real⟩

theorem define_wellformed {value : Value} (fine : s.Wellformed) (fits : value = .unassigned ∨ value.Wellformed s) :
    (s.define scope name value).Wellformed := by
  have same (v : Value) (inside : v = .unassigned ∨ v.Wellformed s) :
      v = .unassigned ∨ v.Wellformed (s.define scope name value) :=
    inside.imp_right fun within => within.resize (by simp [define]) (Nat.le_refl s.closures)
  refine ⟨define_ordered fine.ordered scope name value, fun i f present => ?_, fun i f present entry member => ?_⟩
  · by_cases here : i = scope
    · subst here
      rw [define_same] at present
      obtain ⟨g, old, rfl⟩ := Option.map_eq_some_iff.mp present
      exact fine.rooted i g old
    · rw [define_other s name value here] at present
      exact fine.rooted i f present
  · by_cases here : i = scope
    · subst here
      rw [define_same] at present
      obtain ⟨g, old, rfl⟩ := Option.map_eq_some_iff.mp present
      obtain inside | new := mem_assign member
      · exact same _ (fine.held i g old entry inside)
      · rw [new]
        exact same _ fits
    · rw [define_other s name value here] at present
      exact same _ (fine.held i f present entry member)

theorem reserve_grows (s : Store) (scope : Nat) (name : String) : s.Grows (s.reserve scope name) := by
  unfold reserve
  split
  · exact s.grows_refl
  · rename_i unseen
    refine define_grows (.inr ?_)
    cases present : s.scopes[scope]? with
    | none => rw [vars, present, List.lookup_nil]
    | some f =>
        rw [find?, present] at unseen
        rw [vars_of_scope present]
        by_contra held
        have holds : (f.get? name).isSome := Option.isSome_iff_ne_none.mpr held
        simp [holds] at unseen

theorem reserve_wellformed (fine : s.Wellformed) : (s.reserve scope name).Wellformed := by
  unfold reserve
  split
  · exact fine
  · exact define_wellformed fine (.inl rfl)

theorem reserveAll_safe (scope : Nat) (names : List String) (fine : s.Wellformed) :
    s.Grows (names.foldl (·.reserve scope) s) ∧ (names.foldl (·.reserve scope) s).Wellformed := by
  induction names generalizing s with
  | nil => exact ⟨s.grows_refl, fine⟩
  | cons name rest ih =>
      obtain ⟨grows, well⟩ := ih (reserve_wellformed fine : (s.reserve scope name).Wellformed)
      exact ⟨grows_trans (s.reserve_grows scope name) grows, well⟩

theorem defineAll_safe {vs : List Value} (scope : Nat) (names : List String) (fine : s.Wellformed)
    (values : ∀ v ∈ vs, v.Wellformed s) :
    s.Grows ((names.zip vs).foldl (fun t (name, v) => t.define scope name v) s) ∧
      ((names.zip vs).foldl (fun t (name, v) => t.define scope name v) s).Wellformed := by
  induction vs generalizing s names with
  | nil =>
      rw [List.zip_nil_right]
      exact ⟨s.grows_refl, fine⟩
  | cons first rest ih =>
      cases names with
      | nil => exact ⟨s.grows_refl, fine⟩
      | cons name others =>
          have here := values first List.mem_cons_self
          have next : s.Grows (s.define scope name first) := define_grows (.inl here.assigned)
          obtain ⟨grows, well⟩ := ih others (define_wellformed fine (.inr here)) fun v member =>
            (values v (List.mem_cons_of_mem _ member)).mono next
          exact ⟨grows_trans next grows, well⟩

theorem addScope_grows (s : Store) (outer : Option Nat) : s.Grows (s.addScope outer) := by
  refine ⟨by simp [addScope_size], Nat.le_refl _, fun i name v held real => ⟨v, ?_, real⟩⟩
  by_cases old : i < s.scopes.size
  · rwa [vars, addScope_old s outer old, ← vars]
  · rw [vars, Array.getElem?_eq_none (Nat.le_of_not_lt old)] at held
    cases held

theorem addScope_wellformed {captured : Nat} (fine : s.Wellformed) (present : captured < s.scopes.size) :
    (s.addScope (some captured)).Wellformed := by
  have new (i : Nat) (f : Scope) (found : (s.addScope (some captured)).scopes[i]? = some f) :
      s.scopes[i]? = some f ∨ f = ⟨[], some captured⟩ := by
    rw [addScope, Array.getElem?_push] at found
    split at found
    · exact .inr (Option.some.inj found).symm
    · exact .inl found
  refine ⟨addFrame_ordered fine.ordered [] fun o same => Option.some.inj same ▸ present, fun i f found none => ?_,
    fun i f found entry member => ?_⟩
  · obtain old | rfl := new i f found
    · exact fine.rooted i f old none
    · cases none
  · obtain old | rfl := new i f found
    · exact (fine.held i f old entry member).imp_right (Value.Wellformed.mono (s.addScope_grows _))
    · cases member

theorem addClosure_grows (s : Store) : s.Grows s.addClosure :=
  ⟨Nat.le_refl _, Nat.le_succ _, fun _ _ v held value => ⟨v, held, value⟩⟩

theorem addClosure_wellformed (fine : s.Wellformed) : s.addClosure.Wellformed :=
  ⟨fine.ordered, fine.rooted, fun i f present entry member =>
    (fine.held i f present entry member).imp_right (Value.Wellformed.mono s.addClosure_grows)⟩

theorem lookup_wellformed {v : Value} (fine : s.Wellformed) (found : s.lookup scope name = .ok v) :
    v.Wellformed s := by
  unfold lookup at found
  split at found
  · cases found
  · rename_i holder _
    split at found
    · cases found
    · cases found
    · rename_i held real inside
      cases found
      cases present : s.scopes[holder]? with
      | none =>
          rw [vars, present] at inside
          cases inside
      | some f =>
          rw [vars_of_scope present] at inside
          exact (fine.held holder f present _ (mem_of_lookup inside)).resolve_left real

theorem Wellformed.sound (fine : s.Wellformed) : s.Sound := by
  refine ⟨fine.ordered, fun i f present entry member => ?_⟩
  obtain placeholder | inside := fine.held i f present entry member
  · rw [placeholder]
    trivial
  · exact inside.belongs

end Store

theorem Store.root_scopes : Store.empty.addRoot.scopes.toList.map (fun f => (f.vars, f.outer)) =
    [(Primitive.all.map fun p => (p.key, .builtin p.key), none)] := by decide +kernel

theorem World.start_wellformed {ρ : Type} : (World.start : World ρ).store.Wellformed := by
  have root (i : Nat) (f : Scope) (present : Store.empty.addRoot.scopes[i]? = some f) :
      f.vars = Primitive.all.map (fun p => (p.key, .builtin p.key)) ∧ f.outer = none ∧ i = 0 := by
    have member : (f.vars, f.outer) ∈ Store.empty.addRoot.scopes.toList.map (fun f => (f.vars, f.outer)) :=
      List.mem_map_of_mem (Array.mem_toList_iff.mpr (Array.mem_of_getElem? present))
    have single : Store.empty.addRoot.scopes.size = 1 := by
      simpa using congrArg List.length Store.root_scopes
    have bound := (Array.getElem?_eq_some_iff.mp present).1
    rw [Store.root_scopes] at member
    obtain ⟨vars, outer⟩ := Prod.mk.inj (List.mem_singleton.mp member)
    exact ⟨vars, outer, by omega⟩
  refine ⟨fun i f present o inside => ?_, fun i f present _ => (root i f present).2.2,
    fun i f present entry member => ?_⟩
  · rw [(root i f present).2.1] at inside
    cases inside
  · rw [(root i f present).1] at member
    obtain ⟨p, _, rfl⟩ := List.mem_map.mp member
    exact .inr (Option.isSome_of_eq_some (Primitive.ofKey_key p))

theorem World.start_sound {ρ : Type} : (World.start : World ρ).store.Sound := start_wellformed.sound

end CurriedLisp
