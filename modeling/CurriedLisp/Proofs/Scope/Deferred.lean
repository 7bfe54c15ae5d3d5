import CurriedLisp.Eval.Special
import CurriedLisp.Proofs.Scope.Besides

set_option autoImplicit false

namespace CurriedLisp

-- An expression whose value depends on no name.
inductive Deferred where
  | lambda (formals : List String) (distinct : formals.Nodup) (forms : List Value)
  | quoted (v : Value)
  | int (n : Int)
  | bool (b : Bool)
  | nil

namespace Deferred

def expr : Deferred → Value
  | lambda formals _ forms => .ofList (.sym "lambda" :: .ofList (formals.map .sym) :: forms)
  | quoted v => .ofList [.sym "quote", v]
  | int n => .int n
  | bool b => .bool b
  | nil => .nil

-- The value in a scope; `id` is the identity of the closure, where one is made.
def value (scope id : Nat) : Deferred → Value
  | lambda formals _ forms => .closure id formals (.body forms) scope
  | quoted v => v
  | int n => .int n
  | bool b => .bool b
  | nil => .nil

def closes : Deferred → Bool
  | lambda _ _ _ => true
  | _ => false

theorem value_alike {R R' : Renaming} (within : R.Within R') {d : Deferred} (alike : d.expr.Alike R d.expr)
    {s t i j : Nat} (related : R'.scopes s t) (made : d.closes → R'.closures i j) :
    (d.value s i).Alike R' (d.value t j) := by
  cases d with
  | lambda formals distinct forms =>
      have items := alike.items
      rw [Deferred.expr, Value.items_ofList] at items
      cases items with
      | cons _ rest =>
          cases rest with
          | cons _ forms => exact .closure formals (made rfl) related (.body (Value.Alike.list_mono within forms))
  | quoted v =>
      have items := alike.items
      rw [Deferred.expr, Value.items_ofList] at items
      cases items with
      | cons _ rest =>
          cases rest with
          | cons quoted _ => exact quoted.mono within
  | _ => constructor

end Deferred

namespace Store

def bind (scope : Nat) (s : Store) (binding : String × Deferred) : Store :=
  (if binding.2.closes then s.addClosure else s).define scope binding.1 (binding.2.value scope s.closures)

-- The closures that the bindings made on the way from `s` to `t` are told by the names that are bound to them.
structure Numbered (scope : Nat) (s t : Store) (bindings : List (String × Deferred)) (ids : String → Nat) : Prop where
  held : ∀ b ∈ bindings, (t.vars scope).lookup b.1 = some (b.2.value scope (ids b.1))
  fresh : ∀ b ∈ bindings, b.2.closes → s.closures ≤ ids b.1 ∧ ids b.1 < t.closures
  distinct : ∀ b ∈ bindings, ∀ c ∈ bindings, b.2.closes → c.2.closes → ids b.1 = ids c.1 → b.1 = c.1

variable {scope : Nat} {s : Store}

theorem bind_rebound (s : Store) (scope : Nat) (binding : String × Deferred) :
    s.Rebound scope (bind scope s binding) := by
  unfold bind
  cases binding.2.closes with
  | false => exact .define s scope _ _
  | true => exact (Rebound.closure s scope).trans (.define s.addClosure scope _ _)

theorem bind_lookup (present : scope < s.scopes.size) (binding : String × Deferred) :
    ((bind scope s binding).vars scope).lookup binding.1 = some (binding.2.value scope s.closures) := by
  unfold bind
  cases binding.2.closes with
  | false => exact define_lookup present _ _
  | true => exact define_lookup (s := s.addClosure) present _ _

theorem bind_other {name : String} {binding : String × Deferred} (other : name ≠ binding.1) :
    ((bind scope s binding).vars scope).lookup name = (s.vars scope).lookup name := by
  unfold bind
  cases binding.2.closes with
  | false => exact (define_touched s scope _ _).others scope name (.inr other)
  | true => exact (define_touched s.addClosure scope _ _).others scope name (.inr other)

theorem bind_closures {binding : String × Deferred} (makes : binding.2.closes) :
    s.closures < (bind scope s binding).closures := by
  unfold bind
  rw [if_pos makes]
  exact Nat.lt_succ_self s.closures

theorem bindAll_rebound (s : Store) (scope : Nat) (bindings : List (String × Deferred)) :
    s.Rebound scope (bindings.foldl (bind scope) s) := by
  induction bindings generalizing s with
  | nil => exact .refl s scope
  | cons first rest ih => exact (bind_rebound s scope first).trans (ih _)

theorem bindAll_other {name : String} {bindings : List (String × Deferred)} (other : name ∉ bindings.map (·.1)) :
    ((bindings.foldl (bind scope) s).vars scope).lookup name = (s.vars scope).lookup name := by
  induction bindings generalizing s with
  | nil => rfl
  | cons first rest ih =>
      rw [List.map_cons, List.mem_cons, not_or] at other
      exact (ih other.2).trans (bind_other other.1)

theorem bindAll_numbered (present : scope < s.scopes.size) {bindings : List (String × Deferred)}
    (names : (bindings.map (·.1)).Nodup) :
    ∃ ids, Numbered scope s (bindings.foldl (bind scope) s) bindings ids := by
  induction bindings generalizing s with
  | nil => exact ⟨fun _ => 0, by simp, by simp, by simp⟩
  | cons first rest ih =>
      rw [List.map_cons, List.nodup_cons] at names
      obtain ⟨alone, names⟩ := names
      have rebound := bind_rebound s scope first
      have present' : scope < (bind scope s first).scopes.size := rebound.size ▸ present
      obtain ⟨ids, numbered⟩ := ih present' names
      -- The first binding has the next number; the others have the numbers that they get after it.
      let ids' (name : String) : Nat := if name = first.1 then s.closures else ids name
      have here : ids' first.1 = s.closures := if_pos rfl
      have later (b : String × Deferred) (member : b ∈ rest) : ids' b.1 = ids b.1 :=
        if_neg fun same : b.1 = first.1 => alone (List.mem_map.mpr ⟨b, member, same⟩)
      have above (b : String × Deferred) (member : b ∈ rest) (makes : b.2.closes) (made : first.2.closes) :
          s.closures < ids b.1 := Nat.lt_of_lt_of_le (bind_closures made) (numbered.fresh b member makes).1
      refine ⟨ids', fun b member => ?_, fun b member makes => ?_, fun b member c member' makes makes' same => ?_⟩
      · rcases List.mem_cons.mp member with rfl | inside
        · rw [here, List.foldl_cons, bindAll_other alone]
          exact bind_lookup present b
        · rw [later b inside]
          exact numbered.held b inside
      · rcases List.mem_cons.mp member with rfl | inside
        · rw [here]
          exact ⟨Nat.le_refl _, Nat.lt_of_lt_of_le (bind_closures makes) (bindAll_rebound _ scope rest).closures⟩
        · rw [later b inside]
          exact ⟨Nat.le_trans rebound.closures (numbered.fresh b inside makes).1, (numbered.fresh b inside makes).2⟩
      · rcases List.mem_cons.mp member with rfl | inside
        · rcases List.mem_cons.mp member' with rfl | inside'
          · rfl
          · rw [here, later c inside'] at same
            exact absurd same (Nat.ne_of_lt (above c inside' makes' makes))
        · rcases List.mem_cons.mp member' with rfl | inside'
          · rw [here, later b inside] at same
            exact absurd same.symm (Nat.ne_of_lt (above b inside makes makes'))
          · rw [later b inside, later c inside'] at same
            exact numbered.distinct b inside c inside' makes makes' same

end Store

namespace Store.Besides

variable {extra : String → Option Value} {R : Renaming} {s t : Nat} {σ τ : Store}

theorem bindAll (besides : Besides extra R s t σ τ) {bindings bindings' : List (String × Deferred)}
    (perm : bindings.Perm bindings') (names : (bindings.map (·.1)).Nodup)
    (alike : ∀ b ∈ bindings, b.2.expr.Alike R b.2.expr) : ∃ R' : Renaming,
      Growth R σ τ R' (bindings.foldl (Store.bind s) σ) (bindings'.foldl (Store.bind t) τ) ∧
        Besides extra R' s t (bindings.foldl (Store.bind s) σ) (bindings'.foldl (Store.bind t) τ) := by
  obtain ⟨present₁, present₂⟩ := besides.aligned.bounds s t besides.running
  have names' : (bindings'.map (·.1)).Nodup := (perm.map _).nodup_iff.mp names
  obtain ⟨ids, left⟩ := bindAll_numbered present₁ names
  obtain ⟨ids', right⟩ := bindAll_numbered present₂ names'
  have rebound₁ := bindAll_rebound σ s bindings
  have rebound₂ := bindAll_rebound τ t bindings'
  -- Closures stand for each other that are bound to the same name.
  let new (i j : Nat) : Prop := ∃ b ∈ bindings, b.2.closes ∧ i = ids b.1 ∧ j = ids' b.1
  have fresh {i j : Nat} (made : new i j) : (σ.closures ≤ i ∧ i < (bindings.foldl (Store.bind s) σ).closures) ∧
      τ.closures ≤ j ∧ j < (bindings'.foldl (Store.bind t) τ).closures := by
    obtain ⟨b, member, makes, rfl, rfl⟩ := made
    exact ⟨left.fresh b member makes, right.fresh b (perm.mem_iff.mp member) makes⟩
  let R' := R.withClosures new
    (by
      rintro i j k ⟨b, member, makes, rfl, rfl⟩ ⟨c, member', makes', same, rfl⟩
      rw [left.distinct b member c member' makes makes' same])
    (by
      rintro i j k ⟨b, member, makes, rfl, rfl⟩ ⟨c, member', makes', rfl, same⟩
      rw [right.distinct b (perm.mem_iff.mp member) c (perm.mem_iff.mp member') makes makes' same])
    (fun made old => absurd (besides.aligned.closures _ _ old).1 (Nat.not_lt_of_le (fresh made).1.1))
    (fun made old => absurd (besides.aligned.closures _ _ old).2 (Nat.not_lt_of_le (fresh made).2.1))
  have within : R.Within R' := ⟨fun _ _ old => old, fun _ _ old => .inl old⟩
  refine ⟨R', ⟨within, Nat.le_of_eq rebound₁.size.symm, Nat.le_of_eq rebound₂.size.symm, rebound₁.closures,
    rebound₂.closures, fun _ _ old => .inl old⟩, besides.rebound within rfl (fun i j related => ?_) rebound₁ rebound₂
    fun name => ?_⟩
  · exact related.imp_right fun made => ⟨(fresh made).1.2, (fresh made).2.2⟩
  · by_cases bound : name ∈ bindings.map (·.1)
    · obtain ⟨b, member, rfl⟩ := List.mem_map.mp bound
      rw [left.held b member, right.held b (perm.mem_iff.mp member)]
      exact .values (Deferred.value_alike within (alike b member) besides.running
        fun makes => .inr ⟨b, member, makes, rfl, rfl⟩)
    · have bound' : name ∉ bindings'.map (·.1) := fun inside => bound ((perm.map _).mem_iff.mpr inside)
      rw [bindAll_other bound, bindAll_other bound']
      exact (besides.contents s t besides.running name).mono within

end Store.Besides

end CurriedLisp
