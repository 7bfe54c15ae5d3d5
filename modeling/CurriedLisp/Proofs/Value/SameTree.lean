import CurriedLisp.Value.Basic
import Mathlib.Data.List.Forall2

set_option autoImplicit false

namespace CurriedLisp.Value

-- What can be seen of a value from above. Closures are told apart by identity.
inductive Mark where
  | pair
  | int (n : Int)
  | bool (b : Bool)
  | nil
  | sym (name : String)
  | builtin (key : String)
  | closure (id : Nat)
  | unassigned

def mark : Value → Mark
  | int n => .int n
  | bool b => .bool b
  | nil => .nil
  | sym name => .sym name
  | pair _ _ => .pair
  | builtin key => .builtin key
  | closure id _ _ _ => .closure id
  | unassigned => .unassigned

inductive Side where
  | first
  | second

def at? : List Side → Value → Option Value
  | [], v => some v
  | .first :: path, pair first _ => first.at? path
  | .second :: path, pair _ second => second.at? path
  | _ :: _, _ => none

def SameTree (v w : Value) : Prop := ∀ path, (v.at? path).map mark = (w.at? path).map mark

theorem sameTree_pair (a b c d : Value) : (pair a b).SameTree (pair c d) ↔ a.SameTree c ∧ b.SameTree d := by
  constructor
  · intro same
    exact ⟨fun path => same (.first :: path), fun path => same (.second :: path)⟩
  · rintro ⟨first, second⟩ (_ | ⟨_ | _, path⟩)
    · rfl
    · exact first path
    · exact second path

theorem at_leaf {v : Value} (leaf : v.isPair = false) (side : Side) (path : List Side) :
    v.at? (side :: path) = none := by
  cases v with
  | pair => cases leaf
  | _ => cases side <;> rfl

theorem isPair_of_mark {v w : Value} (same : v.mark = w.mark) : v.isPair = w.isPair := by
  cases v <;> cases w <;> first | rfl | cases same

theorem SameTree.isPair {v w : Value} (trees : v.SameTree w) : v.isPair = w.isPair :=
  isPair_of_mark (Option.some.inj (trees []))

theorem sameTree_leaf {v w : Value} (leaf : v.isPair = false) : v.SameTree w ↔ v.mark = w.mark := by
  constructor
  · intro same
    exact Option.some.inj (same [])
  · rintro same (_ | ⟨side, path⟩)
    · exact congrArg some same
    · rw [at_leaf leaf, at_leaf ((isPair_of_mark same).symm.trans leaf)]

def same : Value → Value → Bool
  | pair a b, pair c d => same a c && same b d
  | int m, int n => m == n
  | bool a, bool b => a == b
  | nil, nil => true
  | sym a, sym b => a == b
  | builtin a, builtin b => a == b
  | closure a _ _ _, closure b _ _ _ => a == b
  | unassigned, unassigned => true
  | _, _ => false

theorem same_iff (v w : Value) : v.same w = true ↔ v.SameTree w := by
  induction v generalizing w with
  | pair first second ihFirst ihSecond =>
      cases w with
      | pair first' second' => rw [sameTree_pair, ← ihFirst, ← ihSecond, same, Bool.and_eq_true]
      | _ => exact ⟨nofun, fun trees => by cases trees.isPair⟩
  | _ =>
      rw [sameTree_leaf rfl]
      cases w <;> simp [same, mark]

instance (v w : Value) : Decidable (v.SameTree w) := decidable_of_iff _ (same_iff v w)

theorem decide_sameTree (v w : Value) : decide (v.SameTree w) = v.same w := by
  rw [Bool.eq_iff_iff, decide_eq_true_iff, same_iff]

-- How deep the comparison of two values nests: second parts are compared only where the first parts are equal.
def reach : Value → Value → Nat
  | pair a b, pair c d => max (a.reach c + 1) (if a.same c then b.reach d else 0)
  | _, _ => 0

theorem equal_reach (v w : Value) (depth : Nat) :
    v.equal? w depth = if v.reach w ≤ depth then some (v.same w) else none := by
  induction v generalizing w depth with
  | pair first second ihFirst ihSecond =>
      cases w with
      | pair first' second' =>
          cases depth with
          | zero => simp [equal?, reach]
          | succ depth =>
              rw [equal?, ihFirst, ihSecond, reach, same]
              by_cases shallow : first.reach first' ≤ depth
              · cases first.same first' with
                | false => simp [shallow]
                | true =>
                    have room : max (first.reach first' + 1) (second.reach second') ≤ depth + 1 ↔
                        second.reach second' ≤ depth + 1 := by omega
                    simp [shallow, room]
              · have deep : ¬ max (first.reach first' + 1) (if first.same first' then second.reach second' else 0) ≤
                    depth + 1 := by omega
                rw [if_neg shallow, if_neg deep]
                rfl
      | _ => rfl
  | _ => cases w <;> rfl

theorem equal_deeper {v w : Value} {depth depth' : Nat} (less : depth ≤ depth') (answered : v.equal? w depth ≠ none) :
    v.equal? w depth' = v.equal? w depth := by
  rw [equal_reach] at answered
  have shallow : v.reach w ≤ depth := by
    by_contra deep
    exact answered (if_neg deep)
  rw [equal_reach, equal_reach, if_pos shallow, if_pos (Nat.le_trans shallow less)]

end CurriedLisp.Value
