set_option autoImplicit false

/-!
Values. Code and data are the same type: an expression is the value that it reads as. A list is a chain of
pairs that ends in `nil`; `items` and `tail` view any value as such a chain.
-/

namespace CurriedLisp

inductive Value where
  | int (n : Int)
  | bool (b : Bool)
  | nil
  | sym (name : String)
  | pair (first second : Value)
  | builtin (key : String)
  -- A procedure; `id` tells it from every other one, `scope` is the scope that it captured.
  | closure (id : Nat) (formals : List String) (body : Value) (scope : Nat)
  -- What a reserved name holds until it is defined.
  | unassigned
deriving DecidableEq, Inhabited

namespace Value

def chain (items : List Value) (tail : Value) : Value := items.foldr pair tail

def ofList (items : List Value) : Value := chain items nil

def items : Value → List Value
  | pair first second => first :: second.items
  | _ => []

def tail : Value → Value
  | pair _ second => second.tail
  | v => v

def isPair : Value → Bool
  | pair _ _ => true
  | _ => false

def isList : Value → Bool
  | pair _ second => second.isList
  | nil => true
  | _ => false

def toList? (v : Value) : Option (List Value) := if v.isList then some v.items else none

-- Only `#false` counts as false.
def isTrue : Value → Bool
  | bool b => b
  | _ => true

-- Whether two values have equal structure and equal leaves; a closure equals itself alone. The comparison nests in the
-- first part of a pair and not in the second; there is no answer where it would nest deeper than `depth`.
def equal? : Value → Value → Nat → Option Bool
  | pair _ _, pair _ _, 0 => none
  | pair a b, pair c d, depth + 1 => do if ← equal? a c depth then equal? b d (depth + 1) else return false
  | int m, int n, _ => some (m == n)
  | bool a, bool b, _ => some (a == b)
  | nil, nil, _ => some true
  | sym a, sym b, _ => some (a == b)
  | builtin a, builtin b, _ => some (a == b)
  | closure a _ _ _, closure b _ _ _, _ => some (a == b)
  | unassigned, unassigned, _ => some true
  | _, _, _ => some false

def quoted (v : Value) : Value := pair (sym "quote") (pair v nil)

def body : List Value → Value
  | [] => nil
  | [form] => form
  | forms => pair (sym "begin") (ofList forms)

theorem chain_cons (x : Value) (xs : List Value) (t : Value) : chain (x :: xs) t = pair x (chain xs t) := rfl

theorem items_chain (xs : List Value) {t : Value} (leaf : t.isPair = false) : (chain xs t).items = xs := by
  induction xs with
  | nil =>
      cases t with
      | pair => cases leaf
      | _ => rfl
  | cons x xs ih => rw [chain_cons, items, ih]

theorem tail_chain (xs : List Value) {t : Value} (leaf : t.isPair = false) : (chain xs t).tail = t := by
  induction xs with
  | nil =>
      cases t with
      | pair => cases leaf
      | _ => rfl
  | cons x xs ih => rw [chain_cons, tail, ih]

theorem isList_tail (v : Value) : v.isList = true ↔ v.tail = nil := by
  induction v with
  | pair first second _ ih => exact ih
  | _ => simp [isList, tail]

theorem isList_chain (xs : List Value) {t : Value} (leaf : t.isPair = false) : (chain xs t).isList = true ↔ t = nil := by
  rw [isList_tail, tail_chain xs leaf]

theorem items_ofList (items : List Value) : (ofList items).items = items := items_chain items rfl

theorem isList_ofList (items : List Value) : (ofList items).isList = true := (isList_chain items rfl).mpr rfl

theorem chain_items_tail (v : Value) : chain v.items v.tail = v := by
  induction v with
  | pair first second _ ih => exact congrArg (pair first) ih
  | _ => rfl

end Value

end CurriedLisp
