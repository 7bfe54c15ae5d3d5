import CurriedLisp.Proofs.Eval.Reply
import CurriedLisp.Session
import CurriedLisp.Settings

set_option autoImplicit false

/-!
The comparison of pairs in memory walks along two chains and stops where it meets one pair twice. It decides whether the
values are the same tree; stopping changes no answer, but may give one where the comparison would nest too deep.
-/

namespace CurriedLisp

namespace Value

-- An equality of leaves for which a truth value is a number.
def coerced : Value → Value → Bool
  | int m, int n => m == n
  | int n, bool b => n == b.toInt
  | bool b, int n => b.toInt == n
  | bool a, bool b => a == b
  | nil, nil => true
  | sym a, sym b => a == b
  | builtin a, builtin b => a == b
  | closure a _ _ _, closure b _ _ _ => a == b
  | unassigned, unassigned => true
  | _, _ => false

end Value

structure Atom where
  value : Value
  leaf : value.isPair = false

namespace Atom

end Atom

-- A leaf, or the address of a pair.
inductive Ref where
  | atom (a : Atom)
  | cell (address : Nat)

namespace Ref

def age : Ref → Nat
  | atom _ => 0
  | cell address => address + 1

def truth? : Ref → Option Bool
  | atom ⟨.bool b, _⟩ => some b
  | _ => none

-- How two things compare that are not both pairs. Truth values come first, since `coerced` takes `#true` for 1.
def compare (a b : Ref) : Bool :=
  if a.truth?.isSome || b.truth?.isSome then a.truth? == b.truth?
  else
    match a, b with
    | atom v, atom w => v.value.coerced w.value
    | _, _ => false

end Ref

-- The pairs at their addresses. A pair is younger than what it is made of.
structure Memory where
  first : Nat → Ref
  second : Nat → Ref
  first_older (address : Nat) : (first address).age ≤ address
  second_older (address : Nat) : (second address).age ≤ address

namespace Memory

def value (m : Memory) : Ref → Value
  | .atom a => a.value
  | .cell address => .pair (m.value (m.first address)) (m.value (m.second address))
termination_by r => r.age
decreasing_by
  · exact Nat.lt_succ_of_le (m.first_older address)
  · exact Nat.lt_succ_of_le (m.second_older address)

-- What the walk says where the comparison of the trees says `answer`: the same, or the truth where the shortcut
-- spares it a comparison that nests too deep.
def Spares (shortcut truth : Bool) (answer walked : Option Bool) : Prop :=
  walked = answer ∨ shortcut = true ∧ answer = none ∧ walked = some truth

theorem Spares.pair {shortcut truth truth' : Bool} {answer answer' walked walked' : Option Bool}
    (first : Spares shortcut truth answer walked) (second : Spares shortcut truth' answer' walked')
    (right : ∀ b, answer = some b → truth = b) (right' : ∀ b, answer' = some b → truth' = b) :
    Spares shortcut (truth && truth') (do if ← answer then answer' else return false)
      (do if ← walked then walked' else return false) := by
  obtain rfl | ⟨short, rfl, rfl⟩ := first
  · rcases walked with _ | _ | _
    · exact .inl rfl
    · exact .inl rfl
    · rw [right true rfl, Bool.true_and]
      exact second
  · cases truth with
    | false => exact .inr ⟨short, rfl, rfl⟩
    | true =>
        obtain rfl | ⟨-, rfl, rfl⟩ := second
        · cases walked' with
          | none => exact .inl rfl
          | some b => exact .inr ⟨short, rfl, congrArg some (right' b rfl).symm⟩
        · exact .inr ⟨short, rfl, rfl⟩

def empty : Memory where
  first _ := .atom ⟨.nil, rfl⟩
  second _ := .atom ⟨.nil, rfl⟩
  first_older := Nat.zero_le
  second_older := Nat.zero_le

end Memory

end CurriedLisp
