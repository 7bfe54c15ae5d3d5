import CurriedLisp.Proofs.Eval.Simulation
import CurriedLisp.Proofs.Eval.Tracing
import CurriedLisp.Settings
import Mathlib.Data.List.Basic

set_option autoImplicit false

namespace CurriedLisp

namespace Value

theorem chain_append (xs ys : List Value) (t : Value) : chain xs (chain ys t) = chain (xs ++ ys) t :=
  List.foldr_append.symm

theorem chain_backwards (xs : List Value) (t : Value) : chain xs t = xs.reverse.foldl (fun v x => pair x v) t :=
  List.foldl_reverse.symm

theorem tail_leaf (v : Value) : v.tail.isPair = false := by
  induction v with
  | pair first second _ ih => exact ih
  | _ => rfl

theorem ofList_items {v : Value} (list : v.isList = true) : ofList v.items = v := by
  have whole := v.chain_items_tail
  rwa [v.isList_tail.mp list] at whole

theorem chain_unique (v : Value) : ∃! parts : List Value × Value, parts.2.isPair = false ∧ chain parts.1 parts.2 = v := by
  refine ⟨(v.items, v.tail), ⟨v.tail_leaf, v.chain_items_tail⟩, ?_⟩
  rintro ⟨xs, t⟩ ⟨leaf, rfl⟩
  exact (congrArg₂ Prod.mk (items_chain xs leaf) (tail_chain xs leaf)).symm

theorem renderLabel_overlong (v : Value) {depth : Nat} (fits : v.obstacle? depth ≠ some .tooDeep) :
    v.renderLabel depth = if v.overlong then .error .tooLong else .ok v.label := by
  rw [renderLabel, v.obstacle_overlong fits]
  cases v.overlong <;> rfl

end Value

namespace Machine

variable {ρ : Type} {v : Value}

theorem elements_other (m : Machine ρ) (what : String) (other : v.isList = false) (w : World ρ) :
    m.elements what v w =
      match v.renderLabel m.depth with
      | .ok shown => .error (.error (.improperList what shown)) w
      | .error o => .error (.ofObstacle o) w := by
  simp only [elements, Value.toList?, other, Bool.false_eq_true, if_false, label]
  cases v.renderLabel m.depth <;> rfl

-- What is no list is named, unless an integer in it is too long to be written.
theorem elements_improper (m : Machine ρ) (what : String) (other : v.isList = false)
    (fits : v.obstacle? m.depth ≠ some .tooDeep) (w : World ρ) :
    m.elements what v w =
      .error (if v.overlong then .numeral .tooLongToWrite else .error (.improperList what v.label)) w := by
  rw [m.elements_other what other, v.renderLabel_overlong fits]
  cases v.overlong <;> rfl

theorem elements_deep (m : Machine ρ) (what : String) (other : v.isList = false)
    (deep : v.obstacle? m.depth = some .tooDeep) (w : World ρ) : m.elements what v w = .error .tooDeep w := by
  rw [m.elements_other what other, Value.renderLabel, deep]
  rfl

end Machine

open Value in
/-- A value is a chain of exactly one list of items before exactly one end that is no pair, and a list if that end is
`nil`. The elements of a list are its items, and they make up the list again. Asking anything else for its elements
fails with an evaluation error that names it, or for an integer in it that is too long to be written, or because it
nests too deep. Chains are joined as their items are, and can be built from either end. -/
theorem chains_are_lists {ρ : Type} (m : Machine ρ) (what : String) (w : World ρ) :
    (∀ v : Value, ∃! parts : List Value × Value, parts.2.isPair = false ∧ chain parts.1 parts.2 = v) ∧
    (∀ (xs : List Value) (t : Value), t.isPair = false →
      (chain xs t).items = xs ∧ ((chain xs t).isList = true ↔ t = nil)) ∧
    (∀ v : Value, v.isList = true → m.elements what v w = .ok v.items w ∧ ofList v.items = v) ∧
    (∀ v : Value, v.isList = false → v.obstacle? m.depth ≠ some .tooDeep →
      ∃ e, e.category = .evaluation ∧ e = .improperList what v.label ∧
        m.elements what v w = .error (if v.overlong then .numeral .tooLongToWrite else .error e) w) ∧
    (∀ v : Value, v.isList = false → v.obstacle? m.depth = some .tooDeep → m.elements what v w = .error .tooDeep w) ∧
    (∀ xs : List Value, m.elements what (ofList xs) w = .ok xs w) ∧
    (∀ (xs ys : List Value) (t : Value), chain xs (chain ys t) = chain (xs ++ ys) t) ∧
    (∀ (xs : List Value) (t : Value), chain xs t = xs.reverse.foldl (fun v x => pair x v) t) := by
  refine ⟨chain_unique, fun xs t leaf => ⟨items_chain xs leaf, isList_chain xs leaf⟩,
    fun v list => ⟨congrFun (m.elements_list what list) w, ofList_items list⟩,
    fun v other fits => ⟨_, rfl, rfl, m.elements_improper what other fits w⟩,
    fun v other deep => m.elements_deep what other deep w, fun xs => congrFun (m.elements_ofList what xs) w, chain_append,
    chain_backwards⟩

-- A list inside a chain that ends in a symbol, and a chain of one integer of 4301 digits that ends in another.
theorem chains_are_lists_dotted :
    let m := Machine.ofDepth (Mode.program false) Settings.defaultRecursionLimit
    let w : World String := World.start
    let items := [Value.ofList [.int 1, .bool true], .nil]
    let dotted := Value.chain items (.sym "x")
    let long := Value.chain [.int (.ofNat (Nat.pow 10 4300))] (.int 1)
    ((Value.sym "x").isPair = false ∧ dotted.items = items ∧ dotted.isList = false) ∧
    (dotted.obstacle? m.depth = none ∧ m.elements "form" dotted w =
      .error (.error (.improperList "form" "((1 #true) #nil . x)")) w) ∧
    (long.isList = false ∧ long.obstacle? m.depth = some .tooLong ∧
      m.elements "form" long w = .error (.numeral .tooLongToWrite) w) := by
  intro m w items dotted long
  obtain ⟨-, parts, -, other, -⟩ := chains_are_lists m "form" w
  have shown : dotted.obstacle? m.depth = none := by decide +kernel
  have blocked : long.obstacle? m.depth = some .tooLong := by decide +kernel
  obtain ⟨e, -, rfl, named⟩ := other dotted rfl (by rw [shown]; exact nofun)
  obtain ⟨e, -, rfl, unnamed⟩ := other long rfl (by rw [blocked]; exact nofun)
  refine ⟨⟨rfl, (parts items (.sym "x") rfl).1, rfl⟩, ⟨shown, ?_⟩, rfl, blocked, ?_⟩
  · rw [named]
    have written : dotted.overlong = false ∧ dotted.label = "((1 #true) #nil . x)" := by decide +kernel
    rw [written.1, written.2]
    rfl
  · rw [unnamed]
    have overlong : long.overlong = true := by decide +kernel
    rw [overlong]
    rfl

-- Not every value that is no list is refused with an evaluation error: its integers may be too long for the message.
theorem improper_chain_unnamed :
    ¬ ∀ (m : Machine String) (what : String) (v : Value) (w : World String), v.isList = false →
      ∃ e, m.elements what v w = .error (.error e) w ∧ e.category = .evaluation := by
  intro always
  let m := Machine.ofDepth (Mode.program false) Settings.defaultRecursionLimit
  let long := Value.chain [.int (.ofNat (Nat.pow 10 4300))] (.int 1)
  have blocked : long.renderLabel m.depth = .error .tooLong := by decide +kernel
  obtain ⟨e, failed, -⟩ := always m "form" long World.start rfl
  rw [m.elements_other "form" rfl, blocked] at failed
  cases failed

end CurriedLisp
