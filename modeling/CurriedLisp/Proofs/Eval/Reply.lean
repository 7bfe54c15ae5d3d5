import CurriedLisp.Eval.Primitive
import CurriedLisp.Proofs.Value.Alike
import CurriedLisp.Proofs.Value.SameTree
import CurriedLisp.Proofs.Value.Written

set_option autoImplicit false

namespace CurriedLisp

inductive Complaint.Alike (R : Renaming) : Complaint → Complaint → Prop where
  | exactly (expected given : Nat) : Alike R (.exactly expected given) (.exactly expected given)
  | atLeast (least : Nat) : Alike R (.atLeast least) (.atLeast least)
  | notNumber {v w : Value} : v.Alike R w → Alike R (.notNumber v) (.notNumber w)
  | notPair {v w : Value} : v.Alike R w → Alike R (.notPair v) (.notPair w)
  | divisionByZero : Alike R .divisionByZero .divisionByZero
  | tooDeep : Alike R .tooDeep .tooDeep

namespace Primitive

variable {α β α' β' : Type} {R : Renaming}

inductive Replies (R : Renaming) (same : α → α' → Prop) : Except Complaint α → Except Complaint α' → Prop where
  | ok {a : α} {a' : α'} : same a a' → Replies R same (.ok a) (.ok a')
  | error {c d : Complaint} : c.Alike R d → Replies R same (.error c) (.error d)

theorem replies_bind {same : α → α' → Prop} {same' : β → β' → Prop} {x : Except Complaint α}
    {y : Except Complaint α'} {f : α → Except Complaint β} {g : α' → Except Complaint β'}
    (first : Replies R same x y) (rest : ∀ a a', same a a' → Replies R same' (f a) (g a')) :
    Replies R same' (x >>= f) (y >>= g) := by
  cases first with
  | ok alike => exact rest _ _ alike
  | error complaint => exact .error complaint

theorem replies_number {v w : Value} (alike : v.Alike R w) : Replies R Eq (number v) (number w) := by
  cases alike with
  | int n => exact .ok rfl
  | pair first second => exact .error (.notNumber (.pair first second))
  | closure formals ids scopes body => exact .error (.notNumber (.closure formals ids scopes body))
  | _ => exact .error (.notNumber (by constructor))

theorem replies_numbers {vs ws : List Value} (alike : List.Forall₂ (Value.Alike R) vs ws) :
    Replies R Eq (numbers vs) (numbers ws) := by
  unfold numbers
  induction alike with
  | nil => exact .ok rfl
  | cons first _ ih =>
      rw [List.mapM_cons, List.mapM_cons]
      refine replies_bind (replies_number first) fun n n' same => replies_bind ih fun ns ns' sames => ?_
      rw [same, sames]
      exact .ok rfl

theorem replies_one {vs ws : List Value} (alike : List.Forall₂ (Value.Alike R) vs ws) :
    Replies R (Value.Alike R) (one vs) (one ws) := by
  have lengths := alike.length_eq
  cases alike with
  | nil => exact .error (.exactly 1 0)
  | cons first rest =>
      cases rest with
      | nil => exact .ok first
      | cons second rest =>
          simp only [one, lengths]
          exact .error (.exactly 1 _)

theorem replies_two {vs ws : List Value} (alike : List.Forall₂ (Value.Alike R) vs ws) :
    Replies R (fun a b => a.1.Alike R b.1 ∧ a.2.Alike R b.2) (two vs) (two ws) := by
  have lengths := alike.length_eq
  cases alike with
  | nil => exact .error (.exactly 2 0)
  | cons first rest =>
      cases rest with
      | nil => exact .error (.exactly 2 1)
      | cons second rest =>
          cases rest with
          | nil => exact .ok ⟨first, second⟩
          | cons third rest =>
              simp only [two, lengths]
              exact .error (.exactly 2 _)

theorem replies_twoNumbers {vs ws : List Value} (alike : List.Forall₂ (Value.Alike R) vs ws) :
    Replies R Eq (twoNumbers vs) (twoNumbers ws) := by
  have lengths := alike.length_eq
  cases alike with
  | nil => exact .error (.exactly 2 0)
  | cons first rest =>
      cases rest with
      | nil => exact .error (.exactly 2 1)
      | cons second rest =>
          cases rest with
          | nil =>
              refine replies_bind (replies_number first) fun m m' same =>
                replies_bind (replies_number second) fun n n' same' => ?_
              rw [same, same']
              exact .ok rfl
          | cons third rest =>
              simp only [twoNumbers, lengths]
              exact .error (.exactly 2 _)

theorem replies_onePair {vs ws : List Value} (alike : List.Forall₂ (Value.Alike R) vs ws) :
    Replies R (fun a b => a.1.Alike R b.1 ∧ a.2.Alike R b.2) (onePair vs) (onePair ws) := by
  refine replies_bind (replies_one alike) fun v w given => ?_
  cases given with
  | pair first second => exact .ok ⟨first, second⟩
  | closure formals ids scopes body => exact .error (.notPair (.closure formals ids scopes body))
  | _ => exact .error (.notPair (by constructor))

theorem replies_quotient (n d : Int) : Replies R Eq (quotient n d) (quotient n d) := by
  unfold quotient
  split
  · exact .error .divisionByZero
  · exact .ok rfl

theorem replies_remainder (n d : Int) : Replies R Eq (remainder n d) (remainder n d) := by
  refine replies_bind (replies_quotient n d) fun q q' same => ?_
  rw [same]
  exact .ok rfl

theorem replies_foldQuotient (n : Int) (ds : List Int) :
    Replies R Eq (ds.foldlM quotient n) (ds.foldlM quotient n) := by
  induction ds generalizing n with
  | nil => exact .ok rfl
  | cons d rest ih =>
      rw [List.foldlM_cons]
      refine replies_bind (replies_quotient n d) fun q q' same => ?_
      rw [same]
      exact ih q'

theorem replies_compare {v w v' w' : Value} (left : v.Alike R w) (right : v'.Alike R w') (depth : Nat) :
    Replies R Eq (compare depth v v') (compare depth w w') := by
  rw [compare, compare, left.equal right]
  cases w.equal? w' depth with
  | none => exact .error .tooDeep
  | some answer => exact .ok rfl

theorem replies_call (p : Primitive) (depth : Nat) {vs ws : List Value} (alike : List.Forall₂ (Value.Alike R) vs ws) :
    Replies R (Value.Alike R) (p.call depth vs) (p.call depth ws) := by
  cases p with
  | add | mul =>
      refine replies_bind (replies_numbers alike) fun ns ns' same => ?_
      rw [same]
      exact .ok (.int _)
  | sub =>
      cases alike with
      | nil => exact .error (.atLeast 1)
      | cons first rest =>
          cases rest with
          | nil =>
              refine replies_bind (replies_number first) fun n n' same => ?_
              rw [same]
              exact .ok (.int _)
          | cons second rest =>
              refine replies_bind (replies_number first) fun n n' same =>
                replies_bind (replies_numbers (.cons second rest)) fun ns ns' sames => ?_
              rw [same, sames]
              exact .ok (.int _)
  | div =>
      cases alike with
      | nil => exact .error (.atLeast 2)
      | cons first rest =>
          cases rest with
          | nil => exact .error (.atLeast 2)
          | cons second rest =>
              refine replies_bind (replies_number first) fun n n' same =>
                replies_bind (replies_numbers (.cons second rest)) fun ns ns' sames => ?_
              rw [same, sames]
              refine replies_bind (replies_foldQuotient n' ns') fun q q' same => ?_
              rw [same]
              exact .ok (.int _)
  | mod =>
      refine replies_bind (replies_twoNumbers alike) fun ns ns' same => ?_
      rw [same]
      refine replies_bind (replies_remainder _ _) fun r r' same => ?_
      rw [same]
      exact .ok (.int _)
  | equalNumbers | less | greater =>
      refine replies_bind (replies_twoNumbers alike) fun ns ns' same => ?_
      rw [same]
      exact .ok (.bool _)
  | cons => exact replies_bind (replies_two alike) fun _ _ parts => .ok (.pair parts.1 parts.2)
  | head => exact replies_bind (replies_onePair alike) fun _ _ parts => .ok parts.1
  | tail => exact replies_bind (replies_onePair alike) fun _ _ parts => .ok parts.2
  | list => exact .ok (Value.Alike.ofList alike)
  | isNil =>
      refine replies_bind (replies_one alike) fun v w given => ?_
      cases given <;> exact .ok (.bool _)
  | equal =>
      refine replies_bind (replies_two alike) fun given given' parts =>
        replies_bind (replies_compare parts.1 parts.2 depth) fun answer answer' same => ?_
      rw [same]
      exact .ok (.bool _)
  | not =>
      refine replies_bind (replies_one alike) fun v w given => ?_
      rw [given.isTrue]
      exact .ok (.bool _)

theorem replies_tooDeep {x : Except Complaint α} {same : α → α' → Prop}
    (replied : Replies R same x (.error .tooDeep)) : x = .error .tooDeep := by
  cases replied with
  | error complaint =>
      cases complaint
      rfl

theorem call_equal (depth : Nat) (a b : Value) : equal.call depth [a, b] = (compare depth a b).map .bool := by
  change (do return Value.bool (← compare depth a b)) = _
  cases compare depth a b <;> rfl

theorem compare_reach (depth : Nat) (a b : Value) :
    compare depth a b = if a.reach b ≤ depth then .ok (decide (a.SameTree b)) else .error .tooDeep := by
  rw [compare, Value.equal_reach, Value.decide_sameTree]
  by_cases shallow : a.reach b ≤ depth
  · rw [if_pos shallow, if_pos shallow]
  · rw [if_neg shallow, if_neg shallow]

theorem compare_deeper {depth depth' : Nat} (less : depth ≤ depth') {a b : Value}
    (answered : compare depth a b ≠ .error .tooDeep) : compare depth' a b = compare depth a b := by
  have known : a.equal? b depth ≠ none := fun none => answered (by rw [compare, none])
  rw [compare, compare, Value.equal_deeper less known]

theorem call_deeper (p : Primitive) {depth depth' : Nat} (less : depth ≤ depth') {args : List Value}
    (answered : p.call depth args ≠ .error .tooDeep) : p.call depth' args = p.call depth args := by
  cases p with
  | equal =>
      rcases args with _ | ⟨a, _ | ⟨b, _ | ⟨c, rest⟩⟩⟩
      · rfl
      · rfl
      · rw [call_equal] at answered
        have compared : compare depth a b ≠ .error .tooDeep := fun deep => answered (by rw [deep]; rfl)
        rw [call_equal, call_equal, compare_deeper less compared]
      · rfl
  | _ => rfl

theorem call_agree (p : Primitive) (depth₁ depth₂ : Nat) (args : List Value) :
    p.call depth₁ args = .error .tooDeep ∨ p.call depth₂ args = .error .tooDeep ∨
      p.call depth₁ args = p.call depth₂ args :=
  agree_of_deeper (fun less => p.call_deeper less) depth₁ depth₂

end Primitive

end CurriedLisp
