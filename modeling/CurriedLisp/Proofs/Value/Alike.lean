import CurriedLisp.Eval.Special
import CurriedLisp.Proofs.Value.Written
import Mathlib.Data.List.Forall2

set_option autoImplicit false

namespace CurriedLisp

-- Which scopes and closures of one store stand for which of another.
structure Renaming where
  scopes : Nat → Nat → Prop
  closures : Nat → Nat → Prop
  scopesRight : ∀ {a b c}, scopes a b → scopes a c → b = c
  scopesLeft : ∀ {a b c}, scopes a c → scopes b c → a = b
  closuresRight : ∀ {a b c}, closures a b → closures a c → b = c
  closuresLeft : ∀ {a b c}, closures a c → closures b c → a = b

namespace Renaming

def Within (R R' : Renaming) : Prop :=
  (∀ a b, R.scopes a b → R'.scopes a b) ∧ ∀ a b, R.closures a b → R'.closures a b

theorem within_refl (R : Renaming) : R.Within R := ⟨fun _ _ h => h, fun _ _ h => h⟩

theorem within_trans {R S T : Renaming} (first : R.Within S) (second : S.Within T) : R.Within T :=
  ⟨fun a b h => second.1 a b (first.1 a b h), fun a b h => second.2 a b (first.2 a b h)⟩

def withScope (R : Renaming) (s t : Nat) (left : ∀ b, ¬ R.scopes s b) (right : ∀ a, ¬ R.scopes a t) :
    Renaming where
  scopes a b := R.scopes a b ∨ a = s ∧ b = t
  closures := R.closures
  scopesRight := by
    rintro a b c (old | ⟨rfl, rfl⟩) (other | ⟨same, rfl⟩)
    · exact R.scopesRight old other
    · exact absurd (same ▸ old) (left b)
    · exact absurd other (left c)
    · rfl
  scopesLeft := by
    rintro a b c (old | ⟨rfl, rfl⟩) (other | ⟨rfl, same⟩)
    · exact R.scopesLeft old other
    · exact absurd (same ▸ old) (right a)
    · exact absurd other (right b)
    · rfl
  closuresRight := R.closuresRight
  closuresLeft := R.closuresLeft

def withClosure (R : Renaming) (i j : Nat) (left : ∀ b, ¬ R.closures i b) (right : ∀ a, ¬ R.closures a j) :
    Renaming where
  scopes := R.scopes
  closures a b := R.closures a b ∨ a = i ∧ b = j
  scopesRight := R.scopesRight
  scopesLeft := R.scopesLeft
  closuresRight := by
    rintro a b c (old | ⟨rfl, rfl⟩) (other | ⟨same, rfl⟩)
    · exact R.closuresRight old other
    · exact absurd (same ▸ old) (left b)
    · exact absurd other (left c)
    · rfl
  closuresLeft := by
    rintro a b c (old | ⟨rfl, rfl⟩) (other | ⟨rfl, same⟩)
    · exact R.closuresLeft old other
    · exact absurd (same ▸ old) (right a)
    · exact absurd other (right b)
    · rfl

def withClosures (R : Renaming) (new : Nat → Nat → Prop) (right : ∀ {i j k}, new i j → new i k → j = k)
    (left : ∀ {i j k}, new i k → new j k → i = j) (apart₁ : ∀ {i j k}, new i j → ¬ R.closures i k)
    (apart₂ : ∀ {i j k}, new i j → ¬ R.closures k j) : Renaming where
  scopes := R.scopes
  closures i j := R.closures i j ∨ new i j
  scopesRight := R.scopesRight
  scopesLeft := R.scopesLeft
  closuresRight := by
    rintro i j k (old | made) (old' | made')
    · exact R.closuresRight old old'
    · exact absurd old (apart₁ made')
    · exact absurd old' (apart₁ made)
    · exact right made made'
  closuresLeft := by
    rintro i j k (old | made) (old' | made')
    · exact R.closuresLeft old old'
    · exact absurd old (apart₂ made')
    · exact absurd old' (apart₂ made)
    · exact left made made'

theorem within_withScope (R : Renaming) {s t : Nat} (left : ∀ b, ¬ R.scopes s b)
    (right : ∀ a, ¬ R.scopes a t) : R.Within (R.withScope s t left right) :=
  ⟨fun _ _ old => .inl old, fun _ _ old => old⟩

theorem within_withClosure (R : Renaming) {i j : Nat} (left : ∀ b, ¬ R.closures i b)
    (right : ∀ a, ¬ R.closures a j) : R.Within (R.withClosure i j left right) :=
  ⟨fun _ _ old => old, fun _ _ old => .inl old⟩

end Renaming

theorem Machine.definedName_other {name : String} (other : name ≠ "define") (rest : Value) :
    definedName? (.pair (.sym name) rest) = none := by
  unfold definedName?
  split
  · rename_i shape
    exact absurd (Value.sym.inj (Value.pair.inj shape).1) other
  · rfl

namespace Value

inductive Alike (R : Renaming) : Value → Value → Prop where
  | int (n : Int) : Alike R (.int n) (.int n)
  | bool (b : Bool) : Alike R (.bool b) (.bool b)
  | nil : Alike R .nil .nil
  | sym (name : String) : Alike R (.sym name) (.sym name)
  | pair {a b c d : Value} : Alike R a c → Alike R b d → Alike R (.pair a b) (.pair c d)
  | builtin (key : String) : Alike R (.builtin key) (.builtin key)
  | unassigned : Alike R .unassigned .unassigned
  | closure {i j s t : Nat} {body body' : Value} (formals : List String) : R.closures i j → R.scopes s t →
      Alike R body body' → Alike R (.closure i formals body s) (.closure j formals body' t)

namespace Alike

variable {R : Renaming} {v w : Value}

theorem mono {R' : Renaming} (within : R.Within R') (alike : Alike R v w) : Alike R' v w := by
  induction alike with
  | pair _ _ first second => exact .pair first second
  | closure formals ids scopes _ body => exact .closure formals (within.2 _ _ ids) (within.1 _ _ scopes) body
  | _ => constructor

theorem list_mono {R' : Renaming} (within : R.Within R') {vs ws : List Value}
    (alike : List.Forall₂ (Alike R) vs ws) : List.Forall₂ (Alike R') vs ws := by
  induction alike with
  | nil => exact .nil
  | cons head _ ih => exact .cons (head.mono within) ih

theorem items (alike : Alike R v w) : List.Forall₂ (Alike R) v.items w.items := by
  induction alike with
  | pair first _ _ ih => exact .cons first ih
  | _ => exact .nil

theorem isList (alike : Alike R v w) : v.isList = w.isList := by
  induction alike with
  | pair _ _ _ ih => exact ih
  | _ => rfl

theorem isTrue (alike : Alike R v w) : v.isTrue = w.isTrue := by
  cases alike <;> rfl

theorem chain {vs ws : List Value} (items : List.Forall₂ (Alike R) vs ws) (tail : Alike R v w) :
    Alike R (Value.chain vs v) (Value.chain ws w) := by
  induction items with
  | nil => exact tail
  | cons first _ ih => exact .pair first ih

theorem ofList {vs ws : List Value} (items : List.Forall₂ (Alike R) vs ws) :
    Alike R (Value.ofList vs) (Value.ofList ws) := chain items .nil

theorem body {vs ws : List Value} (forms : List.Forall₂ (Alike R) vs ws) :
    Alike R (Value.body vs) (Value.body ws) := by
  cases forms with
  | nil => exact .nil
  | cons first rest =>
      cases rest with
      | nil => exact first
      | cons second rest => exact .pair (.sym "begin") (ofList (.cons first (.cons second rest)))

theorem obstacle (alike : Alike R v w) (depth : Nat) : v.obstacle? depth = w.obstacle? depth := by
  induction alike generalizing depth with
  | pair _ _ first second =>
      cases depth with
      | zero => rfl
      | succ d => rw [obstacle_pair, obstacle_pair, first, second]
  | closure formals _ _ _ body =>
      cases depth with
      | zero => rfl
      | succ d => exact body d
  | _ => rfl

theorem write (alike : Alike R v w) (rest : Bool) (out : String) : v.write rest out = w.write rest out := by
  fun_induction Value.write v rest out generalizing w with
  | case1 v out ih =>
      cases alike with
      | pair quote tail =>
          cases quote
          cases tail with
          | pair inner last =>
              cases last
              exact ih inner
  | case2 first second rest out notQuote ihFirst ihSecond =>
      cases alike with
      | pair alikeFirst alikeSecond =>
          rw [ihSecond alikeSecond, ihFirst alikeFirst, Value.write]
          intro v' atFront isQuote isLast
          subst isQuote isLast
          cases alikeFirst
          cases alikeSecond with
          | pair inner last =>
              cases last
              exact notQuote _ atFront rfl rfl
  | case3 out =>
      cases alike
      rfl
  | case4 id formals body scope out ih =>
      cases alike with
      | closure _ _ _ alikeBody =>
          rw [ih alikeBody]
          rfl
  | case5 id formals body scope out ih =>
      cases alike with
      | closure _ _ _ alikeBody =>
          rw [ih alikeBody]
          rfl
  | case6 v out notPair notPair' notClosure =>
      cases alike with
      | pair => exact absurd rfl (notPair' _ _)
      | closure => exact absurd rfl (notClosure _ _ _ _)
      | _ => rfl
  | case7 v out notPair notNil notClosure =>
      cases alike with
      | pair => exact absurd rfl (notPair _ _)
      | nil => exact absurd rfl notNil
      | closure => exact absurd rfl (notClosure _ _ _ _)
      | _ => rfl

theorem text (alike : Alike R v w) : v.text = w.text := alike.write false ""

theorem label (alike : Alike R v w) : v.label = w.label := by
  have same := alike.text
  cases alike <;> first | rfl | exact same

theorem render (alike : Alike R v w) (depth : Nat) : v.render depth = w.render depth := by
  rw [Value.render, Value.render, alike.obstacle, alike.text]

theorem renderLabel (alike : Alike R v w) (depth : Nat) : v.renderLabel depth = w.renderLabel depth := by
  rw [Value.renderLabel, Value.renderLabel, alike.obstacle, alike.label]

theorem equal {v' w' : Value} (alike : Alike R v w) (alike' : Alike R v' w') (depth : Nat) :
    v.equal? v' depth = w.equal? w' depth := by
  induction alike generalizing v' w' depth with
  | pair _ _ first second =>
      cases alike' with
      | pair first' second' =>
          cases depth with
          | zero => rfl
          | succ depth => simp only [Value.equal?, first first', second second']
      | _ => rfl
  | closure formals ids _ _ _ =>
      cases alike' with
      | closure formals' ids' _ _ =>
          rw [Value.equal?, Value.equal?, Option.some.injEq, Bool.eq_iff_iff, beq_iff_eq, beq_iff_eq]
          exact ⟨fun same => R.closuresRight ids (same ▸ ids'), fun same => R.closuresLeft ids (same ▸ ids')⟩
      | _ => rfl
  | _ => cases alike' <;> rfl

theorem eq_sym_iff (alike : Alike R v w) {name : String} : v = .sym name ↔ w = .sym name := by
  cases alike <;> simp

theorem definedName (alike : Alike R v w) : Machine.definedName? v = Machine.definedName? w := by
  cases alike with
  | pair first second =>
      cases first with
      | sym name =>
          by_cases defines : name = "define"
          · subst defines
            cases second with
            | pair target _ => cases target <;> rfl
            | _ => rfl
          · rw [Machine.definedName_other defines, Machine.definedName_other defines]
      | _ => rfl
  | _ => rfl

theorem definedNames {vs ws : List Value} (alike : List.Forall₂ (Alike R) vs ws) :
    Machine.definedNames vs = Machine.definedNames ws := by
  induction alike with
  | nil => rfl
  | cons first _ ih =>
      rw [Machine.definedNames, Machine.definedNames, List.filterMap_cons, List.filterMap_cons, first.definedName]
      unfold Machine.definedNames at ih
      rw [ih]

end Alike

end Value

end CurriedLisp
