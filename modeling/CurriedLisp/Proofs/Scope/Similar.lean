import CurriedLisp.Proofs.Scope.Cell
import CurriedLisp.Proofs.Value.Alike

set_option autoImplicit false

/-!
Similar stores. Scopes that stand for each other see contents that are alike, although on the right one scope may
be cut into several: some of its variables then stand in hidden scopes between it and the scope that stands for the
outer one. Hidden scopes stand for no scope, so nothing but a lookup ever meets them.
-/

namespace CurriedLisp

variable {R R' : Renaming}

def EntryAlike (R : Renaming) (a b : String × Value) : Prop := a.1 = b.1 ∧ a.2.Alike R b.2

-- The way outwards through hidden scopes, with all their variables, to the first scope that is not hidden.
inductive Through (hidden : List (Nat × Scope)) : Option Nat → List (String × Value) → Option Nat → Prop where
  | here (stop : Option Nat) : Through hidden stop [] stop
  | next {x : Nat} {f : Scope} {extra : List (String × Value)} {stop : Option Nat} :
      (x, f) ∈ hidden → Through hidden f.outer extra stop → Through hidden (some x) (f.vars ++ extra) stop

structure FrameAlike (R : Renaming) (hidden : List (Nat × Scope)) (f g : Scope) (extra : List (String × Value))
    (stop : Option Nat) : Prop where
  through : Through hidden g.outer extra stop
  contents : ∀ name, Option.Rel (Value.Alike R) (f.vars.lookup name) ((g.vars ++ extra).lookup name)
  entries : extra = [] → List.Forall₂ (EntryAlike R) f.vars g.vars
  outer : Option.Rel R.scopes f.outer stop

structure Store.Similar (R : Renaming) (hidden : List (Nat × Scope)) (σ τ : Store) : Prop where
  ordered₁ : σ.Ordered
  ordered₂ : τ.Ordered
  apart : ∀ x f, (x, f) ∈ hidden → τ.scopes[x]? = some f ∧ ∀ a, ¬ R.scopes a x
  frames : ∀ a b, R.scopes a b → ∃ f g extra stop,
    σ.scopes[a]? = some f ∧ τ.scopes[b]? = some g ∧ FrameAlike R hidden f g extra stop
  closures : ∀ i j, R.closures i j → i < σ.closures ∧ j < τ.closures

theorem rel_imp {α β : Type} {r r' : α → β → Prop} (weaker : ∀ a b, r a b → r' a b) {x : Option α} {y : Option β}
    (related : Option.Rel r x y) : Option.Rel r' x y := by
  cases related with
  | some alike => exact .some (weaker _ _ alike)
  | none => exact .none

theorem rel_some_left {α β : Type} {r : α → β → Prop} {a : α} {y : Option β} (related : Option.Rel r (some a) y) :
    ∃ b, y = some b ∧ r a b := by
  cases related with
  | some alike => exact ⟨_, rfl, alike⟩

theorem rel_some_right {α β : Type} {r : α → β → Prop} {x : Option α} {b : β} (related : Option.Rel r x (some b)) :
    ∃ a, x = some a ∧ r a b := by
  cases related with
  | some alike => exact ⟨_, rfl, alike⟩

theorem rel_or {α β : Type} {r : α → β → Prop} {x x' : Option α} {y y' : Option β} (first : Option.Rel r x y)
    (second : Option.Rel r x' y') : Option.Rel r (x.or x') (y.or y') := by
  cases first with
  | some alike => exact .some alike
  | none => exact second

theorem through_mono {hidden hidden' : List (Nat × Scope)} (more : hidden ⊆ hidden') {start stop : Option Nat}
    {extra : List (String × Value)} (through : Through hidden start extra stop) : Through hidden' start extra stop := by
  induction through with
  | here stop => exact .here stop
  | next member _ ih => exact .next (more member) ih

theorem entries_assign {v w : Value} (name : String) (alike : v.Alike R w) {xs ys : List (String × Value)}
    (entries : List.Forall₂ (EntryAlike R) xs ys) :
    List.Forall₂ (EntryAlike R) (assign name v xs) (assign name w ys) := by
  induction entries with
  | nil => exact .cons ⟨rfl, alike⟩ .nil
  | @cons a b xs ys first rest ih =>
      obtain ⟨key, old⟩ := a
      obtain ⟨key', old'⟩ := b
      obtain ⟨same, held⟩ := first
      change key = key' at same
      subst same
      by_cases found : key = name
      · simp only [assign, if_pos found]
        exact .cons ⟨rfl, alike⟩ rest
      · simp only [assign, if_neg found]
        exact .cons ⟨rfl, held⟩ ih

theorem entries_assignAll {as bs : List (String × Value)} (bindings : List.Forall₂ (EntryAlike R) as bs)
    {xs ys : List (String × Value)} (entries : List.Forall₂ (EntryAlike R) xs ys) :
    List.Forall₂ (EntryAlike R) (Store.assignAll as xs) (Store.assignAll bs ys) := by
  induction bindings generalizing xs ys with
  | nil => exact entries
  | @cons a b as bs first _ ih =>
      obtain ⟨name, v⟩ := a
      obtain ⟨name', w⟩ := b
      obtain ⟨same, held⟩ := first
      change name = name' at same
      subst same
      exact ih (entries_assign name held entries)

theorem entries_zip (names : List String) {vs ws : List Value} (alike : List.Forall₂ (Value.Alike R) vs ws) :
    List.Forall₂ (EntryAlike R) (names.zip vs) (names.zip ws) := by
  induction alike generalizing names with
  | nil => simp
  | cons first _ ih =>
      cases names with
      | nil => exact .nil
      | cons name rest => exact .cons ⟨rfl, first⟩ (ih rest)

theorem contents_entries {xs ys : List (String × Value)} (entries : List.Forall₂ (EntryAlike R) xs ys) (name : String) :
    Option.Rel (Value.Alike R) (xs.lookup name) (ys.lookup name) := by
  induction entries with
  | nil => exact .none
  | @cons a b xs ys first rest ih =>
      obtain ⟨key, old⟩ := a
      obtain ⟨key', old'⟩ := b
      obtain ⟨same, held⟩ := first
      change key = key' at same
      subst same
      rw [List.lookup_cons, List.lookup_cons]
      cases name == key with
      | true => exact .some held
      | false => exact ih

theorem contents_assign {v w : Value} (name : String) (alike : v.Alike R w) {xs ys extra : List (String × Value)}
    (contents : ∀ n, Option.Rel (Value.Alike R) (xs.lookup n) ((ys ++ extra).lookup n)) (n : String) :
    Option.Rel (Value.Alike R) ((assign name v xs).lookup n) ((assign name w ys ++ extra).lookup n) := by
  rw [List.lookup_append]
  by_cases same : n = name
  · subst same
    rw [lookup_assign_same, lookup_assign_same]
    exact .some alike
  · rw [lookup_assign_other same, lookup_assign_other same, ← List.lookup_append]
    exact contents n

theorem FrameAlike.mono {hidden hidden' : List (Nat × Scope)} {f g : Scope} {extra : List (String × Value)}
    {stop : Option Nat} (within : R.Within R') (more : hidden ⊆ hidden') (alike : FrameAlike R hidden f g extra stop) :
    FrameAlike R' hidden' f g extra stop :=
  ⟨through_mono more alike.through, fun name => rel_imp (fun _ _ held => held.mono within) (alike.contents name),
    fun none => (alike.entries none).imp fun _ _ entry => ⟨entry.1, entry.2.mono within⟩,
    rel_imp within.1 alike.outer⟩

theorem FrameAlike.define {hidden : List (Nat × Scope)} {f g : Scope} {extra : List (String × Value)}
    {stop : Option Nat} (frame : FrameAlike R hidden f g extra stop) (name : String) {v w : Value}
    (alike : v.Alike R w) : FrameAlike R hidden { f with vars := assign name v f.vars }
      { g with vars := assign name w g.vars } extra stop :=
  ⟨frame.through, contents_assign name alike frame.contents, fun none => entries_assign name alike (frame.entries none),
    frame.outer⟩

namespace Store.Similar

variable {hidden : List (Nat × Scope)} {σ τ : Store}

theorem bounds (similar : Similar R hidden σ τ) {a b : Nat} (related : R.scopes a b) :
    a < σ.scopes.size ∧ b < τ.scopes.size := by
  obtain ⟨f, g, _, _, left, right, _⟩ := similar.frames a b related
  exact ⟨(Array.getElem?_eq_some_iff.mp left).1, (Array.getElem?_eq_some_iff.mp right).1⟩

theorem starts (similar : Similar R hidden σ τ) {start stop outer : Option Nat} {extra : List (String × Value)}
    (through : Through hidden start extra stop) (related : Option.Rel R.scopes outer stop) (o : Nat)
    (first : start = some o) : o < τ.scopes.size := by
  rw [first] at through
  cases through with
  | here =>
      obtain ⟨a, _, pair⟩ := rel_some_right related
      exact (similar.bounds pair).2
  | next member _ => exact (Array.getElem?_eq_some_iff.mp (similar.apart _ _ member).1).1

theorem cell_through (similar : Similar R hidden σ τ) (name : String) {start stop : Option Nat}
    {extra : List (String × Value)} (through : Through hidden start extra stop) :
    start.bind (τ.cell name) = (extra.lookup name).or (stop.bind (τ.cell name)) := by
  induction through with
  | here stop => simp
  | next member _ ih =>
      rw [Option.bind_some, cell_frame similar.ordered₂ (similar.apart _ _ member).1, ih, List.lookup_append,
        Option.or_assoc]

theorem cells (similar : Similar R hidden σ τ) (name : String) {a b : Nat} (related : R.scopes a b) :
    Option.Rel (Value.Alike R) (σ.cell name a) (τ.cell name b) := by
  induction a using Nat.strongRecOn generalizing b with
  | ind a ih =>
      obtain ⟨f, g, extra, stop, left, right, alike⟩ := similar.frames a b related
      have held := alike.contents name
      rw [cell_frame similar.ordered₁ left, cell_frame similar.ordered₂ right, similar.cell_through name alike.through,
        ← Option.or_assoc, ← List.lookup_append]
      generalize f.vars.lookup name = x, (g.vars ++ extra).lookup name = y at held
      cases held with
      | some contents => exact .some contents
      | none =>
          have inside := similar.ordered₁ a f left
          have outer := alike.outer
          generalize f.outer = o at inside outer
          cases outer with
          | some outer => exact ih _ (inside _ rfl) outer
          | none => exact .none

theorem lookups (similar : Similar R hidden σ τ) (name : String) {a b : Nat} (related : R.scopes a b) :
    match σ.lookup a name, τ.lookup b name with
    | .ok v, .ok w => v.Alike R w
    | .error e, .error f => e = f
    | _, _ => False := by
  have seen := similar.cells name related
  rw [lookup_cell, lookup_cell]
  generalize σ.cell name a = x, τ.cell name b = y at seen
  cases seen with
  | none => rfl
  | some alike =>
      have assigned := alike
      cases alike with
      | unassigned => rfl
      | _ => exact assigned

theorem define (similar : Similar R hidden σ τ) (name : String) {a b : Nat} (related : R.scopes a b) {v w : Value}
    (alike : v.Alike R w) : Similar R hidden (σ.define a name v) (τ.define b name w) := by
  refine ⟨define_ordered similar.ordered₁ a name v, define_ordered similar.ordered₂ b name w, fun x f member => ?_,
    fun c d pair => ?_, similar.closures⟩
  · obtain ⟨present, unrelated⟩ := similar.apart x f member
    have other : x ≠ b := fun same => unrelated a (same ▸ related)
    exact ⟨(define_other τ name w other).trans present, unrelated⟩
  · obtain ⟨f, g, extra, stop, left, right, frame⟩ := similar.frames c d pair
    by_cases same : c = a
    · subst same
      obtain rfl := R.scopesRight pair related
      refine ⟨_, _, extra, stop, ?_, ?_, frame.define name alike⟩
      · rw [define_same, left]
        rfl
      · rw [define_same, right]
        rfl
    · have other : d ≠ b := fun equal => same (R.scopesLeft (equal ▸ pair) related)
      exact ⟨f, g, extra, stop, (define_other σ name v same).trans left, (define_other τ name w other).trans right,
        frame⟩

theorem reserve (similar : Similar R hidden σ τ) (name : String) {a b : Nat} (related : R.scopes a b) :
    Similar R hidden (σ.reserve a name) (τ.reserve b name) := by
  have seen := similar.cells name related
  rw [reserve_cell, reserve_cell]
  generalize σ.cell name a = x, τ.cell name b = y at seen
  cases seen with
  | none => exact similar.define name related .unassigned
  | some _ => exact similar

theorem hide (similar : Similar R hidden σ τ) (entries : List (String × Value)) {outer : Option Nat}
    (older : ∀ o, outer = some o → o < τ.scopes.size) :
    Similar R ((τ.scopes.size, ⟨entries, outer⟩) :: hidden) σ (τ.addFrame entries outer) := by
  refine ⟨similar.ordered₁, addFrame_ordered similar.ordered₂ entries older, fun x f member => ?_,
    fun a b related => ?_, similar.closures⟩
  · rcases List.mem_cons.mp member with made | old
    · cases made
      exact ⟨addFrame_new τ entries outer, fun a related => absurd (similar.bounds related).2 (Nat.lt_irrefl _)⟩
    · obtain ⟨present, unrelated⟩ := similar.apart x f old
      exact ⟨(addFrame_old τ entries outer (Array.getElem?_eq_some_iff.mp present).1).trans present, unrelated⟩
  · obtain ⟨f, g, extra, stop, left, right, frame⟩ := similar.frames a b related
    exact ⟨f, g, extra, stop, left, (addFrame_old τ entries outer (similar.bounds related).2).trans right,
      frame.mono R.within_refl (List.subset_cons_self _ _)⟩

theorem closureRight (similar : Similar R hidden σ τ) : Similar R hidden σ τ.addClosure :=
  ⟨similar.ordered₁, similar.ordered₂, similar.apart, similar.frames,
    fun i j related => ⟨(similar.closures i j related).1, Nat.lt_succ_of_lt (similar.closures i j related).2⟩⟩

theorem mono (similar : Similar R hidden σ τ) (within : R.Within R') (scopes : R'.scopes = R.scopes)
    (closures : ∀ i j, R'.closures i j → i < σ.closures ∧ j < τ.closures) : Similar R' hidden σ τ := by
  refine ⟨similar.ordered₁, similar.ordered₂, by simpa only [scopes] using similar.apart, fun a b related => ?_,
    closures⟩
  rw [scopes] at related
  obtain ⟨f, g, extra, stop, left, right, frame⟩ := similar.frames a b related
  exact ⟨f, g, extra, stop, left, right, frame.mono within (List.Subset.refl _)⟩

theorem addClosure (similar : Similar R hidden σ τ) : ∃ R' : Renaming,
    R.Within R' ∧ R'.scopes = R.scopes ∧ R'.closures σ.closures τ.closures ∧
      Similar R' hidden σ.addClosure τ.addClosure := by
  have left : ∀ j, ¬ R.closures σ.closures j := fun j old => absurd (similar.closures _ _ old).1 (Nat.lt_irrefl _)
  have right : ∀ i, ¬ R.closures i τ.closures := fun i old => absurd (similar.closures _ _ old).2 (Nat.lt_irrefl _)
  refine ⟨R.withClosure _ _ left right, R.within_withClosure left right, rfl, .inr ⟨rfl, rfl⟩, ?_⟩
  have grown : Similar R hidden σ.addClosure τ.addClosure :=
    ⟨similar.ordered₁, similar.ordered₂, similar.apart, similar.frames, fun i j related =>
      ⟨Nat.lt_succ_of_lt (similar.closures i j related).1, Nat.lt_succ_of_lt (similar.closures i j related).2⟩⟩
  refine grown.mono (R.within_withClosure left right) rfl fun i j related => ?_
  obtain old | ⟨rfl, rfl⟩ := related
  · exact grown.closures i j old
  · exact ⟨Nat.lt_succ_self _, Nat.lt_succ_self _⟩

theorem addFrame (similar : Similar R hidden σ τ) {f g : Scope} {extra : List (String × Value)} {stop : Option Nat}
    (frame : FrameAlike R hidden f g extra stop) : ∃ R' : Renaming,
      R.Within R' ∧ R'.scopes σ.scopes.size τ.scopes.size ∧
        (∀ a b, R'.scopes a b → R.scopes a b ∨ a = σ.scopes.size ∧ b = τ.scopes.size) ∧
        Similar R' hidden (σ.addFrame f.vars f.outer) (τ.addFrame g.vars g.outer) := by
  have left : ∀ b, ¬ R.scopes σ.scopes.size b := fun b old => absurd (similar.bounds old).1 (Nat.lt_irrefl _)
  have right : ∀ a, ¬ R.scopes a τ.scopes.size := fun a old => absurd (similar.bounds old).2 (Nat.lt_irrefl _)
  have within := R.within_withScope left right
  refine ⟨R.withScope _ _ left right, within, .inr ⟨rfl, rfl⟩, fun _ _ related => related, addFrame_ordered similar.ordered₁ _ ?_,
    addFrame_ordered similar.ordered₂ _ ?_, fun x f member => ?_, fun a b related => ?_, similar.closures⟩
  · intro o inside
    have outer := frame.outer
    rw [inside] at outer
    obtain ⟨o', _, related⟩ := rel_some_left outer
    exact (similar.bounds related).1
  · exact similar.starts frame.through frame.outer
  · obtain ⟨present, unrelated⟩ := similar.apart x f member
    have old := (Array.getElem?_eq_some_iff.mp present).1
    refine ⟨(addFrame_old τ _ _ old).trans present, fun a related => ?_⟩
    obtain related | ⟨_, rfl⟩ := related
    · exact unrelated a related
    · exact Nat.lt_irrefl _ old
  · obtain old | ⟨rfl, rfl⟩ := related
    · obtain ⟨f', g', extra', stop', left', right', frame'⟩ := similar.frames a b old
      exact ⟨f', g', extra', stop', (addFrame_old σ _ _ (similar.bounds old).1).trans left',
        (addFrame_old τ _ _ (similar.bounds old).2).trans right', frame'.mono within (List.Subset.refl _)⟩
    · exact ⟨f, g, extra, stop, addFrame_new σ _ _, addFrame_new τ _ _, frame.mono within (List.Subset.refl _)⟩

end Store.Similar

-- The value refers to nothing that the store does not have.
def Value.Belongs (s : Store) : Value → Prop
  | pair first second => first.Belongs s ∧ second.Belongs s
  | closure id _ body scope => id < s.closures ∧ scope < s.scopes.size ∧ body.Belongs s
  | _ => True

instance Value.decidableBelongs (s : Store) : (v : Value) → Decidable (v.Belongs s)
  | pair first second => @instDecidableAnd _ _ (decidableBelongs s first) (decidableBelongs s second)
  | closure _ _ body _ =>
      @instDecidableAnd _ _ inferInstance (@instDecidableAnd _ _ inferInstance (decidableBelongs s body))
  | int _ | bool _ | nil | sym _ | builtin _ | unassigned => .isTrue trivial

structure Store.Sound (s : Store) : Prop where
  ordered : s.Ordered
  held : ∀ (i : Nat) (f : Scope), s.scopes[i]? = some f → ∀ entry ∈ f.vars, entry.2.Belongs s

def Renaming.identity (s : Store) : Renaming where
  scopes a b := a = b ∧ a < s.scopes.size
  closures i j := i = j ∧ i < s.closures
  scopesRight := by
    rintro a b c ⟨rfl, _⟩ ⟨rfl, _⟩
    rfl
  scopesLeft := by
    rintro a b c ⟨rfl, _⟩ ⟨rfl, _⟩
    rfl
  closuresRight := by
    rintro a b c ⟨rfl, _⟩ ⟨rfl, _⟩
    rfl
  closuresLeft := by
    rintro a b c ⟨rfl, _⟩ ⟨rfl, _⟩
    rfl

theorem Value.Belongs.alike {s : Store} {v : Value} (belongs : v.Belongs s) : v.Alike (Renaming.identity s) v := by
  induction v with
  | pair first second ihFirst ihSecond => exact .pair (ihFirst belongs.1) (ihSecond belongs.2)
  | closure id formals body scope ih => exact .closure formals ⟨rfl, belongs.1⟩ ⟨rfl, belongs.2.1⟩ (ih belongs.2.2)
  | _ => constructor

theorem Store.Sound.entries {s : Store} (sound : s.Sound) {i : Nat} {f : Scope} (present : s.scopes[i]? = some f) :
    List.Forall₂ (EntryAlike (Renaming.identity s)) f.vars f.vars := by
  have held := sound.held i f present
  generalize f.vars = vars at held
  induction vars with
  | nil => exact .nil
  | cons entry rest ih =>
      exact .cons ⟨rfl, (held entry List.mem_cons_self).alike⟩
        (ih fun e member => held e (List.mem_cons_of_mem _ member))

theorem Store.Sound.similar {s : Store} (sound : s.Sound) : Store.Similar (Renaming.identity s) [] s s := by
  refine ⟨sound.ordered, sound.ordered, by simp, ?_, ?_⟩
  · rintro a b ⟨rfl, present⟩
    obtain ⟨f, found⟩ : ∃ f, s.scopes[a]? = some f := ⟨_, Array.getElem?_eq_getElem present⟩
    refine ⟨f, f, [], f.outer, found, found, .here _, fun name => ?_, fun _ => sound.entries found, ?_⟩
    · rw [List.append_nil]
      exact contents_entries (sound.entries found) name
    · cases inside : f.outer with
      | none => exact .none
      | some o => exact .some ⟨rfl, Nat.lt_trans (sound.ordered a f found o inside) present⟩
  · rintro i j ⟨rfl, made⟩
    exact ⟨made, made⟩

end CurriedLisp
