import CurriedLisp.Eval.Binding
import CurriedLisp.Eval.Evaluator
import CurriedLisp.Proofs.Scope.Visibility

set_option autoImplicit false

namespace CurriedLisp

variable {ρ α β : Type}

-- The results of the elements before the first one that has none.
def leading (f : α → Option β) : List α → List β
  | [] => []
  | a :: rest =>
      match f a with
      | none => []
      | some b => b :: leading f rest

def Value.symbol? : Value → Option String
  | .sym name => some name
  | _ => none

theorem Value.symbol_eq {v : Value} {name : String} (named : v.symbol? = some name) : v = .sym name := by
  cases v with
  | sym other => exact congrArg Value.sym (Option.some.inj named)
  | _ => cases named

def named? (entry : Value × Value) : Option (String × Value) := entry.1.symbol?.map (·, entry.2)

-- What can be done to a forest; names are given as values.
inductive Operation where
  | child (outer : Option Nat)
  | define (scope : Nat) (name value : Value)
  | reserve (scope : Nat) (names : List Value)
  | update (scope : Nat) (mapping : List (Value × Value))

inductive Edit where
  | child (outer : Option Nat)
  | define (scope : Nat) (name : String) (value : Value)
  | reserve (scope : Nat) (name : String)

namespace Edit

def apply (s : Store) : Edit → Store
  | child outer => s.addScope outer
  | define scope name value => s.define scope name value
  | reserve scope name => s.reserve scope name

def Present (s : Store) : Edit → Prop
  | child outer => ∀ o ∈ outer, o < s.scopes.size
  | define scope _ _ => scope < s.scopes.size
  | reserve scope _ => scope < s.scopes.size

-- The names that are bound, with the scope that holds them; a name that is visible is not reserved.
def binds (s : Store) : Edit → List (Nat × String)
  | child _ => []
  | define scope name _ => [(scope, name)]
  | reserve scope name => if (s.find? name scope).isSome then [] else [(scope, name)]

def allBinds : List Edit → Store → List (Nat × String)
  | [], _ => []
  | e :: rest, s => e.binds s ++ allBinds rest (e.apply s)

theorem allBinds_append (edits more : List Edit) (s : Store) :
    allBinds (edits ++ more) s = allBinds edits s ++ allBinds more (edits.foldl apply s) := by
  induction edits generalizing s with
  | nil => rfl
  | cons e rest ih => simp only [List.cons_append, allBinds, ih, List.append_assoc, List.foldl_cons]

theorem Present.mono {s t : Store} (grown : s.scopes.size ≤ t.scopes.size) {e : Edit} (present : e.Present s) :
    e.Present t := by
  cases e with
  | child outer => exact fun o inside => Nat.lt_of_lt_of_le (present o inside) grown
  | define scope _ _ => exact Nat.lt_of_lt_of_le present grown
  | reserve scope _ => exact Nat.lt_of_lt_of_le present grown

theorem apply_grows (s : Store) (e : Edit) : s.scopes.size ≤ (e.apply s).scopes.size := by
  cases e with
  | child outer => exact s.addScope_size outer ▸ Nat.le_succ _
  | define scope name value => exact Nat.le_of_eq (Store.Rebound.define s scope name value).size.symm
  | reserve scope name => exact Nat.le_of_eq (Store.Rebound.reserve s scope name).size.symm

theorem all_steps {P : List (Nat × String) → Store → Prop}
    (step : ∀ log s (e : Edit), e.Present s → P log s → P (log ++ e.binds s) (e.apply s)) {edits : List Edit}
    {log : List (Nat × String)} {s : Store} (present : ∀ e ∈ edits, e.Present s) (holds : P log s) :
    P (log ++ allBinds edits s) (edits.foldl apply s) := by
  induction edits generalizing log s with
  | nil => simpa [allBinds] using holds
  | cons e rest ih =>
      obtain ⟨first, others⟩ := List.forall_mem_cons.mp present
      have next := ih (fun e' member => (others e' member).mono (apply_grows s e)) (step log s e first holds)
      rwa [List.append_assoc] at next

theorem apply_outer {s : Store} (e : Edit) {i : Nat} (old : i < s.scopes.size) :
    (e.apply s).outer? i = s.outer? i := by
  cases e with
  | child outer => rw [apply, Store.outer?, Store.outer?, s.addScope_old outer old]
  | define scope name value => exact (Store.Rebound.define s scope name value).outer i
  | reserve scope name => exact (Store.Rebound.reserve s scope name).outer i

theorem apply_ordered {s : Store} (ordered : s.Ordered) {e : Edit} (present : e.Present s) : (e.apply s).Ordered := by
  cases e with
  | child outer => exact Store.addFrame_ordered ordered [] present
  | define scope name value => exact Store.define_ordered ordered scope name value
  | reserve scope name => exact ordered.of_outer (Store.Rebound.reserve s scope name).outer

theorem apply_visible {s : Store} (ordered : s.Ordered) {e : Edit} (present : e.Present s) {name : String} {scope : Nat}
    (there : scope < s.scopes.size) (visible : (s.cell name scope).isSome) : ((e.apply s).cell name scope).isSome := by
  cases e with
  | child outer =>
      have kept : s.Kept (s.addScope outer) := fun i old => s.addScope_old outer old
      rw [apply, kept.cell ordered (Store.addFrame_ordered ordered [] present) there]
      exact visible
  | define target other value =>
      rw [apply, Store.define_cell ordered present]
      by_cases seen : name = other ∧ s.Reaches other scope target
      · rw [if_pos seen]
        rfl
      · rw [if_neg seen]
        exact visible
  | reserve target other =>
      rw [apply, Store.cell_reserve ordered present, if_neg]
      · exact visible
      · intro blank
        rw [blank.2.2] at visible
        cases visible

end Edit

namespace Operation

def run (m : Machine ρ) : Operation → Eval ρ Unit
  | child outer => do let _ ← Eval.newScope outer
  | define scope name value => m.defineNamed scope name value
  | reserve scope names => m.reserveNamed scope names
  | update scope mapping => m.update scope mapping

def Present (s : Store) : Operation → Prop
  | child outer => ∀ o ∈ outer, o < s.scopes.size
  | define scope _ _ => scope < s.scopes.size
  | reserve scope _ => scope < s.scopes.size
  | update scope _ => scope < s.scopes.size

instance (s : Store) : (op : Operation) → Decidable (op.Present s)
  | child none => .isTrue fun _ never => nomatch never
  | child (some o) => decidable_of_iff (o < s.scopes.size) (by simp [Present])
  | define scope _ _ => inferInstanceAs (Decidable (scope < _))
  | reserve scope _ => inferInstanceAs (Decidable (scope < _))
  | update scope _ => inferInstanceAs (Decidable (scope < _))

-- The entries of a mapping: a repeated name has its first place and its last value.
def entries (mapping : List (Value × Value)) : List (Value × Value) :=
  mapping.foldl (fun entries (name, value) => assign name value entries) []

def names : Operation → List Value
  | child _ => []
  | define _ name _ => [name]
  | reserve _ names => names
  | update _ mapping => (entries mapping).map (·.1)

-- What an operation does before a name that is not a symbol stops it.
def edits : Operation → List Edit
  | child outer => [.child outer]
  | define scope name value => (leading named? [(name, value)]).map fun e => .define scope e.1 e.2
  | reserve scope names => (leading Value.symbol? names).map (.reserve scope)
  | update scope mapping => (leading named? (entries mapping)).map fun e => .define scope e.1 e.2

theorem edits_present {s : Store} {op : Operation} (present : op.Present s) : ∀ e ∈ op.edits, e.Present s := by
  intro e member
  cases op with
  | child outer =>
      rw [edits, List.mem_singleton] at member
      rw [member]
      exact present
  | define scope name value =>
      obtain ⟨entry, _, rfl⟩ := List.mem_map.mp member
      exact present
  | reserve scope names =>
      obtain ⟨name, _, rfl⟩ := List.mem_map.mp member
      exact present
  | update scope mapping =>
      obtain ⟨entry, _, rfl⟩ := List.mem_map.mp member
      exact present

end Operation

namespace Machine

variable (m : Machine ρ)

def refusal (v : Value) : Failure :=
  match v.renderLabel m.depth with
  | .ok shown => .error (.cannotDefine shown)
  | .error o => .ofObstacle o

def finish (names : List Value) : Eval ρ Unit :=
  match names.find? (·.symbol?.isNone) with
  | none => return
  | some v => throw (m.refusal v)

theorem after_finish {x : Eval ρ Unit} {names : List Value} {w u : World ρ} (ran : x w = m.finish names u) :
    x.after w = u := by
  rw [Eval.after, ran, finish]
  cases names.find? (·.symbol?.isNone) <;> rfl

theorem nameOf_other {v : Value} (other : v.symbol? = none) (w : World ρ) :
    m.nameOf v w = .error (m.refusal v) w := by
  have refused : m.nameOf v = m.label v >>= fun shown => Eval.raise (.cannotDefine shown) := by
    cases v with
    | sym name => cases other
    | _ => rfl
  rw [refused, label, refusal]
  cases v.renderLabel m.depth <;> rfl

variable {m}

theorem reserveNamed_run (reserves : m.mode.reserve = true) (scope : Nat) (names : List Value) (w : World ρ) :
    m.reserveNamed scope names w =
      m.finish names { w with store := (leading Value.symbol? names).foldl (·.reserve scope) w.store } := by
  induction names generalizing w with
  | nil => rfl
  | cons v rest ih =>
      cases named : v.symbol? with
      | none =>
          simp only [reserveNamed, bind, EStateM.bind, nameOf_other m named, finish, leading, List.find?_cons, named,
            Option.isNone_none, List.foldl_nil]
          rfl
      | some name =>
          obtain rfl := Value.symbol_eq named
          have held : m.reserve scope [name] = Eval.modifyStore (·.reserve scope name) := by
            rw [reserve, if_pos reserves]
            rfl
          have first : m.reserveNamed scope (.sym name :: rest) w =
              m.reserveNamed scope rest { w with store := w.store.reserve scope name } := by
            rw [reserveNamed, nameOf, pure_bind, held]
            rfl
          rw [first, ih]
          simp only [finish, leading, List.find?_cons, named, Option.isNone_some, List.foldl_cons]

theorem reserveNamed_after (reserves : m.mode.reserve = true) (scope : Nat) (names : List Value) (w : World ρ) :
    (m.reserveNamed scope names).after w =
      { w with store := (leading Value.symbol? names).foldl (·.reserve scope) w.store } :=
  after_finish m (reserveNamed_run reserves scope names w)

theorem defineEach_run (scope : Nat) (entries : List (Value × Value)) (w : World ρ) :
    m.defineEach scope entries w = m.finish (entries.map (·.1))
      { w with store := (leading named? entries).foldl (fun s e => s.define scope e.1 e.2) w.store } := by
  induction entries generalizing w with
  | nil => rfl
  | cons entry rest ih =>
      obtain ⟨v, value⟩ := entry
      cases named : v.symbol? with
      | none =>
          have none_ : named? (v, value) = none := by rw [named?, named]; rfl
          simp only [defineEach, defineNamed, bind, EStateM.bind, nameOf_other m named, finish, leading, none_,
            List.map_cons, List.find?_cons, named, Option.isNone_none, List.foldl_nil]
          rfl
      | some name =>
          obtain rfl := Value.symbol_eq named
          refine (ih _).trans ?_
          simp only [finish, leading, named?, List.map_cons, List.find?_cons, named, Option.isNone_some,
            Option.map_some, List.foldl_cons]

theorem defineNamed_each (scope : Nat) (name value : Value) :
    m.defineNamed scope name value = m.defineEach scope [(name, value)] := by
  rw [defineEach]
  exact (bind_pure _).symm

end Machine

theorem Operation.run_eq {m : Machine ρ} (reserves : m.mode.reserve = true) (op : Operation) (w : World ρ) :
    op.run m w = m.finish op.names { w with store := op.edits.foldl Edit.apply w.store } := by
  cases op with
  | child outer => rfl
  | define scope name value =>
      rw [run, Machine.defineNamed_each, Machine.defineEach_run, edits, List.foldl_map]
      rfl
  | reserve scope names =>
      rw [run, Machine.reserveNamed_run reserves, edits, List.foldl_map]
      rfl
  | update scope mapping =>
      rw [run, Machine.update, edits, List.foldl_map]
      exact Machine.defineEach_run scope (entries mapping) w

theorem Operation.run_after {m : Machine ρ} (reserves : m.mode.reserve = true) (op : Operation) (w : World ρ) :
    (op.run m).after w = { w with store := op.edits.foldl Edit.apply w.store } :=
  Machine.after_finish m (op.run_eq reserves w)

-- Operations one after another; where one fails, what it did remains.
def perform (m : Machine ρ) (ops : List Operation) (w : World ρ) : World ρ :=
  ops.foldl (fun w op => (op.run m).after w) w

def Possible (m : Machine ρ) : List Operation → World ρ → Prop
  | [], _ => True
  | op :: rest, w => op.Present w.store ∧ Possible m rest ((op.run m).after w)

instance decidablePossible (m : Machine ρ) : (ops : List Operation) → (w : World ρ) → Decidable (Possible m ops w)
  | [], _ => .isTrue trivial
  | _ :: rest, _ => @instDecidableAnd _ _ inferInstance (decidablePossible m rest _)

def bound (ops : List Operation) (s : Store) : List (Nat × String) := Edit.allBinds (ops.flatMap Operation.edits) s

theorem perform_steps {m : Machine ρ} (reserves : m.mode.reserve = true) {P : List (Nat × String) → Store → Prop}
    (step : ∀ log s (e : Edit), e.Present s → P log s → P (log ++ e.binds s) (e.apply s)) {ops : List Operation}
    {w : World ρ} (possible : Possible m ops w) (log : List (Nat × String)) (holds : P log w.store) :
    P (log ++ bound ops w.store) (perform m ops w).store := by
  induction ops generalizing w log with
  | nil => exact (List.append_nil log).symm ▸ holds
  | cons op rest ih =>
      have after : ((op.run m).after w).store = op.edits.foldl Edit.apply w.store :=
        congrArg World.store (op.run_after reserves w)
      have first := Edit.all_steps step (Operation.edits_present possible.1) holds
      rw [← after] at first
      have next := ih possible.2 _ first
      rw [after, List.append_assoc] at next
      rw [bound, List.flatMap_cons, Edit.allBinds_append]
      exact next

theorem perform_ordered {m : Machine ρ} (reserves : m.mode.reserve = true) {ops : List Operation} {w : World ρ}
    (possible : Possible m ops w) (ordered : w.store.Ordered) : (perform m ops w).store.Ordered :=
  perform_steps reserves (P := fun _ s => s.Ordered) (fun _ _ _ present ordered => Edit.apply_ordered ordered present)
    possible [] ordered

section Order

def namesAt (scope : Nat) (log : List (Nat × String)) : List String := (log.filter (·.1 = scope)).map (·.2)

theorem namesAt_append (scope : Nat) (log more : List (Nat × String)) :
    namesAt scope (log ++ more) = namesAt scope log ++ namesAt scope more := by
  rw [namesAt, List.filter_append, List.map_append]
  rfl

theorem eraseDups_snoc (names : List String) (name : String) :
    (names ++ [name]).eraseDups = names.eraseDups ++ if name ∈ names.eraseDups then [] else [name] := by
  rw [List.eraseDups_append]
  by_cases known : name ∈ names
  · simp [List.removeAll, List.mem_eraseDups, known]
  · simp [List.removeAll, List.mem_eraseDups, known, List.eraseDups_cons]

-- Every scope lists its names in the order in which it was first given them.
def Listed (log : List (Nat × String)) (s : Store) : Prop :=
  ∀ i, (s.vars i).map (·.1) = (namesAt i log).eraseDups

theorem listed_define {log : List (Nat × String)} {s : Store} (listed : Listed log s) {scope : Nat}
    (present : scope < s.scopes.size) (name : String) (value : Value) :
    Listed (log ++ [(scope, name)]) (s.define scope name value) := by
  intro i
  rw [namesAt_append, Store.define_vars]
  by_cases here : i = scope
  · subst here
    have only : namesAt i [(i, name)] = [name] := by simp [namesAt]
    rw [if_pos ⟨rfl, present⟩, keys_assign, only, eraseDups_snoc, listed i]
  · have none_ : namesAt i [(scope, name)] = [] := by simp [namesAt, Ne.symm here]
    rw [if_neg fun both => here both.1, none_, List.append_nil, listed i]

theorem listed_edit {log : List (Nat × String)} {s : Store} (listed : Listed log s) {e : Edit} (present : e.Present s) :
    Listed (log ++ e.binds s) (e.apply s) := by
  cases e with
  | child outer =>
      intro i
      rw [Edit.binds, List.append_nil, ← listed i]
      by_cases old : i < s.scopes.size
      · rw [Edit.apply, Store.vars, Store.vars, s.addScope_old outer old]
      · have absent : s.scopes[i]? = none := by simp; omega
        by_cases new : i = s.scopes.size
        · subst new
          rw [Edit.apply, s.addScope_vars outer, Store.vars, absent]
        · have beyond : (s.addScope outer).scopes[i]? = none := by simp [Store.addScope]; omega
          rw [Edit.apply, Store.vars, Store.vars, beyond, absent]
  | define scope name value => exact listed_define listed present name value
  | reserve scope name =>
      rw [Edit.binds, Edit.apply, Store.reserve_cell, Store.find_isSome]
      by_cases seen : (s.cell name scope).isSome
      · rw [if_pos seen, if_pos seen, List.append_nil]
        exact listed
      · rw [if_neg seen, if_neg seen]
        exact listed_define listed present name .unassigned

theorem perform_listed {m : Machine ρ} (reserves : m.mode.reserve = true) {ops : List Operation} {w : World ρ}
    (possible : Possible m ops w) {log : List (Nat × String)} (listed : Listed log w.store) :
    Listed (log ++ bound ops w.store) (perform m ops w).store :=
  perform_steps reserves (P := Listed) (fun _ _ _ present listed => listed_edit listed present) possible log listed

end Order

theorem perform_visible {m : Machine ρ} (reserves : m.mode.reserve = true) {ops : List Operation} {w : World ρ}
    (possible : Possible m ops w) (ordered : w.store.Ordered) {target : Nat} (present : target < w.store.scopes.size)
    {name : String} (visible : (w.store.cell name target).isSome) {scope : Nat}
    (inside : target ∈ (perform m ops w).store.chain scope) :
    ((perform m ops w).store.find? name scope).isSome := by
  have kept := perform_steps reserves
    (P := fun _ s => s.Ordered ∧ target < s.scopes.size ∧ (s.cell name target).isSome)
    (fun _ s e there ⟨ordered, present, visible⟩ => ⟨Edit.apply_ordered ordered there,
      Nat.lt_of_lt_of_le present (Edit.apply_grows s e), Edit.apply_visible ordered there present visible⟩)
    possible [] ⟨ordered, present, visible⟩
  rw [Store.find_isSome, Option.isSome_iff_ne_none]
  intro blank
  have none_ := Store.cell_none_outward kept.1 inside blank
  rw [none_] at kept
  cases kept.2.2

theorem perform_chain {m : Machine ρ} (reserves : m.mode.reserve = true) {ops : List Operation} {w : World ρ}
    (possible : Possible m ops w) {scope : Nat} (present : scope < w.store.scopes.size) :
    (perform m ops w).store.chain scope = w.store.chain scope :=
  (perform_steps reserves
    (P := fun _ s => w.store.scopes.size ≤ s.scopes.size ∧ s.chain scope = w.store.chain scope)
    (fun _ s e _ ⟨grown, same⟩ => ⟨Nat.le_trans grown (Edit.apply_grows s e),
      (Store.chain_congr fun _ below => Edit.apply_outer e
        (Nat.lt_of_le_of_lt below (Nat.lt_of_lt_of_le present grown))).trans same⟩)
    possible [] ⟨Nat.le_refl _, rfl⟩).2

def World.empty : World ρ := ⟨.empty, []⟩

theorem empty_ordered : (World.empty : World ρ).store.Ordered := fun i f present => by
  simp [World.empty, Store.empty] at present

theorem empty_listed : Listed [] (World.empty : World ρ).store := fun i => by
  simp [World.empty, Store.empty, Store.vars, namesAt]

/-- In a forest that any operations have built, every scope lists its names in the order in which it was first given
them. A definition is seen from its scope and from those scopes inside it that have no nearer holder of the name; no
other lookup changes, so that the scopes around it and next to it never notice. -/
theorem definition_visible_exactly {m : Machine ρ} (reserves : m.mode.reserve = true) {ops : List Operation}
    (possible : Possible m ops .empty) :
    let w : World ρ := perform m ops .empty
    (∀ i, (w.store.vars i).map (·.1) = (namesAt i (bound ops .empty)).eraseDups) ∧
    ∀ h, h < w.store.scopes.size → ∀ n v, v ≠ .unassigned →
      ∃ u : World ρ, m.defineNamed h (.sym n) v w = .ok () u ∧
        (∀ i k, u.store.lookup i k = if k = n ∧ w.store.Reaches n i h then .ok v else w.store.lookup i k) ∧
        ∀ i, i ≠ h → i ∈ w.store.chain h ∨ w.store.outer? i = w.store.outer? h →
          ∀ k, u.store.lookup i k = w.store.lookup i k := by
  intro w
  have ordered : w.store.Ordered := perform_ordered reserves possible empty_ordered
  have listed : Listed (bound ops .empty) w.store := perform_listed reserves possible empty_listed
  refine ⟨listed, fun h present n v assigned => ⟨_, rfl, fun i k => ?_, fun i other beside k => ?_⟩⟩
  · exact Store.lookup_define ordered present n assigned i k
  · have outside : h ∉ w.store.chain i := Store.beside_outside ordered other beside
    exact (Store.lookup_define ordered present n assigned i k).trans (if_neg fun seen => outside seen.2.1)

-- Three scopes in a row and one beside; the innermost has reserved the name, and two operations stop at what is no name.
theorem definition_visible_exactly_blocked :
    let m : Machine String := .ofDepth (.program true) 9
    let x := Value.sym "x"
    let ops := [Operation.child none, .child (some 0), .child (some 1), .child (some 0), .reserve 2 [.sym "z", x, x],
      .define 0 (.int 5) .nil, .update 1 [(.sym "y", .int 1), (.nil, .nil), (x, .int 2)], .define 3 (.sym "y") .unassigned]
    let w : World String := perform m ops .empty
    Possible m ops .empty ∧ (w.store.vars 2).map (·.1) = ["z", "x"] ∧
      ∃ u, m.defineNamed 0 x (.int 7) w = .ok () u ∧ u.store.lookup 1 "x" = .ok (.int 7) ∧
        u.store.lookup 2 "x" = .error (.unassigned "x") ∧ u.store.lookup 2 "y" = .ok (.int 1) ∧
        u.store.lookup 3 "y" = .error (.unassigned "y") := by
  intro m x ops w
  have possible : Possible m ops .empty := by decide +kernel
  obtain ⟨listed, defined⟩ := definition_visible_exactly (rfl : m.mode.reserve = true) possible
  obtain ⟨u, ends, seen, _⟩ := defined 0 (by decide +kernel) "x" (.int 7) (by decide)
  refine ⟨possible, (listed 2).trans (by decide +kernel), u, ends, ?_, ?_, ?_, ?_⟩
  · exact (seen 1 "x").trans (by decide +kernel)
  · exact (seen 2 "x").trans (by decide +kernel)
  · exact (seen 2 "y").trans (by decide +kernel)
  · exact (seen 3 "y").trans (by decide +kernel)

/-- In a forest that any operations have built, reserving names leaves every lookup as it is but those of the names
before the first one that is no symbol, in the scope and those inside it, that found nothing: they fail otherwise from
then on. Doing it again changes nothing, and whatever is done later, these names are visible from the scope and from
all that lie in it. -/
theorem reserving_disturbs_nothing {m : Machine ρ} (reserves : m.mode.reserve = true) {ops : List Operation}
    (possible : Possible m ops .empty) {h : Nat} (present : h < (perform m ops .empty).store.scopes.size)
    (names : List Value) :
    let w : World ρ := perform m ops .empty
    let u : World ρ := (m.reserveNamed h names).after w
    let listed := leading Value.symbol? names
    (∀ i k, u.store.lookup i k =
      if k ∈ listed ∧ h ∈ w.store.chain i ∧ w.store.lookup i k = .error (.unbound k) then .error (.unassigned k)
      else w.store.lookup i k) ∧
    (∀ i k e, u.store.lookup i k = .error e → e.category = .unbound ∧
      (e.message = "Cannot lookup unbound symbol " ++ k ∨
        e.message = "Symbol " ++ k ++ " referenced before its definition")) ∧
    ((∀ v ∈ names, v.symbol?.isSome) → m.reserveNamed h names w = .ok () u) ∧
    (m.reserveNamed h names).after u = u ∧
    ∀ later, Possible m later u →
      let z : World ρ := perform m later u
      (∀ i, i < u.store.scopes.size → z.store.chain i = w.store.chain i) ∧
      ∀ n ∈ listed, ∀ i, h ∈ z.store.chain i → (z.store.find? n i).isSome := by
  intro w u listed
  have ordered : w.store.Ordered := perform_ordered reserves possible empty_ordered
  have reserved : u = { w with store := listed.foldl (·.reserve h) w.store } :=
    Machine.reserveNamed_after reserves h names w
  have rebound : w.store.Rebound h u.store := reserved ▸ Store.Rebound.reserveAll w.store h listed
  have visible : ∀ n ∈ listed, (u.store.cell n h).isSome := by
    intro n member
    rw [reserved, Store.cell_reserveAll ordered present]
    cases seen : w.store.cell n h with
    | none => simp [member, Store.mem_chain_self ordered h]
    | some v => simp
  refine ⟨fun i k => ?_, fun i k e failed => ?_, fun symbols => ?_, ?_, fun later possibly => ⟨fun i old => ?_, ?_⟩⟩
  · rw [reserved]
    exact Store.lookup_reserveAll ordered present listed i k
  · obtain missing | placeholder := Store.lookup_error failed
    · subst missing
      exact ⟨rfl, .inl rfl⟩
    · subst placeholder
      exact ⟨rfl, .inr rfl⟩
  · have all : names.find? (·.symbol?.isNone) = none := by simpa [Option.isSome_iff_ne_none] using symbols
    rw [Machine.reserveNamed_run reserves, Machine.finish, all]
    exact congrArg (EStateM.Result.ok ()) reserved.symm
  · rw [Machine.reserveNamed_after reserves h names u]
    exact World.eq_of (Store.reserveAll_visible visible) rfl
  · rw [perform_chain reserves possibly old, rebound.chain]
  · intro n member i inside
    exact perform_visible reserves possibly (ordered.of_outer rebound.outer) (rebound.size ▸ present) (visible n member)
      inside

-- A name that is visible, one that is not and is listed twice, and one that comes too late.
theorem reserving_disturbs_nothing_midway :
    let m : Machine String := .ofDepth (.program true) 9
    let a := Value.sym "a"
    let y := Value.sym "y"
    let names := [a, y, y, .int 5, .sym "b"]
    let ops := [Operation.child none, .child (some 0), .child (some 1), .child (some 1), .child (some 0),
      .define 0 a (.int 1), .update 2 [(y, .int 2), (.nil, .nil), (y, .int 3)]]
    let later := [Operation.child (some 3), .update 0 [(y, .int 9)], .define 5 .nil y]
    let w : World String := perform m ops .empty
    let u := (m.reserveNamed 1 names).after w
    Possible m ops .empty ∧ 1 < w.store.scopes.size ∧ Possible m later u ∧
      u.store.lookup 1 "a" = .ok (.int 1) ∧ u.store.lookup 2 "y" = .ok (.int 3) ∧
      u.store.lookup 3 "y" = .error (.unassigned "y") ∧ u.store.lookup 4 "y" = .error (.unbound "y") ∧
      u.store.lookup 3 "b" = .error (.unbound "b") ∧ (m.reserveNamed 1 names).after u = u ∧
      ((perform m later u).store.find? "y" 5).isSome := by
  intro m a y names ops later w u
  have possible : Possible m ops .empty := by decide +kernel
  have present : 1 < (perform m ops .empty).store.scopes.size := by decide +kernel
  have possibly : Possible m later u := by decide +kernel
  obtain ⟨seen, _, _, again, further⟩ :=
    reserving_disturbs_nothing (rfl : m.mode.reserve = true) possible present names
  obtain ⟨_, visible⟩ := further later possibly
  refine ⟨possible, present, possibly, (seen 1 "a").trans ?_, (seen 2 "y").trans ?_, (seen 3 "y").trans ?_,
    (seen 4 "y").trans ?_, (seen 3 "b").trans ?_, again, visible "y" (by decide +kernel) 5 (by decide +kernel)⟩ <;>
    decide +kernel

end CurriedLisp
