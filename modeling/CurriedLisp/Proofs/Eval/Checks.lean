import CurriedLisp.Proofs.Eval.Escape
import CurriedLisp.Proofs.Reader.RoundTrip
import CurriedLisp.Proofs.Value.Equality

set_option autoImplicit false

namespace CurriedLisp

inductive Arity where
  | exactly (count : Nat)
  | atLeast (least : Nat)

namespace Arity

def Admits : Arity → Nat → Prop
  | exactly count, given => given = count
  | atLeast least, given => least ≤ given

def complaint : Arity → Nat → Complaint
  | exactly count, given => .exactly count given
  | atLeast least, _ => .atLeast least

def error : Arity → String → Nat → Error
  | exactly count, operation, given => .exactArguments operation count given
  | atLeast least, operation, _ => .fewArguments operation least

end Arity

inductive Kind where
  | any
  | number
  | pair

namespace Kind

def Admits : Kind → Value → Prop
  | any, _ => True
  | number, .int _ => True
  | pair, .pair _ _ => True
  | _, _ => False

def complaint : Kind → Value → Complaint
  | pair, v => .notPair v
  | _, v => .notNumber v

def error : Kind → String → String → Error
  | pair, operation, shown => .notPair operation shown
  | _, operation, shown => .notNumber operation shown

end Kind

namespace Primitive

variable {ρ : Type}

def arity : Primitive → Arity
  | mod | equalNumbers | less | greater | cons | equal => .exactly 2
  | head | tail | isNil | not => .exactly 1
  | sub => .atLeast 1
  | div => .atLeast 2
  | add | mul | list => .atLeast 0

def operands : Primitive → Kind
  | add | sub | mul | div | mod | equalNumbers | less | greater => .number
  | head | tail => .pair
  | cons | list | isNil | equal | not => .any

def divides : Primitive → Prop
  | div | mod => True
  | _ => False

inductive Answers : Primitive → List Value → Value → Prop where
  | add (ns : List Int) : Answers .add (ns.map .int) (.int ns.sum)
  | negate (n : Int) : Answers .sub [.int n] (.int (-n))
  | sub (n m : Int) (ns : List Int) : Answers .sub (.int n :: .int m :: ns.map .int) (.int (n - (m :: ns).sum))
  | mul (ns : List Int) : Answers .mul (ns.map .int) (.int ns.prod)
  | div (n d : Int) (ds : List Int) :
      Answers .div (.int n :: .int d :: ds.map .int) (.int (ds.foldl Int.tdiv (n.tdiv d)))
  | mod (n d : Int) : Answers .mod [.int n, .int d] (.int (n.tmod d))
  | equalNumbers (m n : Int) : Answers .equalNumbers [.int m, .int n] (.bool (decide (m = n)))
  | less (m n : Int) : Answers .less [.int m, .int n] (.bool (decide (m < n)))
  | greater (m n : Int) : Answers .greater [.int m, .int n] (.bool (decide (n < m)))
  | cons (a b : Value) : Answers .cons [a, b] (.pair a b)
  | head (a b : Value) : Answers .head [.pair a b] a
  | tail (a b : Value) : Answers .tail [.pair a b] b
  | list (vs : List Value) : Answers .list vs (.ofList vs)
  | isNil (v : Value) : Answers .isNil [v] (.bool (decide (v = .nil)))
  | equal (a b : Value) : Answers .equal [a, b] (.bool (decide (a.SameTree b)))
  | not (v : Value) : Answers .not [v] (.bool (decide (v = .bool false)))

def Exhausts : Primitive → List Value → Nat → Prop
  | equal, [a, b], depth => depth < a.reach b
  | _, _, _ => False

-- How a call ends, for arguments whose integers can be written. An operand of the wrong kind that nests deeper than
-- can be written exhausts the depth in place of the message that would show it.
inductive Ends (p : Primitive) (args : List Value) (depth : Nat) (w : World ρ) :
    EStateM.Result Failure (World ρ) Value → Prop where
  | miscounted : ¬ p.arity.Admits args.length →
      Ends p args depth w (.error (.error (p.arity.error p.key args.length)) w)
  | unfit {before after : List Value} {v : Value} : p.arity.Admits args.length → args = before ++ v :: after →
      (∀ u ∈ before, p.operands.Admits u) → ¬ p.operands.Admits v → v.nesting ≤ depth →
      Ends p args depth w (.error (.error (p.operands.error p.key v.text)) w)
  | tooDeep {before after : List Value} {v : Value} : p.arity.Admits args.length → args = before ++ v :: after →
      (∀ u ∈ before, p.operands.Admits u) → ¬ p.operands.Admits v → depth < v.nesting →
      Ends p args depth w (.error .tooDeep w)
  | zero : p.arity.Admits args.length → (∀ v ∈ args, p.operands.Admits v) → p.divides → .int 0 ∈ args.tail →
      Ends p args depth w (.error (.error (.divisionByZero p.key)) w)
  | exhausted : p.arity.Admits args.length → (∀ v ∈ args, p.operands.Admits v) → p.Exhausts args depth →
      Ends p args depth w (.error .tooDeep w)
  | value {v : Value} : p.arity.Admits args.length → (∀ v ∈ args, p.operands.Admits v) →
      (p.divides → .int 0 ∉ args.tail) → ¬ p.Exhausts args depth → p.Answers args v → Ends p args depth w (.ok v w)

theorem ints_of_fit {args : List Value} (fit : ∀ v ∈ args, Kind.number.Admits v) :
    ∃ ns : List Int, args = ns.map .int := by
  induction args with
  | nil => exact ⟨[], rfl⟩
  | cons arg rest ih =>
      obtain ⟨first, others⟩ := List.forall_mem_cons.mp fit
      obtain ⟨ns, rfl⟩ := ih others
      cases arg with
      | int n => exact ⟨n :: ns, rfl⟩
      | _ => exact first.elim

theorem number_unfit {v : Value} (unfit : ¬ Kind.number.Admits v) : number v = .error (.notNumber v) := by
  cases v with
  | int n => exact absurd trivial unfit
  | _ => rfl

theorem numbers_cons (v : Value) (rest : List Value) :
    numbers (v :: rest) = do return (← number v) :: (← numbers rest) := List.mapM_cons

theorem numbers_ints (ns : List Int) : numbers (ns.map .int) = .ok ns := by
  induction ns with
  | nil => rfl
  | cons n ns ih =>
      rw [List.map_cons, numbers_cons, ih]
      rfl

theorem numbers_stops (ns : List Int) {v : Value} (unfit : ¬ Kind.number.Admits v) (after : List Value) :
    numbers (ns.map .int ++ v :: after) = .error (.notNumber v) := by
  induction ns with
  | nil =>
      rw [List.map_nil, List.nil_append, numbers_cons, number_unfit unfit]
      rfl
  | cons n ns ih =>
      rw [List.map_cons, List.cons_append, numbers_cons, ih]
      rfl

-- What is no number is found whether the first operand is looked at with the others or before them.
theorem number_first {α : Type} {v : Value} {rest : List Value} {c : Complaint}
    (failed : numbers (v :: rest) = .error c) (f : Int → List Int → Except Complaint α) :
    (do f (← number v) (← numbers rest)) = .error c := by
  rw [numbers_cons] at failed
  cases first : number v with
  | error d =>
      rw [first] at failed
      cases failed
      rfl
  | ok n =>
      rw [first] at failed
      cases others : numbers rest with
      | error d =>
          rw [others] at failed
          cases failed
          rfl
      | ok ns =>
          rw [others] at failed
          cases failed

theorem foldQuotient_eq (n : Int) (ds : List Int) :
    ds.foldlM quotient n = if 0 ∈ ds then .error .divisionByZero else .ok (ds.foldl Int.tdiv n) := by
  induction ds generalizing n with
  | nil => rfl
  | cons d ds ih =>
      rw [List.foldlM_cons]
      by_cases zero : d = 0
      · simp [quotient, zero]
        rfl
      · have first : quotient n d = .ok (n.tdiv d) := by simp [quotient, zero]
        have member : 0 ∈ d :: ds ↔ 0 ∈ ds := by simp [Ne.symm zero]
        rw [first, if_congr member rfl rfl]
        exact ih (n.tdiv d)

theorem one_other {args : List Value} (other : args.length ≠ 1) : one args = .error (.exactly 1 args.length) := by
  rcases args with _ | ⟨a, _ | ⟨b, rest⟩⟩
  · rfl
  · exact absurd rfl other
  · rfl

theorem two_other {args : List Value} (other : args.length ≠ 2) : two args = .error (.exactly 2 args.length) := by
  rcases args with _ | ⟨a, _ | ⟨b, _ | ⟨c, rest⟩⟩⟩
  · rfl
  · rfl
  · exact absurd rfl other
  · rfl

theorem twoNumbers_other {args : List Value} (other : args.length ≠ 2) :
    twoNumbers args = .error (.exactly 2 args.length) := by
  rcases args with _ | ⟨a, _ | ⟨b, _ | ⟨c, rest⟩⟩⟩
  · rfl
  · rfl
  · exact absurd rfl other
  · rfl

theorem call_miscounted (p : Primitive) (depth : Nat) {args : List Value} (miscounted : ¬ p.arity.Admits args.length) :
    p.call depth args = .error (p.arity.complaint args.length) := by
  cases p with
  | add | mul | list => exact absurd (Nat.zero_le _) miscounted
  | sub =>
      cases args with
      | nil => rfl
      | cons a rest => exact absurd (Nat.le_add_left 1 _) miscounted
  | div =>
      rcases args with _ | ⟨a, _ | ⟨b, rest⟩⟩
      · rfl
      · rfl
      · exact absurd (Nat.le_add_left 2 _) miscounted
  | mod | equalNumbers | less | greater =>
      rw [call, twoNumbers_other miscounted]
      rfl
  | cons | equal =>
      rw [call, two_other miscounted]
      rfl
  | head | tail =>
      rw [call, onePair, one_other miscounted]
      rfl
  | isNil | not =>
      rw [call, one_other miscounted]
      rfl

theorem two_or_more {α : Type} {xs : List α} (enough : 2 ≤ xs.length) : ∃ a b rest, xs = a :: b :: rest := by
  rcases xs with _ | ⟨a, _ | ⟨b, rest⟩⟩
  · simp at enough
  · simp at enough
  · exact ⟨a, b, rest, rfl⟩

theorem twoNumbers_failed {a b : Value} {c : Complaint} (failed : numbers [a, b] = .error c) :
    twoNumbers [a, b] = .error c := by
  rw [numbers_cons, numbers_cons] at failed
  rw [twoNumbers]
  cases first : number a with
  | error d =>
      rw [first] at failed
      cases failed
      rfl
  | ok m =>
      cases second : number b with
      | error d =>
          rw [first, second] at failed
          cases failed
          rfl
      | ok n =>
          rw [first, second] at failed
          cases failed

theorem call_notNumbers (p : Primitive) (depth : Nat) (arithmetic : p.operands = .number) {args : List Value}
    (counted : p.arity.Admits args.length) {c : Complaint} (failed : numbers args = .error c) :
    p.call depth args = .error c := by
  cases p with
  | add | mul =>
      rw [call, failed]
      rfl
  | sub =>
      rcases args with _ | ⟨a, _ | ⟨b, rest⟩⟩
      · exact absurd counted (Nat.not_succ_le_zero 0)
      · exact number_first failed fun n _ => (.ok (.int (-n)) : Except Complaint Value)
      · exact number_first failed fun n ns => (.ok (.int (n - sum ns)) : Except Complaint Value)
  | div =>
      obtain ⟨a, b, rest, rfl⟩ := two_or_more counted
      exact number_first failed fun n ds => do return Value.int (← ds.foldlM quotient n)
  | mod | equalNumbers | less | greater =>
      obtain ⟨a, b, rfl⟩ := List.length_eq_two.mp counted
      rw [call, twoNumbers_failed failed]
      rfl
  | _ => cases arithmetic

theorem call_unfit (p : Primitive) (depth : Nat) {before after : List Value} {v : Value}
    (counted : p.arity.Admits (before ++ v :: after).length) (fit : ∀ u ∈ before, p.operands.Admits u)
    (unfit : ¬ p.operands.Admits v) : p.call depth (before ++ v :: after) = .error (p.operands.complaint v) := by
  cases p with
  | add | sub | mul | div | mod | equalNumbers | less | greater =>
      obtain ⟨ns, rfl⟩ := ints_of_fit fit
      exact call_notNumbers _ depth rfl counted (numbers_stops ns unfit after)
  | head | tail =>
      obtain ⟨u, single⟩ := List.length_eq_one_iff.mp counted
      obtain ⟨rfl, rfl⟩ : before = [] ∧ after = [] := by
        cases before with
        | nil => exact ⟨rfl, (List.cons.inj single).2⟩
        | cons a before => simp at single
      cases v with
      | pair first second => exact absurd trivial unfit
      | _ => rfl
  | cons | list | isNil | equal | not => exact absurd trivial unfit

theorem call_div (depth : Nat) (n d : Int) (ds : List Int) :
    div.call depth (.int n :: .int d :: ds.map .int) =
      if 0 ∈ d :: ds then .error .divisionByZero else .ok (.int ((d :: ds).foldl Int.tdiv n)) := by
  have divisors : numbers (.int d :: ds.map .int) = .ok (d :: ds) := numbers_ints (d :: ds)
  simp only [call, divisors]
  change (do return Value.int (← (d :: ds).foldlM quotient n)) = _
  rw [foldQuotient_eq]
  by_cases zero : 0 ∈ d :: ds
  · rw [if_pos zero, if_pos zero]
    rfl
  · rw [if_neg zero, if_neg zero]
    rfl

theorem call_mod (depth : Nat) (n d : Int) :
    mod.call depth [.int n, .int d] = if d = 0 then .error .divisionByZero else .ok (.int (n.tmod d)) := by
  change (do return Value.int (← remainder n d)) = _
  by_cases zero : d = 0
  · simp [remainder, quotient, zero]
  · simp [remainder, quotient, zero, Int.tmod_def]

theorem call_zero (p : Primitive) (depth : Nat) {args : List Value} (counted : p.arity.Admits args.length)
    (fit : ∀ v ∈ args, p.operands.Admits v) (divides : p.divides) (zero : .int 0 ∈ args.tail) :
    p.call depth args = .error .divisionByZero := by
  cases p with
  | div =>
      obtain ⟨ns, rfl⟩ := ints_of_fit fit
      rw [List.length_map] at counted
      obtain ⟨n, d, ds, rfl⟩ := two_or_more counted
      exact (call_div depth n d ds).trans (if_pos (by simpa using zero))
  | mod =>
      obtain ⟨ns, rfl⟩ := ints_of_fit fit
      rw [List.length_map] at counted
      obtain ⟨n, d, rfl⟩ := List.length_eq_two.mp counted
      exact (call_mod depth n d).trans (if_pos (by simpa [eq_comm] using zero))
  | _ => exact divides.elim

theorem sum_eq (ns : List Int) : sum ns = ns.sum := List.sum_eq_foldl.symm

theorem product_eq (ns : List Int) : product ns = ns.prod := List.prod_eq_foldl.symm

theorem call_exhausted {p : Primitive} {args : List Value} {depth : Nat} (exhausts : p.Exhausts args depth) :
    p.call depth args = .error .tooDeep := by
  unfold Exhausts at exhausts
  split at exhausts
  · rw [call_equal, compare_reach, if_neg (Nat.not_le_of_lt exhausts)]
    rfl
  · exact exhausts.elim

theorem Answers.call {p : Primitive} {args : List Value} {v : Value} (answers : p.Answers args v)
    (nonzero : p.divides → .int 0 ∉ args.tail) {depth : Nat} (fits : ¬ p.Exhausts args depth) :
    p.call depth args = .ok v := by
  cases answers with
  | add ns =>
      rw [Primitive.call, numbers_ints, ← sum_eq]
      rfl
  | sub n m ns =>
      have others : numbers (.int m :: ns.map .int) = .ok (m :: ns) := numbers_ints (m :: ns)
      change (do return Value.int (n - sum (← numbers (.int m :: ns.map .int)))) = _
      rw [others, ← sum_eq]
      rfl
  | mul ns =>
      rw [Primitive.call, numbers_ints, ← product_eq]
      rfl
  | div n d ds => exact (call_div depth n d ds).trans (if_neg (by simpa using nonzero trivial))
  | mod n d => exact (call_mod depth n d).trans (if_neg (by simpa [eq_comm] using nonzero trivial))
  | equal a b => rw [call_equal, compare_reach, if_pos (Nat.le_of_not_lt fits)]; rfl
  | not v =>
      have truth : (!v.isTrue) = decide (v = .bool false) := by
        cases v with
        | bool b => cases b <;> rfl
        | _ => rfl
      rw [← truth]
      rfl
  | _ => rfl

end Primitive

theorem Value.obstacle_nesting {v : Value} (clear : v.Clear) (depth : Nat) :
    v.obstacle? depth = if v.nesting ≤ depth then none else some .tooDeep := by
  induction v generalizing depth with
  | int n =>
      have writable : Text.isWritable n = true := by simpa [Clear, overlong] using clear
      simp [obstacle?, writable, nesting]
  | pair first second ihFirst ihSecond =>
      obtain ⟨left, right⟩ := clear_pair clear
      cases depth with
      | zero => simp [obstacle?, nesting]
      | succ depth =>
          rw [obstacle_pair, ihFirst left, ihSecond right]
          by_cases shallow : first.nesting ≤ depth <;> simp [nesting, shallow]
  | closure id formals body scope ih =>
      cases depth with
      | zero => simp [obstacle?, nesting]
      | succ depth => simpa [nesting, obstacle?] using ih clear depth
  | _ => rfl

namespace Machine

variable {ρ : Type}

theorem text_nesting (m : Machine ρ) {v : Value} (clear : v.Clear) (w : World ρ) :
    m.text v w = if v.nesting ≤ m.depth then .ok v.text w else .error .tooDeep w := by
  rw [Machine.text, Value.render, Value.obstacle_nesting clear]
  by_cases shallow : v.nesting ≤ m.depth
  · rw [if_pos shallow, if_pos shallow]
    rfl
  · rw [if_neg shallow, if_neg shallow]
    rfl

theorem complain_miscounted (m : Machine ρ) (key : String) (arity : Arity) (given : Nat) (w : World ρ) :
    m.complain key (arity.complaint given) w = .error (.error (arity.error key given)) w := by
  cases arity <;> rfl

theorem complain_unfit (m : Machine ρ) (key : String) (k : Kind) {v : Value} (clear : v.Clear) (w : World ρ) :
    m.complain key (k.complaint v) w =
      if v.nesting ≤ m.depth then .error (.error (k.error key v.text)) w else .error .tooDeep w := by
  have shown := m.text_nesting clear w
  by_cases shallow : v.nesting ≤ m.depth
  · rw [if_pos shallow] at shown ⊢
    cases k <;> simp [complain, Kind.complaint, Kind.error, bind, EStateM.bind, shown] <;> rfl
  · rw [if_neg shallow] at shown ⊢
    cases k <;> simp [complain, Kind.complaint, bind, EStateM.bind, shown]

end Machine

namespace Primitive

variable {ρ : Type} {p : Primitive} {args : List Value} {w : World ρ}

theorem Ends.call {m : Machine ρ} (clear : ∀ v ∈ args, v.Clear) {r : EStateM.Result Failure (World ρ) Value}
    (ends : p.Ends args m.depth w r) : m.callBuiltin p.key args w = r := by
  rw [m.callBuiltin_key]
  cases ends with
  | miscounted wrong =>
      rw [p.call_miscounted m.depth wrong]
      exact m.complain_miscounted p.key p.arity args.length w
  | unfit counted split fit unfit shallow =>
      subst split
      rw [p.call_unfit m.depth counted fit unfit]
      exact (m.complain_unfit p.key p.operands (clear _ (by simp)) w).trans (if_pos shallow)
  | tooDeep counted split fit unfit deep =>
      subst split
      rw [p.call_unfit m.depth counted fit unfit]
      exact (m.complain_unfit p.key p.operands (clear _ (by simp)) w).trans (if_neg (Nat.not_le_of_gt deep))
  | zero counted fit divides zero =>
      rw [p.call_zero m.depth counted fit divides zero]
      rfl
  | exhausted _ _ exhausts =>
      rw [call_exhausted exhausts]
      rfl
  | value _ _ nonzero fits answers =>
      rw [answers.call nonzero fits]
      rfl

end Primitive

end CurriedLisp
