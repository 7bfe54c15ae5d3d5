import CurriedLisp.Proofs.Eval.Checks
import Mathlib.Algebra.Order.Ring.Int
import Mathlib.Algebra.BigOperators.Group.List.Basic
import Mathlib.Algebra.BigOperators.Ring.List

set_option autoImplicit false

namespace CurriedLisp

theorem tdiv_tdiv (n d e : Int) : (n.tdiv d).tdiv e = n.tdiv (d * e) := by
  obtain ⟨a, rfl | rfl⟩ := n.eq_nat_or_neg <;> obtain ⟨b, rfl | rfl⟩ := d.eq_nat_or_neg <;>
    obtain ⟨c, rfl | rfl⟩ := e.eq_nat_or_neg <;>
    simp only [Int.neg_tdiv, Int.tdiv_neg, neg_mul, mul_neg, neg_neg, ← Int.ofNat_tdiv, ← Int.natCast_mul,
      Nat.div_div_eq_div_mul]

theorem foldl_tdiv (n : Int) (ds : List Int) : ds.foldl Int.tdiv n = n.tdiv ds.prod := by
  induction ds generalizing n with
  | nil => simp
  | cons d ds ih => rw [List.foldl_cons, ih, tdiv_tdiv, List.prod_cons]

theorem tdiv_nonneg {n : Int} (nonneg : 0 ≤ n) (d : Int) : n.tdiv d = if d < 0 then -(n / |d|) else n / |d| := by
  rw [Int.tdiv_eq_ediv_of_nonneg nonneg]
  by_cases negative : d < 0
  · rw [if_pos negative, abs_of_neg negative, Int.ediv_neg, neg_neg]
  · rw [if_neg negative, abs_of_nonneg (not_lt.mp negative)]

-- The quotient of the absolute values, with a minus sign where the signs differ. Zero counts as positive.
theorem tdiv_signs (n d : Int) : n.tdiv d = if (n < 0 ↔ d < 0) then |n| / |d| else -(|n| / |d|) := by
  by_cases negative : n < 0
  · rw [← neg_neg (n.tdiv d), ← Int.neg_tdiv, tdiv_nonneg (neg_nonneg.mpr negative.le), abs_of_neg negative]
    by_cases below : d < 0 <;> simp [negative, below]
  · rw [tdiv_nonneg (not_lt.mp negative), abs_of_nonneg (not_lt.mp negative)]
    by_cases below : d < 0 <;> simp [negative, below]

theorem tmod_sign (n d : Int) : n.tmod d = 0 ∨ (n.tmod d).sign = n.sign := by
  by_cases divides : d ∣ n
  · exact .inl (Int.tmod_eq_zero_of_dvd divides)
  · exact .inr ((Int.sign_tmod n d).trans (if_neg divides))

theorem tmod_less (n : Int) {d : Int} (nonzero : d ≠ 0) : |n.tmod d| < |d| := by
  rw [Int.abs_eq_natAbs, Int.abs_eq_natAbs, Int.natAbs_tmod]
  exact_mod_cast Nat.mod_lt _ (Int.natAbs_pos.mpr nonzero)

theorem mul_tdiv_le (n d : Int) : |d * n.tdiv d| ≤ |n| := by
  rw [Int.abs_eq_natAbs, Int.abs_eq_natAbs, Int.natAbs_mul, Int.natAbs_tdiv]
  exact_mod_cast Nat.mul_div_le _ _

namespace Machine

variable {ρ : Type}

theorem callBuiltin_div (m : Machine ρ) (n d : Int) (ds : List Int) (w : World ρ) :
    m.callBuiltin "/" (.int n :: .int d :: ds.map .int) w =
      if 0 ∈ d :: ds then .error (.error (.divisionByZero "/")) w else .ok (.int (n.tdiv (d :: ds).prod)) w := by
  refine (congrFun (m.callBuiltin_key .div _) w).trans ?_
  rw [Primitive.call_div, foldl_tdiv]
  by_cases zero : 0 ∈ d :: ds
  · rw [if_pos zero, if_pos zero]
    rfl
  · rw [if_neg zero, if_neg zero]
    rfl

theorem callBuiltin_quotient (m : Machine ρ) (n : Int) {d : Int} (nonzero : d ≠ 0) (w : World ρ) :
    m.callBuiltin "/" [.int n, .int d] w = .ok (.int (n.tdiv d)) w := by
  have divided := m.callBuiltin_div n d [] w
  rwa [if_neg (by simpa using nonzero.symm), List.prod_singleton] at divided

theorem callBuiltin_remainder (m : Machine ρ) (n : Int) {d : Int} (nonzero : d ≠ 0) (w : World ρ) :
    m.callBuiltin "mod" [.int n, .int d] w = .ok (.int (n.tmod d)) w := by
  refine (congrFun (m.callBuiltin_key .mod _) w).trans ?_
  rw [Primitive.call_mod, if_neg nonzero]
  rfl

theorem callBuiltin_product (m : Machine ρ) (ns : List Int) (w : World ρ) :
    m.callBuiltin "*" (ns.map .int) w = .ok (.int ns.prod) w := by
  refine (congrFun (m.callBuiltin_key .mul _) w).trans ?_
  rw [(Primitive.Answers.mul ns).call (fun never => never.elim) id]
  rfl

theorem callBuiltin_divisors (m : Machine ρ) (n : Int) {ds : List Int} (given : ds ≠ []) (nonzero : 0 ∉ ds)
    (w : World ρ) : m.callBuiltin "/" (.int n :: ds.map .int) w = .ok (.int (n.tdiv ds.prod)) w := by
  obtain ⟨d, ds, rfl⟩ := List.exists_cons_of_ne_nil given
  exact (m.callBuiltin_div n d ds w).trans (if_neg nonzero)

/-- Division is cut off toward zero: the quotient is that of the absolute values, with a minus sign where the signs
differ, and the remainder is less than the divisor and has the sign of the dividend. To divide by several numbers is to
divide by their product, in whatever order they stand; it fails where one of them is zero, and nowhere else. -/
theorem division_truncates (m : Machine ρ) (w : World ρ) :
    (∀ n d : Int, d ≠ 0 → ∃ q r : Int,
      (m.callBuiltin "/" [.int n, .int d] w = .ok (.int q) w ∧
        m.callBuiltin "mod" [.int n, .int d] w = .ok (.int r) w) ∧
      (n = d * q + r ∧ |r| < |d| ∧ (r = 0 ∨ r.sign = n.sign) ∧ |d * q| ≤ |n|) ∧
      q = (if (n < 0 ↔ d < 0) then |n| / |d| else -(|n| / |d|)) ∧
      (m.callBuiltin "/" [.int (-n), .int d] w = .ok (.int (-q)) w ∧
        m.callBuiltin "mod" [.int (-n), .int d] w = .ok (.int (-r)) w) ∧
      (m.callBuiltin "/" [.int n, .int (-d)] w = .ok (.int (-q)) w ∧
        m.callBuiltin "mod" [.int n, .int (-d)] w = .ok (.int r) w)) ∧
    (∀ (n : Int) (ds : List Int), ds ≠ [] → 0 ∉ ds → ∃ q product : Int,
      m.callBuiltin "*" (ds.map .int) w = .ok (.int product) w ∧
      m.callBuiltin "/" (.int n :: ds.map .int) w = .ok (.int q) w ∧
      m.callBuiltin "/" [.int n, .int product] w = .ok (.int q) w ∧
      ∀ ds' : List Int, ds'.Perm ds → m.callBuiltin "/" (.int n :: ds'.map .int) w = .ok (.int q) w) ∧
    (∀ (n d : Int) (ds : List Int),
      ((∃ e u, m.callBuiltin "/" (.int n :: .int d :: ds.map .int) w = .error (.error e) u ∧ e.category = .arithmetic) ↔
        0 ∈ d :: ds) ∧
      (0 ∉ d :: ds → ∃ q, m.callBuiltin "/" (.int n :: .int d :: ds.map .int) w = .ok (.int q) w)) := by
  refine ⟨fun n d nonzero => ⟨n.tdiv d, n.tmod d, ?_⟩, fun n ds given nonzero => ⟨n.tdiv ds.prod, ds.prod, ?_⟩,
    fun n d ds => ⟨⟨?_, fun zero => ?_⟩, fun nonzero => ?_⟩⟩
  · have opposite : -d ≠ 0 := neg_ne_zero.mpr nonzero
    refine ⟨⟨m.callBuiltin_quotient n nonzero w, m.callBuiltin_remainder n nonzero w⟩,
      ⟨(Int.mul_tdiv_add_tmod n d).symm, tmod_less n nonzero, tmod_sign n d, mul_tdiv_le n d⟩, tdiv_signs n d,
      ⟨?_, ?_⟩, ?_, ?_⟩
    · rw [m.callBuiltin_quotient (-n) nonzero, Int.neg_tdiv]
    · rw [m.callBuiltin_remainder (-n) nonzero, Int.neg_tmod]
    · rw [m.callBuiltin_quotient n opposite, Int.tdiv_neg]
    · rw [m.callBuiltin_remainder n opposite, Int.tmod_neg]
  · have product : ds.prod ≠ 0 := List.prod_ne_zero nonzero
    refine ⟨m.callBuiltin_product ds w, m.callBuiltin_divisors n given nonzero w,
      m.callBuiltin_quotient n product w, ?_⟩
    intro ds' permuted
    have others : ds' ≠ [] := fun empty => given (List.nil_perm.mp (empty ▸ permuted))
    rw [m.callBuiltin_divisors n others (permuted.mem_iff.not.mpr nonzero), permuted.prod_eq]
  · rintro ⟨e, u, failed, -⟩
    by_contra nonzero
    rw [callBuiltin_div, if_neg nonzero] at failed
    cases failed
  · exact ⟨.divisionByZero "/", w, (m.callBuiltin_div n d ds w).trans (if_pos zero), rfl⟩
  · exact ⟨_, (m.callBuiltin_div n d ds w).trans (if_neg nonzero)⟩

theorem division_truncates_mixed :
    let m := Machine.ofDepth (.program false) Settings.defaultRecursionLimit
    let w : World String := World.start
    (∃ q r : Int, m.callBuiltin "/" [.int (-7), .int 2] w = .ok (.int q) w ∧
      m.callBuiltin "mod" [.int (-7), .int 2] w = .ok (.int r) w ∧ -7 = 2 * q + r ∧ q = -3) ∧
    (∃ q, m.callBuiltin "/" ((-7 :: [2, -3]).map .int) w = .ok (.int q) w ∧
      m.callBuiltin "/" ((-7 :: [-3, 2]).map .int) w = .ok (.int q) w) ∧
    ∃ e u, m.callBuiltin "/" ((-7 :: [2, 0, -3]).map .int) w = .error (.error e) u ∧ e.category = .arithmetic := by
  intro m w
  obtain ⟨single, many, zero⟩ := m.division_truncates w
  obtain ⟨q, r, ⟨quotient, remainder⟩, ⟨sum, -⟩, signs, -⟩ := single (-7) 2 (by decide)
  obtain ⟨q', product, -, divided, -, permuted⟩ := many (-7) [2, -3] (by decide) (by decide)
  refine ⟨⟨q, r, quotient, remainder, sum, signs⟩, ⟨q', divided, ?_⟩, ?_⟩
  · exact permuted [-3, 2] (List.Perm.swap 2 (-3) [])
  · exact (zero (-7) 2 [0, -3]).1.mpr (by decide)

end Machine

end CurriedLisp
