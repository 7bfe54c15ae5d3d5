import CurriedLisp.Text.Numeral
import Mathlib.Data.List.Induction
import Mathlib.Tactic.IntervalCases

set_option autoImplicit false

namespace CurriedLisp.Text

namespace Numeral

theorem natValue_snoc (digits : List Nat) (d : Nat) : natValue (digits ++ [d]) = 10 * natValue digits + d := by
  simp [natValue, List.foldl_append]

theorem natValue_lt (digits : List Nat) (small : ∀ d ∈ digits, d < 10) : natValue digits < 10 ^ digits.length := by
  induction digits using List.reverseRecOn with
  | nil => simp [natValue]
  | append_singleton digits d ih =>
      have before := ih fun e member => small e (List.mem_append_left _ member)
      have last := small d (by simp)
      rw [natValue_snoc, List.length_append, List.length_singleton, Nat.pow_succ]
      omega

end Numeral

theorem digit_digitChar {d : Nat} (small : d < 10) : digit? (Nat.digitChar d) = some d := by
  revert d
  decide

theorem digits_small {cs : List Char} {digits : List Nat} (read : cs.mapM digit? = some digits) :
    ∀ d ∈ digits, d < 10 := by
  induction cs generalizing digits with
  | nil =>
      cases read
      simp
  | cons c cs ih =>
      rw [List.mapM_cons] at read
      cases first : digit? c with
      | none => simp [first] at read
      | some d =>
          cases others : cs.mapM digit? with
          | none => simp [first, others] at read
          | some ds =>
              simp only [first, others, Option.bind_eq_bind, Option.bind_some, Option.pure_def,
                Option.some.injEq] at read
              subst read
              intro e member
              rcases List.mem_cons.mp member with rfl | inside
              · exact digit_lt_ten first
              · exact ih others e inside

theorem toDigits_read (n : Nat) : ∃ digits, (Nat.toDigits 10 n).mapM digit? = some digits ∧
    Numeral.natValue digits = n ∧ digits.length = (Nat.toDigits 10 n).length := by
  induction n using Nat.strongRecOn with
  | ind n ih =>
      by_cases small : n < 10
      · refine ⟨[n], ?_, by simp [Numeral.natValue], by simp [Nat.toDigits_of_lt_base small]⟩
        rw [Nat.toDigits_of_lt_base small, List.mapM_cons, digit_digitChar small]
        rfl
      · obtain ⟨digits, read, value, lengths⟩ := ih (n / 10) (by omega)
        rw [Nat.toDigits_of_base_le (by omega) (by omega)]
        refine ⟨digits ++ [n % 10], ?_, ?_, by simp [lengths]⟩
        · rw [List.mapM_append, read, List.mapM_cons, digit_digitChar (Nat.mod_lt n (by omega))]
          rfl
        · rw [Numeral.natValue_snoc, value]
          omega

theorem toDigits_digit {n : Nat} {c : Char} (member : c ∈ Nat.toDigits 10 n) : ∃ d, d < 10 ∧ c = Nat.digitChar d := by
  induction n using Nat.strongRecOn with
  | ind n ih =>
      by_cases small : n < 10
      · rw [Nat.toDigits_of_lt_base small] at member
        exact ⟨n, small, List.mem_singleton.mp member⟩
      · rw [Nat.toDigits_of_base_le (by omega) (by omega)] at member
        rcases List.mem_append.mp member with early | last
        · exact ih (n / 10) (by omega) early
        · exact ⟨n % 10, Nat.mod_lt n (by omega), List.mem_singleton.mp last⟩

theorem splitSign_toDigits (n : Nat) : Numeral.splitSign (Nat.toDigits 10 n) = (false, Nat.toDigits 10 n) := by
  cases shape : Nat.toDigits 10 n with
  | nil => rfl
  | cons c cs =>
      obtain ⟨d, small, rfl⟩ := toDigits_digit (shape ▸ List.mem_cons_self : c ∈ Nat.toDigits 10 n)
      interval_cases d <;> rfl

theorem isWritable_iff (n : Int) : isWritable n = true ↔ n.natAbs < 10 ^ digitLimit := by
  rw [isWritable, decide_eq_true_iff, Nat.pow_eq]

theorem writeInt_chars (n : Int) :
    (writeInt n).toList = (if n < 0 then ['-'] else []) ++ Nat.toDigits 10 n.natAbs := by
  cases n with
  | ofNat n => simp [writeInt, Nat.toList_repr]
  | negSucc n => simp [writeInt, Nat.toList_repr, Int.negSucc_lt_zero]

theorem ofChars_small {cs : List Char} {m : Numeral} (read : Numeral.ofChars? cs = some m) :
    ∀ d ∈ m.digits, d < 10 := by
  unfold Numeral.ofChars? at read
  generalize Numeral.splitSign cs = parts at read
  obtain ⟨negative, body⟩ := parts
  cases digits : body.mapM digit? with
  | none => simp [digits] at read
  | some ds =>
      simp only [digits] at read
      cases ds with
      | nil => cases read
      | cons d ds =>
          cases read
          exact digits_small digits

theorem ofChars_writeInt (n : Int) : ∃ m, Numeral.ofChars? (writeInt n).toList = some m ∧ m.value = n ∧
    m.digits.length = (Nat.toDigits 10 n.natAbs).length := by
  obtain ⟨digits, read, value, lengths⟩ := toDigits_read n.natAbs
  have some_ : digits ≠ [] :=
    fun none => Nat.toDigits_ne_nil (List.eq_nil_of_length_eq_zero (by rw [← lengths, none]; rfl))
  have sign : Numeral.splitSign (writeInt n).toList = (decide (n < 0), Nat.toDigits 10 n.natAbs) := by
    rw [writeInt_chars]
    by_cases negative : n < 0
    · simp [negative, Numeral.splitSign]
    · simp [negative, splitSign_toDigits]
  refine ⟨⟨decide (n < 0), digits⟩, ?_, ?_, lengths⟩
  · rw [Numeral.ofChars?, sign]
    simp only [read]
  · simp only [Numeral.value, value]
    by_cases negative : n < 0
    · simp only [negative, decide_true, if_true]
      omega
    · simp only [negative, decide_false, Bool.false_eq_true, if_false]
      omega

end CurriedLisp.Text
