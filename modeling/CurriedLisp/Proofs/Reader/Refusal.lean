import CurriedLisp.Proofs.Reader.Parsing

set_option autoImplicit false

namespace CurriedLisp.Reader

def Token.opens : Token → Bool
  | .opening | .quote => true
  | _ => false

-- Why tokens are refused where `room` more lists and quotes may be open at a time.
inductive Refused (room : Nat) (tokens : List Token) : Failure → Prop where
  | syntactic {e : Error} : e.category = .reading → Refused room tokens (.error e)
  | tooDeep : room < tokens.countP Token.opens → Refused room tokens .tooDeep
  | numeral {word : String} {m : Text.Numeral} : .word word ∈ tokens → Text.Numeral.ofChars? word.toList = some m →
      Text.digitLimit < m.digits.length → Refused room tokens (.numeral (.tooLongToRead m.digits.length))

theorem Refused.later {room left : Nat} {token : Token} {rest : List Token} {f : Failure} (refused : Refused left rest f)
    (enough : room ≤ left + if token.opens then 1 else 0) : Refused room (token :: rest) f := by
  cases refused with
  | syntactic reading => exact .syntactic reading
  | tooDeep many =>
      refine .tooDeep ?_
      rw [List.countP_cons]
      omega
  | numeral member digits long => exact .numeral (List.mem_cons_of_mem _ member) digits long

theorem atom_failure {word : String} {e : Text.NumeralError} (failed : atom word = .error e) :
    ∃ m, Text.Numeral.ofChars? word.toList = some m ∧ Text.digitLimit < m.digits.length ∧
      e = .tooLongToRead m.digits.length := by
  unfold atom at failed
  cases found : literal? word with
  | some v =>
      rw [found] at failed
      cases failed
  | none =>
      rw [found] at failed
      cases numeral : Text.Numeral.ofChars? word.toList with
      | none =>
          rw [numeral] at failed
          cases failed
      | some m =>
          simp only [numeral, Text.Numeral.read] at failed
          by_cases short : m.digits.length ≤ Text.digitLimit
          · rw [if_pos short] at failed
            cases failed
          · rw [if_neg short] at failed
            cases failed
            exact ⟨m, rfl, Nat.lt_of_not_le short, rfl⟩

theorem feed_word (depth : Nat) (frames : List Frame) (word : String) :
    (∃ v, feed depth frames (.word word) = .ok (plug v frames)) ∨
      ∃ e, atom word = .error e ∧ feed depth frames (.word word) = .error (.numeral e) := by
  simp only [feed]
  cases atom word with
  | ok v => exact .inl ⟨v, rfl⟩
  | error e => exact .inr ⟨e, rfl, rfl⟩

theorem feed_refused {depth : Nat} {frames : List Frame} {token : Token} {rest : List Token} {f : Failure}
    (failed : feed depth frames token = .error f) : Refused (depth - frames.length) (token :: rest) f := by
  have pushed {frame : Frame} (opens : token.opens = true) (failed : push depth frame frames = .error f) :
      Refused (depth - frames.length) (token :: rest) f := by
    unfold push at failed
    by_cases fits : frames.length < depth
    · rw [if_pos fits] at failed
      cases failed
    · rw [if_neg fits] at failed
      cases failed
      refine .tooDeep ?_
      rw [List.countP_cons, if_pos opens]
      omega
  cases token with
  | word text =>
      obtain ⟨v, fed⟩ | ⟨e, read, fed⟩ := feed_word depth frames text
      · cases fed.symm.trans failed
      · cases fed.symm.trans failed
        obtain ⟨m, digits, long, rfl⟩ := atom_failure read
        exact .numeral List.mem_cons_self digits long
  | opening => exact pushed rfl failed
  | quote => exact pushed rfl failed
  | closing => rcases frames with _ | ⟨items | _, frames⟩ <;> cases failed <;> exact .syntactic rfl

theorem plug_length {form : Value} {frames frames' : List Frame} (partway : plug form frames = .partway frames') :
    frames'.length ≤ frames.length := by
  induction frames generalizing form with
  | nil => cases partway
  | cons frame frames ih =>
      cases frame with
      | list items =>
          cases partway
          exact Nat.le_refl _
      | quote => exact Nat.le_succ_of_le (ih partway)

theorem feed_length {depth : Nat} {frames frames' : List Frame} {token : Token}
    (fed : feed depth frames token = .ok (.partway frames')) :
    frames'.length ≤ frames.length + if token.opens then 1 else 0 := by
  have pushed {frame : Frame} (fed : push depth frame frames = .ok (.partway frames')) :
      frames'.length ≤ frames.length + 1 := by
    unfold push at fed
    split at fed <;> cases fed
    exact Nat.le_refl _
  cases token with
  | word text =>
      obtain ⟨v, read⟩ | ⟨e, _, read⟩ := feed_word depth frames text
      · exact plug_length (Except.ok.inj (read.symm.trans fed))
      · cases read.symm.trans fed
  | opening => exact pushed fed
  | quote => exact pushed fed
  | closing =>
      rcases frames with _ | ⟨items | _, frames⟩
      · cases fed
      · exact Nat.le_succ_of_le (plug_length (Except.ok.inj fed))
      · cases fed

theorem readAllFrom_refused {depth : Nat} {done : List Value} {frames : List Frame} {tokens : List Token} {f : Failure}
    (failed : (readAllFrom depth none done frames tokens).failure = some f) :
    Refused (depth - frames.length) tokens f := by
  induction tokens generalizing done frames with
  | nil =>
      unfold readAllFrom at failed
      rcases frames with _ | ⟨_ | _, frames⟩ <;> cases failed <;> exact .syntactic rfl
  | cons token rest ih =>
      rw [readAllFrom_cons] at failed
      cases fed : feed depth frames token with
      | error e =>
          rw [fed] at failed
          cases failed
          exact feed_refused fed
      | ok progress =>
          rw [fed] at failed
          cases progress with
          | complete form => exact (ih failed).later (Nat.le_add_right_of_le (Nat.sub_le _ _))
          | partway frames' =>
              have opened := feed_length fed
              exact (ih failed).later (by omega)

theorem parse_refused {depth : Nat} {text : String} {f : Failure} (failed : parse depth text = .error f) :
    Refused depth (tokensIn text).tokens f := by
  have complete : readAll depth text.toList = readAllFrom depth none [] [] (tokensIn text).tokens := by
    rw [readAll, Stream.forms, tokensIn, tokenize_uncommented]
  unfold parse at failed
  rw [complete] at failed
  split at failed
  · cases failed
  · rename_i reading
    cases failed
    exact readAllFrom_refused (congrArg Reading.failure reading)

theorem parse_fits {depth : Nat} {text : String} (enough : (tokensIn text).tokens.countP Token.opens ≤ depth) :
    parse depth text ≠ .error .tooDeep := by
  intro deep
  cases parse_refused deep with
  | tooDeep many => omega

theorem tokensIn_openings (n : Nat) :
    tokensIn (String.ofList (List.replicate n '(')) = ⟨List.replicate n .opening, none⟩ := by
  have tokens : cut [] (List.replicate n '(') = List.replicate n .opening := by
    induction n with
    | zero => rfl
    | succ n ih => exact congrArg (Token.opening :: ·) ih
  have free : ';' ∉ List.replicate n '(' := by simp
  rw [tokensIn, String.toList_ofList, tokenize_uncommented, removeComments_same free, tokens]

theorem parse_openings (depth : Nat) : parse depth (String.ofList (List.replicate (depth + 1) '(')) = .error .tooDeep := by
  have reads (n : Nat) (frames : List Frame) (fits : frames.length ≤ depth) (many : depth < n + frames.length) :
      (readAllFrom depth none [] frames (List.replicate n .opening)).failure = some .tooDeep := by
    induction n generalizing frames with
    | zero => omega
    | succ n ih =>
        rw [List.replicate_succ, readAllFrom_cons, feed, push]
        by_cases another : frames.length < depth
        · rw [if_pos another]
          exact ih (.list [] :: frames) another (by simp; omega)
        · rw [if_neg another]
          rfl
  have failed : ((tokensIn (String.ofList (List.replicate (depth + 1) '('))).forms depth).failure = some .tooDeep := by
    rw [tokensIn_openings]
    exact reads (depth + 1) [] (Nat.zero_le depth) (Nat.lt_succ_self depth)
  change (readAll depth (String.ofList (List.replicate (depth + 1) '(')).toList).failure = some .tooDeep at failed
  unfold parse
  generalize readAll depth (String.ofList (List.replicate (depth + 1) '(')).toList = reading at failed ⊢
  obtain ⟨forms, failure⟩ := reading
  cases failed
  rfl

theorem openings_fit {n depth : Nat} (enough : n ≤ depth) :
    parse depth (String.ofList (List.replicate n '(')) ≠ .error .tooDeep := by
  have opened : (List.replicate n Token.opening).countP Token.opens = n := List.countP_replicate.trans (if_pos rfl)
  refine parse_fits ?_
  rw [tokensIn_openings]
  exact Nat.le_trans (Nat.le_of_eq opened) enough

end CurriedLisp.Reader
