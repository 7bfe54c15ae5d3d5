import CurriedLisp.Proofs.Reader.Layout

set_option autoImplicit false

namespace CurriedLisp.Reader

def Blanks (gap : List Char) : Prop := ∀ c ∈ gap, Text.isBlank c = true

theorem blanks_nil : Blanks [] := fun _ never => absurd never List.not_mem_nil

def Token.chars : Token → List Char
  | .opening => ['(']
  | .closing => [')']
  | .quote => ['\'']
  | .word text => text.toList

def Token.Proper : Token → Prop
  | .word text => IsWord text
  | _ => True

def wordsMeet : Token → List Token → Bool
  | .word _, .word _ :: _ => true
  | _, _ => false

inductive Spaced : List Token → List Char → Prop where
  | nil : Spaced [] []
  | cons {token : Token} {tokens : List Token} {gap text : List Char} : token.Proper → Blanks gap →
      (wordsMeet token tokens → gap ≠ []) → Spaced tokens text → Spaced (token :: tokens) (token.chars ++ gap ++ text)

-- The text consists of the tokens and of gaps before, between and after them.
def Laid (tokens : List Token) (text : List Char) : Prop :=
  ∃ gap body, text = gap ++ body ∧ Blanks gap ∧ Spaced tokens body

-- Where the last of the tokens ends in the text.
inductive LastEnd : List Token → List Char → Nat → Prop where
  | none {gap : List Char} : Blanks gap → LastEnd [] gap 0
  | last {tokens : List Token} {token : Token} {text gap : List Char} : Blanks gap →
      LastEnd (tokens ++ [token]) (text ++ token.chars ++ gap) (text ++ token.chars).length

theorem blank_unmarked {c : Char} (blank : Text.isBlank c = true) : Scan.mark? c = none := by
  have apart (d : Char) (solid : Text.isBlank d = false) : c ≠ d := by
    rintro rfl
    rw [blank] at solid
    cases solid
  simp [Scan.mark?, apart '(' (by decide), apart ')' (by decide), apart '\'' (by decide)]

theorem blank_other {c : Char} (blank : Text.isBlank c = true) : c ≠ ';' := by
  rintro rfl
  exact absurd blank (by decide)

theorem token_cases (token : Token) :
    (∃ word, token = .word word) ∨ ∃ c, token.chars = [c] ∧ Scan.mark? c = some token ∧ c ≠ ';' := by
  cases token with
  | opening => exact .inr ⟨'(', rfl, rfl, by decide⟩
  | closing => exact .inr ⟨')', rfl, rfl, by decide⟩
  | quote => exact .inr ⟨'\'', rfl, rfl, by decide⟩
  | word text => exact .inl ⟨text, rfl⟩

theorem mark_chars {c : Char} {token : Token} (marked : Scan.mark? c = some token) :
    token.chars = [c] ∧ token.Proper ∧ ∀ word, token ≠ .word word := by
  by_cases opening : c = '('
  · subst opening
    obtain rfl : Token.opening = token := Option.some.inj marked
    exact ⟨rfl, trivial, fun _ => Token.noConfusion⟩
  · by_cases closing : c = ')'
    · subst closing
      obtain rfl : Token.closing = token := Option.some.inj marked
      exact ⟨rfl, trivial, fun _ => Token.noConfusion⟩
    · by_cases quote : c = '\''
      · subst quote
        obtain rfl : Token.quote = token := Option.some.inj marked
        exact ⟨rfl, trivial, fun _ => Token.noConfusion⟩
      · simp [Scan.mark?, opening, closing, quote] at marked

theorem words_of_meet {token : Token} {tokens : List Token} (meet : wordsMeet token tokens = true) :
    ∃ word other rest, token = .word word ∧ tokens = .word other :: rest := by
  cases token with
  | word word =>
      cases tokens with
      | nil => cases meet
      | cons next rest =>
          cases next with
          | word other => exact ⟨word, other, rest, rfl, rfl⟩
          | _ => cases meet
  | _ => cases meet

theorem cut_mark {c : Char} {token : Token} (marked : Scan.mark? c = some token) (letters cs : List Char) :
    cut letters (c :: cs) = endWord letters ++ token :: cut [] cs := by
  simp only [cut, marked]

theorem cut_blank {c : Char} (blank : Text.isBlank c = true) (letters cs : List Char) :
    cut letters (c :: cs) = endWord letters ++ cut [] cs := by
  simp only [cut, blank_unmarked blank, if_pos blank]

theorem cut_gap {gap : List Char} (blanks : Blanks gap) (cs : List Char) : cut [] (gap ++ cs) = cut [] cs := by
  induction gap with
  | nil => rfl
  | cons c gap ih =>
      rw [List.cons_append, cut_blank (blanks c List.mem_cons_self), ih fun d inside => blanks d (.tail _ inside)]
      rfl

theorem delimited_gap {gap cs : List Char} (blanks : Blanks gap) (apart : gap ≠ [] ∨ Delimited cs) :
    Delimited (gap ++ cs) := by
  cases gap with
  | nil => exact apart.resolve_left fun some_ => some_ rfl
  | cons c gap => exact .inr (blanks c List.mem_cons_self)

theorem Spaced.delimited {word : String} {tokens : List Token} {gap text : List Char} (spaced : Spaced tokens text)
    (blanks : Blanks gap) (apart : wordsMeet (.word word) tokens → gap ≠ []) : Delimited (gap ++ text) := by
  refine delimited_gap blanks ?_
  cases spaced with
  | nil => exact .inr trivial
  | @cons token tokens gap' text' _ _ _ _ =>
      obtain ⟨other, rfl⟩ | ⟨c, chars, marked, _⟩ := token_cases token
      · exact .inl (apart rfl)
      · refine .inr ?_
        rw [chars]
        exact .inl (Option.isSome_of_eq_some marked)

theorem Spaced.cut {tokens : List Token} {text : List Char} (spaced : Spaced tokens text) :
    Reader.cut [] text = tokens ∧ ';' ∉ text := by
  induction spaced with
  | nil => exact ⟨rfl, List.not_mem_nil⟩
  | @cons token tokens gap text proper blanks apart rest ih =>
      obtain ⟨found, free⟩ := ih
      have free' : ';' ∉ gap ++ text := by
        rw [List.mem_append]
        exact fun member => member.elim (fun inside => blank_other (blanks _ inside) rfl) free
      have found' : Reader.cut [] (gap ++ text) = tokens := (cut_gap blanks text).trans found
      rw [List.append_assoc, List.mem_append]
      obtain ⟨word, rfl⟩ | ⟨c, chars, marked, other⟩ := token_cases token
      · refine ⟨?_, fun member => member.elim (fun inside => (proper.2 _ inside).2.2 rfl) free'⟩
        exact (cut_word proper (rest.delimited blanks apart)).trans (congrArg _ found')
      · rw [chars]
        refine ⟨?_, fun member => member.elim (fun inside => other (List.mem_singleton.mp inside).symm) free'⟩
        rw [List.singleton_append, cut_mark marked, found']
        rfl

theorem Laid.cut {tokens : List Token} {text : List Char} (laid : Laid tokens text) :
    Reader.cut [] text = tokens ∧ ';' ∉ text := by
  obtain ⟨gap, body, rfl, blanks, spaced⟩ := laid
  obtain ⟨found, free⟩ := spaced.cut
  refine ⟨(cut_gap blanks body).trans found, ?_⟩
  rw [List.mem_append]
  exact fun member => member.elim (fun inside => blank_other (blanks _ inside) rfl) free

theorem laid_word {letters gap body : List Char} {tokens : List Token} (plain : ∀ c ∈ letters, Plain c)
    (blanks : Blanks gap) (apart : ∀ word, wordsMeet (.word word) tokens → gap ≠ []) (spaced : Spaced tokens body) :
    Laid (endWord letters ++ tokens) (letters.reverse ++ (gap ++ body)) := by
  cases letters with
  | nil => exact ⟨gap, body, rfl, blanks, spaced⟩
  | cons c letters =>
      let word := String.ofList (c :: letters).reverse
      have chars : (Token.word word).chars = (c :: letters).reverse := String.toList_ofList
      have proper : (Token.word word).Proper := by
        refine ⟨?_, fun d inside => plain d ?_⟩
        · rw [String.toList_ofList]
          exact List.reverse_ne_nil_iff.mpr (List.cons_ne_nil c letters)
        · rwa [String.toList_ofList, List.mem_reverse] at inside
      have whole := Spaced.cons proper blanks (apart word) spaced
      rw [chars, List.append_assoc] at whole
      exact ⟨[], _, rfl, blanks_nil, whole⟩

-- The tokens that a text is cut into are laid out in it, after the letters of an unfinished word.
theorem laid_cut {letters cs : List Char} (plain : ∀ c ∈ letters, Plain c) (free : ';' ∉ cs) :
    Laid (cut letters cs) (letters.reverse ++ cs) := by
  induction cs generalizing letters with
  | nil =>
      have alone : Laid (endWord letters ++ []) (letters.reverse ++ ([] ++ [])) :=
        laid_word plain blanks_nil (fun word meet => by cases meet) .nil
      rwa [List.append_nil] at alone
  | cons c cs ih =>
      have free' : ';' ∉ cs := fun member => free (.tail c member)
      have other : c ≠ ';' := fun same => free (same ▸ List.mem_cons_self)
      obtain ⟨gap, body, shape, blanks, spaced⟩ := ih (fun d never => absurd never List.not_mem_nil) free'
      obtain rfl : cs = gap ++ body := shape
      cases marked : Scan.mark? c with
      | some token =>
          obtain ⟨chars, proper, noWord⟩ := mark_chars marked
          have apart (meet : wordsMeet token (cut [] (gap ++ body)) = true) : gap ≠ [] := by
            obtain ⟨word, _, _, isWord, _⟩ := words_of_meet meet
            exact absurd isWord (noWord word)
          have first := Spaced.cons proper blanks apart spaced
          rw [chars] at first
          rw [cut_mark marked]
          refine laid_word plain blanks_nil (fun word meet => ?_) first
          obtain ⟨_, next, _, _, follows⟩ := words_of_meet meet
          exact absurd (List.cons.inj follows).1 (noWord next)
      | none =>
          by_cases blank : Text.isBlank c = true
          · rw [cut_blank blank]
            have blanks' : Blanks (c :: gap) :=
              fun d inside => (List.mem_cons.mp inside).elim (fun same => same ▸ blank) (blanks d)
            exact laid_word plain blanks' (fun _ _ => List.cons_ne_nil c gap) spaced
          · have solid : Text.isBlank c = false := Bool.eq_false_iff.mpr blank
            have plain' : ∀ d ∈ c :: letters, Plain d :=
              fun d inside => (List.mem_cons.mp inside).elim (fun same => same ▸ ⟨marked, solid, other⟩) (plain d)
            have more := ih plain' free'
            rw [List.reverse_cons, List.append_assoc, List.singleton_append] at more
            simpa only [cut, marked, solid, Bool.false_eq_true, if_false] using more

theorem laid_iff {tokens : List Token} {text : List Char} (free : ';' ∉ text) :
    Laid tokens text ↔ tokens = cut [] text := by
  constructor
  · intro laid
    exact laid.cut.1.symm
  · rintro rfl
    exact laid_cut (fun d never => absurd never List.not_mem_nil) free

theorem tokenize_free {text : List Char} (free : ';' ∉ text) : tokenize text = ⟨cut [] text, none⟩ :=
  scan_cut .start text free

theorem last_here (tokens : List Token) (token : Token) (text : List Char) :
    LastEnd (tokens ++ [token]) (text ++ token.chars) (text ++ token.chars).length := by
  have ended : LastEnd (tokens ++ [token]) (text ++ token.chars ++ []) (text ++ token.chars).length := .last blanks_nil
  rwa [List.append_nil] at ended

theorem LastEnd.blank {tokens : List Token} {text : List Char} {position : Nat} (last : LastEnd tokens text position)
    {c : Char} (blank : Text.isBlank c = true) : LastEnd tokens (text ++ [c]) position := by
  have longer {gap : List Char} (blanks : Blanks gap) : Blanks (gap ++ [c]) := by
    intro d inside
    obtain old | new := List.mem_append.mp inside
    · exact blanks d old
    · exact List.mem_singleton.mp new ▸ blank
  cases last with
  | none blanks => exact .none (longer blanks)
  | last blanks =>
      rw [List.append_assoc]
      exact .last (longer blanks)

-- What a scan knows of the text that it has read: its mark is where the last token ends.
structure Scan.Marks (s : Scan) (text : List Char) : Prop where
  position : s.position = text.length
  before : ∃ done, text = done ++ s.letters.reverse ∧ LastEnd s.tokens.reverse done s.mark

namespace Scan.Marks

variable {s : Scan} {text : List Char}

theorem endWord (marks : s.Marks text) :
    LastEnd s.endWord.tokens.reverse text s.endWord.mark ∧ s.endWord.position = text.length := by
  obtain ⟨done, shape, last⟩ := marks.before
  by_cases between : s.letters.isEmpty
  · rw [Scan.endWord, if_pos between]
    rw [List.isEmpty_iff.mp between, List.reverse_nil, List.append_nil] at shape
    exact ⟨shape ▸ last, marks.position⟩
  · rw [Scan.endWord, if_neg between]
    refine ⟨?_, marks.position⟩
    have whole := last_here s.tokens.reverse (.word (String.ofList s.letters.reverse)) done
    have chars : (Token.word (String.ofList s.letters.reverse)).chars = s.letters.reverse := String.toList_ofList
    rw [chars, ← shape, ← marks.position] at whole
    simpa only [List.reverse_cons] using whole

theorem feed (marks : s.Marks text) (c : Char) : (s.feed c).Marks (text ++ [c]) := by
  obtain ⟨ended, position⟩ := marks.endWord
  have length : (text ++ [c]).length = text.length + 1 := List.length_append
  cases marked : Scan.mark? c with
  | some token =>
      have whole := last_here s.endWord.tokens.reverse token text
      rw [(mark_chars marked).1, length] at whole
      simp only [Scan.feed, marked, position]
      exact ⟨length.symm, text ++ [c], (List.append_nil _).symm, by simpa only [List.reverse_cons] using whole⟩
  | none =>
      by_cases blank : Text.isBlank c = true
      · simp only [Scan.feed, marked, if_pos blank]
        refine ⟨by rw [position, length], text ++ [c], ?_, ended.blank blank⟩
        rw [(endWord_tokens s).2]
        exact (List.append_nil _).symm
      · obtain ⟨done, shape, last⟩ := marks.before
        simp only [Scan.feed, marked, if_neg blank]
        refine ⟨by rw [marks.position, length], done, ?_, last⟩
        rw [List.reverse_cons, ← List.append_assoc, ← shape]

theorem run (marks : s.Marks text) (cs : List Char) : (cs.foldl Scan.feed s).Marks (text ++ cs) := by
  induction cs generalizing s text with
  | nil => rwa [List.append_nil]
  | cons c cs ih =>
      have later := ih (marks.feed c)
      rwa [List.append_assoc] at later

end Scan.Marks

theorem start_marks : Scan.start.Marks [] := ⟨rfl, [], rfl, .none blanks_nil⟩

theorem scan_append (s : Scan) {cs : List Char} (free : ';' ∉ cs) (rest : List Char) :
    scan s (cs ++ rest) = scan (cs.foldl Scan.feed s) rest := by
  induction cs generalizing s with
  | nil => rfl
  | cons c cs ih =>
      have other : c ≠ ';' := fun same => free (same ▸ List.mem_cons_self)
      rw [List.cons_append, scan, if_neg other, ih _ fun member => free (.tail c member), List.foldl_cons]

-- Up to a semicolon a text is scanned as if it ended there.
theorem tokenize_semicolon {before : List Char} (free : ';' ∉ before) (after : List Char) :
    ∃ position, LastEnd (tokenize before).tokens before position ∧
      tokenize (before ++ ';' :: after) = ⟨(tokenize before).tokens, some (.unexpectedChar position ';')⟩ := by
  have last := (start_marks.run before).endWord.1
  have alone := scan_append .start free []
  rw [List.append_nil] at alone
  refine ⟨(before.foldl Scan.feed .start).endWord.mark, ?_, ?_⟩
  · rw [tokenize, alone]
    exact last
  · rw [tokenize, scan_append .start free, tokenize, alone]
    rfl

/-- Scanning finds the tokens that a text without semicolons is laid out from, and these only. A semicolon ends it
with an error that names where the last token before it ends. -/
theorem scanning_inverts_layout (text : List Char) :
    (';' ∉ text → (tokenize text).fault = none ∧ ∀ tokens, Laid tokens text ↔ tokens = (tokenize text).tokens) ∧
    (∀ tokens, Laid tokens text → tokenize text = ⟨tokens, none⟩) ∧
    (∀ before after, text = before ++ ';' :: after → ';' ∉ before →
      ∃ tokens position, Laid tokens before ∧ LastEnd tokens before position ∧
        tokenize text = ⟨tokens, some (.unexpectedChar position ';')⟩ ∧
        (Error.unexpectedChar position ';').category = .reading ∧
        (Error.unexpectedChar position ';').message =
          "Unexpected char at " ++ toString position ++ ": " ++ "';'") := by
  refine ⟨fun free => ?_, fun tokens laid => ?_, ?_⟩
  · rw [tokenize_free free]
    exact ⟨rfl, fun tokens => laid_iff free⟩
  · obtain ⟨found, free⟩ := laid.cut
    rw [tokenize_free free, found]
  · rintro before after rfl free
    obtain ⟨position, last, scanned⟩ := tokenize_semicolon free after
    have laid : Laid (tokenize before).tokens before := by
      rw [laid_iff free, tokenize_free free]
    have shown : Text.quoted (String.singleton ';') = "';'" := by decide +kernel
    exact ⟨_, position, laid, last, scanned, rfl,
      congrArg ("Unexpected char at " ++ toString position ++ ": " ++ ·) shown⟩

-- A wide blank before a list, a quote between two words, and blanks between the last word and a semicolon.
theorem scanning_inverts_layout_adjacent :
    let text := "\u2003('ab c'd)\n".toList
    let tokens := [Token.opening, .quote, .word "ab", .word "c", .quote, .word "d", .closing]
    let before := "(ab  ".toList
    let after := "c;".toList
    ';' ∉ text ∧ Laid tokens text ∧ tokenize text = ⟨tokens, none⟩ ∧ ';' ∉ before ∧
      Laid [.opening, .word "ab"] before ∧ LastEnd [.opening, .word "ab"] before 3 ∧
      tokenize (before ++ ';' :: after) = ⟨[.opening, .word "ab"], some (.unexpectedChar 3 ';')⟩ := by
  intro text tokens before after
  have free : ';' ∉ text := by decide
  have laid : Laid tokens text := (((scanning_inverts_layout text).1 free).2 tokens).mpr (by decide +kernel)
  have free' : ';' ∉ before := by decide
  obtain ⟨found, position, laid', last, scanned, _⟩ :=
    (scanning_inverts_layout (before ++ ';' :: after)).2.2 before after rfl free'
  have stops : tokenize (before ++ ';' :: after) = ⟨[.opening, .word "ab"], some (.unexpectedChar 3 ';')⟩ := by
    decide +kernel
  obtain ⟨rfl, same⟩ := Stream.mk.inj (stops.symm.trans scanned)
  obtain ⟨rfl, _⟩ := Error.unexpectedChar.inj (Option.some.inj same)
  exact ⟨free, laid, (scanning_inverts_layout text).2.1 tokens laid, free', laid', last, stops⟩

end CurriedLisp.Reader
