import CurriedLisp.Proofs.Reader.Grammar
import CurriedLisp.Proofs.Reader.Spacing

set_option autoImplicit false

namespace CurriedLisp.Reader

theorem uncommented_kept (inComment : Bool) (kept cs : List Char) :
    (cs.foldl Uncommented.feed ⟨inComment, kept⟩).kept =
      (cs.foldl Uncommented.feed ⟨inComment, []⟩).kept ++ kept := by
  induction cs generalizing inComment kept with
  | nil => rfl
  | cons c cs ih =>
      rw [List.foldl_cons, List.foldl_cons]
      by_cases newline : c = '\n'
      · simp only [Uncommented.feed, if_pos newline]
        rw [ih false (c :: kept), ih false [c], List.append_assoc, List.singleton_append]
      · by_cases comment : (inComment || c = ';') = true
        · simp only [Uncommented.feed, if_neg newline, if_pos comment]
          exact ih true kept
        · simp only [Uncommented.feed, if_neg newline, if_neg comment]
          rw [ih false (c :: kept), ih false [c], List.append_assoc, List.singleton_append]

theorem removeComments_line (a b : List Char) :
    removeComments (a ++ '\n' :: b) = removeComments a ++ '\n' :: removeComments b := by
  simp only [removeComments, List.foldl_append, List.foldl_cons, Uncommented.feed, if_pos]
  rw [uncommented_kept]
  simp

theorem removeComments_cons {c : Char} (other : c ≠ ';') (cs : List Char) :
    removeComments (c :: cs) = c :: removeComments cs := by
  have fed : Uncommented.feed ⟨false, []⟩ c = ⟨false, [c]⟩ := by simp [Uncommented.feed, other]
  rw [removeComments, List.foldl_cons, fed, uncommented_kept]
  simp [removeComments]

theorem cut_between {c : Char} (blank : Text.isBlank c = true) (letters a b : List Char) :
    cut letters (a ++ c :: b) = cut letters a ++ cut [] b := by
  induction a generalizing letters with
  | nil => exact cut_blank blank letters b
  | cons d a ih =>
      rw [List.cons_append, cut, cut]
      cases Scan.mark? d with
      | some token => simp only [ih, List.append_assoc, List.cons_append]
      | none =>
          by_cases blank : Text.isBlank d
          · simp only [if_pos blank, ih, List.append_assoc]
          · simp only [if_neg blank, ih]

theorem cut_line (letters a b : List Char) : cut letters (a ++ '\n' :: b) = cut letters a ++ cut [] b :=
  cut_between Text.isBlank_newline letters a b

theorem readAllFrom_done (depth : Nat) (fault : Option Error) (done : List Value) (frames : List Frame)
    (tokens : List Token) :
    readAllFrom depth fault done frames tokens =
      ⟨done.reverse ++ (readAllFrom depth fault [] frames tokens).forms,
        (readAllFrom depth fault [] frames tokens).failure⟩ := by
  induction tokens generalizing done frames with
  | nil =>
      rw [readAllFrom, readAllFrom]
      cases atEnd fault frames <;> simp
  | cons token rest ih =>
      rw [readAllFrom_cons, readAllFrom_cons]
      cases feed depth frames token with
      | error e => simp [resume]
      | ok progress =>
          cases progress with
          | partway frames => exact ih done frames
          | complete form =>
              change readAllFrom depth fault (form :: done) [] rest = _
              simp only [resume]
              rw [ih (form :: done), ih [form]]
              simp

theorem readAllFrom_append {depth : Nat} {done : List Value} {frames : List Frame} {tokens : List Token}
    (complete : (readAllFrom depth none done frames tokens).failure = none) (fault : Option Error)
    (more : List Token) :
    readAllFrom depth fault done frames (tokens ++ more) =
      readAllFrom depth fault (readAllFrom depth none done frames tokens).forms.reverse [] more := by
  induction tokens generalizing done frames with
  | nil =>
      rw [readAllFrom] at complete ⊢
      cases frames with
      | nil => simp [atEnd]
      | cons frame frames => cases frame <;> cases complete
  | cons token rest ih =>
      rw [List.cons_append, readAllFrom_cons, readAllFrom_cons]
      rw [readAllFrom_cons] at complete
      cases fed : feed depth frames token with
      | error e =>
          rw [fed] at complete
          cases complete
      | ok progress =>
          rw [fed] at complete
          cases progress with
          | complete form => exact ih complete
          | partway frames => exact ih complete

-- The failures that more text may mend.
def Mendable (f : Failure) : Prop := f = .error .unmatchedOpen ∨ f = .error .nothingToQuote

theorem atEnd_mendable {frames : List Frame} {f : Failure} (failed : atEnd none frames = .error f) : Mendable f := by
  cases frames with
  | nil => cases failed
  | cons frame frames =>
      cases frame with
      | list items => exact .inl (Except.error.inj failed).symm
      | quote => exact .inr (Except.error.inj failed).symm

theorem readAllFrom_stops {depth : Nat} {done : List Value} {frames : List Frame} {tokens : List Token} {f : Failure}
    (failed : (readAllFrom depth none done frames tokens).failure = some f) (final : ¬ Mendable f)
    (fault : Option Error) (more : List Token) :
    readAllFrom depth fault done frames (tokens ++ more) = readAllFrom depth none done frames tokens := by
  induction tokens generalizing done frames with
  | nil =>
      rw [readAllFrom] at failed
      cases ends : atEnd none frames with
      | ok last =>
          rw [ends] at failed
          cases failed
      | error e =>
          rw [ends] at failed
          obtain rfl : e = f := Option.some.inj failed
          exact absurd (atEnd_mendable ends) final
  | cons token rest ih =>
      rw [readAllFrom_cons] at failed
      rw [List.cons_append, readAllFrom_cons, readAllFrom_cons]
      cases fed : feed depth frames token with
      | error e => rfl
      | ok progress =>
          rw [fed] at failed
          cases progress with
          | complete form => exact ih failed
          | partway frames => exact ih failed

theorem readAllFrom_forms (depth : Nat) (fault : Option Error) (done : List Value) (frames : List Frame)
    (tokens more : List Token) :
    (readAllFrom depth none done frames tokens).forms <+:
      (readAllFrom depth fault done frames (tokens ++ more)).forms := by
  induction tokens generalizing done frames with
  | nil =>
      have first : (readAllFrom depth none done frames []).forms = done.reverse := by
        rw [readAllFrom]
        cases atEnd none frames <;> rfl
      rw [first, List.nil_append, readAllFrom_done]
      exact List.prefix_append _ _
  | cons token rest ih =>
      rw [List.cons_append, readAllFrom_cons, readAllFrom_cons]
      cases feed depth frames token with
      | error e => exact List.prefix_rfl
      | ok progress =>
          cases progress with
          | complete form => exact ih (form :: done) []
          | partway frames => exact ih done frames

theorem readAll_tokens (depth : Nat) (cs : List Char) :
    readAll depth cs = readAllFrom depth none [] [] (cut [] (removeComments cs)) := by
  rw [readAll, tokenize_uncommented, Stream.forms]

/-- After a text that is read without a failure, the next line is read as it would be alone. -/
theorem readAll_line {depth : Nat} {a : List Char} (complete : (readAll depth a).failure = none) (b : List Char) :
    readAll depth (a ++ '\n' :: b) =
      ⟨(readAll depth a).forms ++ (readAll depth b).forms, (readAll depth b).failure⟩ := by
  simp only [readAll_tokens] at complete ⊢
  rw [removeComments_line, cut_line, readAllFrom_append complete none, readAllFrom_done, List.reverse_reverse]

theorem parse_forms {depth : Nat} {text : String} {forms : List Value} :
    parse depth text = .ok (.pair (.sym "begin") (.ofList forms)) ↔ readAll depth text.toList = ⟨forms, none⟩ := by
  unfold parse
  cases readAll depth text.toList with
  | mk read failure =>
      cases failure with
      | some e => simp
      | none =>
          have same : Value.ofList read = .ofList forms ↔ read = forms :=
            ⟨fun lists => by simpa only [Value.items_ofList] using congrArg Value.items lists, congrArg Value.ofList⟩
          simp [same]

theorem parse_line {depth : Nat} {a b : String} {fa fb : List Value}
    (first : parse depth a = .ok (.pair (.sym "begin") (.ofList fa)))
    (second : parse depth b = .ok (.pair (.sym "begin") (.ofList fb))) :
    parse depth (a ++ "\n" ++ b) = .ok (.pair (.sym "begin") (.ofList (fa ++ fb))) := by
  have readA := parse_forms.mp first
  have readB := parse_forms.mp second
  have characters : (a ++ "\n" ++ b).toList = a.toList ++ '\n' :: b.toList := by simp
  rw [parse_forms, characters, readAll_line (by rw [readA]), readA, readB]

/-- Reading is compositional over lines. After a text without a failure the next line is read as it would be alone; a
failure that nothing mends is the same whatever the next line is; and the forms of the first text always come first. -/
theorem reading_composes_over_lines (depth : Nat) (a b : List Char) :
    ((readAll depth a).failure = none → readAll depth (a ++ '\n' :: b) =
      ⟨(readAll depth a).forms ++ (readAll depth b).forms, (readAll depth b).failure⟩) ∧
    (∀ f, (readAll depth a).failure = some f → f ≠ .error .unmatchedOpen → f ≠ .error .nothingToQuote →
      readAll depth (a ++ '\n' :: b) = readAll depth a) ∧
    (readAll depth a).forms <+: (readAll depth (a ++ '\n' :: b)).forms := by
  have joined : readAll depth (a ++ '\n' :: b) =
      readAllFrom depth none [] [] (cut [] (removeComments a) ++ cut [] (removeComments b)) := by
    rw [readAll_tokens, removeComments_line, cut_line]
  refine ⟨fun complete => readAll_line complete b, fun f failed notOpen notQuote => ?_, ?_⟩
  · rw [readAll_tokens] at failed
    rw [joined, readAll_tokens]
    exact readAllFrom_stops failed (not_or.mpr ⟨notOpen, notQuote⟩) none _
  · rw [joined, readAll_tokens]
    exact readAllFrom_forms depth none [] [] _ _

-- A comment that a line ends in hides its parenthesis; a quote before a closing parenthesis fails before the comment.
theorem reading_composes_over_lines_comment :
    let a := "(x) y ; (".toList
    let b := "z) w".toList
    let c := "x (' ) ; (".toList
    readAll 9 (a ++ '\n' :: b) = ⟨[.ofList [.sym "x"], .sym "y", .sym "z"], some (.error .unexpectedClose)⟩ ∧
      readAll 9 (b ++ '\n' :: a) = ⟨[.sym "z"], some (.error .unexpectedClose)⟩ ∧
      readAll 9 (c ++ '\n' :: a) = ⟨[.sym "x"], some (.error .closeAfterQuote)⟩ := by
  intro a b c
  have readA : readAll 9 a = ⟨[.ofList [.sym "x"], .sym "y"], none⟩ := by decide +kernel
  have readB : readAll 9 b = ⟨[.sym "z"], some (.error .unexpectedClose)⟩ := by decide +kernel
  have readC : readAll 9 c = ⟨[.sym "x"], some (.error .closeAfterQuote)⟩ := by decide +kernel
  have mended := (reading_composes_over_lines 9 a b).1 (by rw [readA])
  have stray := (reading_composes_over_lines 9 b a).2.1 _ (by rw [readB]) (by decide) (by decide)
  have quoted := (reading_composes_over_lines 9 c a).2.1 _ (by rw [readC]) (by decide) (by decide)
  rw [readA, readB] at mended
  rw [readB] at stray
  rw [readC] at quoted
  exact ⟨mended, stray, quoted⟩

end CurriedLisp.Reader
