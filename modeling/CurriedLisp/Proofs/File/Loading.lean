import CurriedLisp.File.Load
import CurriedLisp.File.Tree
import CurriedLisp.Proofs.Reader.Joining
import CurriedLisp.Settings
import Mathlib.Data.List.Basic

set_option autoImplicit false

namespace CurriedLisp

namespace Reader

def tokensOutside (cs : List Char) : List Token := cut [] (removeComments cs)

theorem tokensOutside_line (a b : List Char) : tokensOutside (a ++ '\n' :: b) = tokensOutside a ++ tokensOutside b := by
  simp only [tokensOutside, removeComments_line, cut_line]

-- At its end a text is in a comment or not.
theorem removeComments_snoc {c : Char} (other : c ≠ ';') (sameLine : c ≠ '\n') (cs : List Char) :
    removeComments (cs ++ [c]) = removeComments cs ∨ removeComments (cs ++ [c]) = removeComments cs ++ [c] := by
  simp only [removeComments, List.foldl_append, List.foldl_cons, List.foldl_nil]
  generalize cs.foldl Uncommented.feed ⟨false, []⟩ = state
  by_cases inside : state.inComment
  · exact .inl (by simp [Uncommented.feed, sameLine, inside])
  · exact .inr (by simp [Uncommented.feed, sameLine, other, inside])

theorem tokensOutside_before {c : Char} (blank : Text.isBlank c = true) (cs : List Char) :
    tokensOutside (c :: cs) = tokensOutside cs := by
  rw [tokensOutside, removeComments_cons (blank_other blank), cut_blank blank]
  rfl

theorem tokensOutside_after {c : Char} (blank : Text.isBlank c = true) (cs : List Char) :
    tokensOutside (cs ++ [c]) = tokensOutside cs := by
  by_cases newline : c = '\n'
  · subst newline
    rw [tokensOutside_line]
    exact List.append_nil _
  · obtain kept | kept := removeComments_snoc (blank_other blank) newline cs
    · rw [tokensOutside, kept, tokensOutside]
    · rw [tokensOutside, kept, cut_between blank]
      exact List.append_nil _

theorem tokensOutside_dropBefore (cs : List Char) : tokensOutside (cs.dropWhile Text.isBlank) = tokensOutside cs := by
  induction cs with
  | nil => rfl
  | cons c cs ih =>
      by_cases blank : Text.isBlank c
      · rw [List.dropWhile_cons_of_pos blank, ih, tokensOutside_before blank]
      · rw [List.dropWhile_cons_of_neg blank]

theorem tokensOutside_dropAfter (cs : List Char) :
    tokensOutside (cs.dropWhile Text.isBlank).reverse = tokensOutside cs.reverse := by
  induction cs with
  | nil => rfl
  | cons c cs ih =>
      by_cases blank : Text.isBlank c
      · rw [List.dropWhile_cons_of_pos blank, ih, List.reverse_cons, tokensOutside_after blank]
      · rw [List.dropWhile_cons_of_neg blank]

theorem tokensOutside_trim (cs : List Char) : tokensOutside (Text.trimChars cs) = tokensOutside cs := by
  rw [Text.trimChars, tokensOutside_dropAfter, List.reverse_reverse, tokensOutside_dropBefore]

theorem readAll_congr {depth : Nat} {a b : List Char} (same : tokensOutside a = tokensOutside b) :
    readAll depth a = readAll depth b := by
  rw [readAll_tokens, readAll_tokens]
  exact congrArg (readAllFrom depth none [] []) same

theorem parse_congr {depth : Nat} {a b : String} (same : tokensOutside a.toList = tokensOutside b.toList) :
    parse depth a = parse depth b := by
  rw [parse, parse, readAll_congr same]

end Reader

namespace File

open Reader

def Paired (cs : List Char) : Prop := ∀ i, cs[i]? = some '\r' → cs[i + 1]? = some '\n'

instance (cs : List Char) : Decidable (Paired cs) :=
  decidable_of_iff (∀ i < cs.length, cs[i]? = some '\r' → cs[i + 1]? = some '\n')
    ⟨fun each i here => each i (List.getElem?_eq_some_iff.mp here).1 here, fun paired i _ here => paired i here⟩

theorem Paired.rest {c : Char} {cs : List Char} (paired : Paired (c :: cs)) : Paired cs :=
  fun i here => paired (i + 1) here

theorem lines_done (afterReturn : Bool) (done cs : List Char) :
    (cs.foldl Lines.feed ⟨afterReturn, done⟩).done = (cs.foldl Lines.feed ⟨afterReturn, []⟩).done ++ done := by
  induction cs generalizing afterReturn done with
  | nil => rfl
  | cons c cs ih =>
      rw [List.foldl_cons, List.foldl_cons]
      by_cases isReturn : c = '\r'
      · simp only [Lines.feed, if_pos isReturn]
        rw [ih true ('\n' :: done), ih true ['\n'], List.append_assoc, List.singleton_append]
      · by_cases second : c = '\n' ∧ afterReturn = true
        · simp only [Lines.feed, if_neg isReturn, if_pos second]
          exact ih false done
        · simp only [Lines.feed, if_neg isReturn, if_neg second]
          rw [ih false (c :: done), ih false [c], List.append_assoc, List.singleton_append]

theorem uniformLines_cons {c : Char} (other : c ≠ '\r') (cs : List Char) :
    uniformLines (c :: cs) = c :: uniformLines cs := by
  have fed : Lines.feed ⟨false, []⟩ c = ⟨false, [c]⟩ := by simp [Lines.feed, other]
  rw [uniformLines, List.foldl_cons, fed, lines_done]
  simp [uniformLines]

theorem uniformLines_return (cs : List Char) : uniformLines ('\r' :: '\n' :: cs) = '\n' :: uniformLines cs := by
  have fed : Lines.feed (Lines.feed ⟨false, []⟩ '\r') '\n' = ⟨false, ['\n']⟩ := rfl
  rw [uniformLines, List.foldl_cons, List.foldl_cons, fed, lines_done]
  simp [uniformLines]

-- A carriage return at the end of a line is blank there, or belongs to a comment.
theorem tokensOutside_uniform (before : List Char) {cs : List Char} (paired : Paired cs) :
    tokensOutside (before ++ uniformLines cs) = tokensOutside (before ++ cs) := by
  induction cs generalizing before with
  | nil => rfl
  | cons c cs ih =>
      by_cases isReturn : c = '\r'
      · subst isReturn
        obtain ⟨rest, rfl⟩ : ∃ rest, cs = '\n' :: rest :=
          List.head?_eq_some_iff.mp (List.head?_eq_getElem?.trans (paired 0 rfl))
        have line := ih before paired.rest
        rw [uniformLines_cons (by decide)] at line
        have ended : tokensOutside (before ++ '\r' :: '\n' :: rest) = tokensOutside (before ++ '\n' :: rest) := by
          have split := tokensOutside_line (before ++ ['\r']) rest
          rw [List.append_assoc, List.singleton_append, tokensOutside_after (by decide)] at split
          rw [split, tokensOutside_line]
        rw [uniformLines_return, line, ended]
      · have longer := ih (before ++ [c]) paired.rest
        rwa [List.append_assoc, List.append_assoc, List.singleton_append, List.singleton_append,
          ← uniformLines_cons isReturn] at longer

-- A carriage return on its own would end a comment.
example : tokensOutside (uniformLines "; a\rb".toList) ≠ tokensOutside "; a\rb".toList := by decide

theorem decode_written (text : String) :
    decode? text.toUTF8 = some (String.ofList (Text.trimChars (uniformLines text.toList))) := by
  have decoded : String.fromUTF8? text.toUTF8 = some text := by
    simp only [String.fromUTF8?, String.toUTF8_eq_toByteArray, dif_pos text.isValidUTF8]
    rfl
  rw [decode?, decoded, Option.map_some]

theorem tokensOutside_loaded {text : String} (paired : Paired text.toList) :
    tokensOutside (Text.trimChars (uniformLines text.toList)) = tokensOutside text.toList :=
  (tokensOutside_trim _).trans (tokensOutside_uniform [] paired)

/-- A file is evaluated as the text that it holds, if every carriage return in it ends a line together with a newline:
the forms that are read from it are the same, and so are the value or the failure and the trace. -/
theorem loading_agrees_with_text {read : Path → Except Fault ByteArray} {path : Path} {text : String}
    (holds : read path = .ok text.toUTF8) (paired : Paired text.toList) (mode : Mode String) (depth : Nat) :
    (∃ code, decode? text.toUTF8 = some code ∧ readAll depth code.toList = readAll depth text.toList) ∧
    load read mode depth path =
      match evalText mode depth text .start with
      | .ok v w => ⟨.ok v, w.trace.reverse⟩
      | .error e w => ⟨.error (.program e), w.trace.reverse⟩ := by
  have tokens := tokensOutside_loaded paired
  have decoded := decode_written text
  generalize Text.trimChars (uniformLines text.toList) = trimmed at tokens decoded
  have same : tokensOutside (String.ofList trimmed).toList = tokensOutside text.toList := by
    rw [String.toList_ofList, tokens]
  refine ⟨⟨_, decoded, readAll_congr same⟩, ?_⟩
  have ran : evalText mode depth (String.ofList trimmed) = evalText mode depth text := by
    rw [evalText, evalText, parse_congr same]
  cases evaluated : evalText mode depth text .start <;> simp only [load, holds, decoded, ran, evaluated]

-- Blank characters at both ends, and a comment that ends at a carriage return.
theorem loading_agrees_with_text_comment :
    let text := "\u3000 (+ 1 ; two)\r\n  2) ; (\r\n\r\n ;"
    let tree : Tree := ⟨[(["a.sp"], text.toUTF8)], []⟩
    (tree.read ⟨"", ["a.sp"]⟩ = .ok text.toUTF8 ∧ Paired text.toList) ∧
      (load tree.read (.program false) Settings.defaultRecursionLimit ⟨"", ["a.sp"]⟩).result = .ok (.int 3) := by
  intro text tree
  have holds : tree.read ⟨"", ["a.sp"]⟩ = .ok text.toUTF8 := rfl
  have paired : Paired text.toList := by decide +kernel
  refine ⟨⟨holds, paired⟩, ?_⟩
  rw [(loading_agrees_with_text holds paired (.program false) Settings.defaultRecursionLimit).2]
  decide +kernel

end File

end CurriedLisp
