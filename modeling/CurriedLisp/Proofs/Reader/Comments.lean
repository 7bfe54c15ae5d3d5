import CurriedLisp.Proofs.Reader.Joining

set_option autoImplicit false

namespace CurriedLisp.Reader

variable {line comment after : List Char}

-- A text is its last line, or a line and what comes after it.
theorem lines_induction {motive : List Char → Prop} (last : ∀ line, '\n' ∉ line → motive line)
    (next : ∀ line rest, '\n' ∉ line → motive rest → motive (line ++ '\n' :: rest)) (cs : List Char) : motive cs := by
  by_cases ends : '\n' ∈ cs
  · obtain ⟨line, rest, rfl, whole⟩ := List.eq_append_cons_of_mem ends
    exact next line rest whole (lines_induction last next rest)
  · exact last cs ends
termination_by cs.length

def eraseComments : List Char → List Char
  | [] => []
  | c :: cs => if c = ';' then eraseComments (cs.dropWhile (· ≠ '\n')) else c :: eraseComments cs
termination_by cs => cs.length
decreasing_by
  · exact Nat.lt_succ_of_le (List.dropWhile_sublist _).length_le
  · exact Nat.lt_succ_self _

def cutLine (line : List Char) : List Char := line.takeWhile (· ≠ ';')

theorem feed_comment (sameLine : '\n' ∉ comment) (kept : List Char) :
    comment.foldl Uncommented.feed ⟨true, kept⟩ = ⟨true, kept⟩ := by
  induction comment with
  | nil => rfl
  | cons c rest ih =>
      rw [List.mem_cons, not_or] at sameLine
      have fed : Uncommented.feed ⟨true, kept⟩ c = ⟨true, kept⟩ := by simp [Uncommented.feed, Ne.symm sameLine.1]
      rw [List.foldl_cons, fed, ih sameLine.2]

theorem feed_semicolon (state : Uncommented) : state.feed ';' = ⟨true, state.kept⟩ := by
  simp [Uncommented.feed]

theorem removeComments_inside (before : List Char) (sameLine : '\n' ∉ comment) (after : List Char) :
    removeComments (before ++ ';' :: (comment ++ after)) = removeComments (before ++ ';' :: after) := by
  simp only [removeComments, List.foldl_append, List.foldl_cons, feed_semicolon, feed_comment sameLine]

theorem removeComments_outside (ended : after = [] ∨ after.head? = some '\n') :
    removeComments (';' :: after) = removeComments after := by
  cases after with
  | nil => rfl
  | cons c rest =>
      obtain rfl : c = '\n' := Option.some.inj (ended.resolve_left nofun)
      rfl

theorem rest_ended (cs : List Char) :
    cs.dropWhile (· ≠ '\n') = [] ∨ (cs.dropWhile (· ≠ '\n')).head? = some '\n' := by
  have stopped := List.head?_dropWhile_not (· ≠ '\n') cs
  cases rest : cs.dropWhile (· ≠ '\n') with
  | nil => exact .inl rfl
  | cons c others =>
      rw [rest] at stopped
      exact .inr (congrArg some (by simpa using stopped))

theorem removeComments_first (cs : List Char) :
    removeComments (';' :: cs) = removeComments (cs.dropWhile (· ≠ '\n')) := by
  have sameLine : '\n' ∉ cs.takeWhile (· ≠ '\n') := fun member => by
    simpa using List.all_eq_true.mp (List.all_takeWhile (p := (· ≠ '\n'))) _ member
  calc
    removeComments (';' :: cs)
    _ = removeComments (';' :: (cs.takeWhile (· ≠ '\n') ++ cs.dropWhile (· ≠ '\n'))) := by
      rw [List.takeWhile_append_dropWhile]
    _ = removeComments (';' :: cs.dropWhile (· ≠ '\n')) := removeComments_inside [] sameLine _
    _ = removeComments (cs.dropWhile (· ≠ '\n')) := removeComments_outside (rest_ended cs)

theorem removeComments_erases (cs : List Char) : removeComments cs = eraseComments cs := by
  fun_induction eraseComments cs with
  | case1 => rfl
  | case2 cs ih => rw [removeComments_first, ih]
  | case3 c cs other ih => rw [removeComments_cons other, ih]

theorem removeComments_cutLine (whole : '\n' ∉ line) : removeComments line = cutLine line := by
  induction line with
  | nil => rfl
  | cons c rest ih =>
      rw [List.mem_cons, not_or] at whole
      by_cases comment : c = ';'
      · have dropped : removeComments (';' :: (rest ++ [])) = removeComments [';'] := removeComments_inside [] whole.2 []
        rw [List.append_nil] at dropped
        rw [comment, dropped, cutLine, List.takeWhile_cons_of_neg (by simp)]
        rfl
      · rw [removeComments_cons comment, ih whole.2, cutLine, cutLine, List.takeWhile_cons_of_pos (by simpa using comment)]

theorem removeComments_lines (cs : List Char) :
    removeComments cs = ['\n'].intercalate ((cs.splitOn '\n').map cutLine) := by
  induction cs using lines_induction with
  | last line whole =>
      rw [List.splitOn_eq_singleton whole, List.map_singleton, List.intercalate_singleton, removeComments_cutLine whole]
  | next line rest whole ih =>
      have others : (rest.splitOn '\n').map cutLine ≠ [] := fun none =>
        List.splitOn_ne_nil '\n' rest (List.map_eq_nil_iff.mp none)
      rw [List.splitOn_append_cons_self_of_not_mem whole, List.map_cons, List.intercalate_cons_of_ne_nil others, ← ih,
        removeComments_line, removeComments_cutLine whole, List.append_assoc, List.singleton_append]

theorem count_removeComments (cs : List Char) : (removeComments cs).count '\n' = cs.count '\n' := by
  have cut {line : List Char} (whole : '\n' ∉ line) : (removeComments line).count '\n' = line.count '\n' := by
    have within : '\n' ∉ cutLine line := fun member => whole ((List.takeWhile_sublist _).subset member)
    rw [removeComments_cutLine whole, List.count_eq_zero.mpr within, List.count_eq_zero.mpr whole]
  induction cs using lines_induction with
  | last line whole => exact cut whole
  | next line rest whole ih =>
      rw [removeComments_line, List.count_append, List.count_append, List.count_cons_self, List.count_cons_self, ih,
        cut whole]

/-- Removing the comments of a text cuts each of its lines at its first semicolon. It does the same as removing them one
after another from the left, leaves no semicolon and as many lines as there were, and changes nothing when it is done
again. Whatever else stands in a comment, up to the end of its line, the result is the same. The scan of the result
does not fail. -/
theorem comments_end_with_lines (cs : List Char) :
    removeComments cs = ['\n'].intercalate ((cs.splitOn '\n').map (·.takeWhile (· ≠ ';'))) ∧
    removeComments cs = eraseComments cs ∧
    ';' ∉ removeComments cs ∧
    (removeComments cs).count '\n' = cs.count '\n' ∧
    removeComments (removeComments cs) = removeComments cs ∧
    (∀ before comment other after, cs = before ++ ';' :: (comment ++ after) → '\n' ∉ comment → '\n' ∉ other →
      removeComments (before ++ ';' :: (other ++ after)) = removeComments cs) ∧
    (tokenize (removeComments cs)).fault = none := by
  have free := removeComments_free cs
  refine ⟨removeComments_lines cs, removeComments_erases cs, free, count_removeComments cs, removeComments_same free, ?_,
    congrArg Stream.fault (tokenize_uncommented cs)⟩
  rintro before comment other after rfl sameLine sameLine'
  rw [removeComments_inside before sameLine, removeComments_inside before sameLine']

-- A carriage return and further semicolons belong to the comment; the last one ends with the text.
theorem comments_end_with_lines_return :
    let comment := "b;c\r".toList
    let other := "(;'\r\r)".toList
    let after := "\n';\n\n(d ; e".toList
    ('\n' ∉ comment ∧ '\n' ∉ other) ∧
      removeComments ("a;".toList ++ (comment ++ after)) = "a\n'\n\n(d ".toList ∧
      removeComments ("a;".toList ++ (other ++ after)) = "a\n'\n\n(d ".toList := by
  intro comment other after
  have sameLine : '\n' ∉ comment := by decide
  have sameLine' : '\n' ∉ other := by decide
  have removed : removeComments ("a;".toList ++ (comment ++ after)) = "a\n'\n\n(d ".toList := by decide
  obtain ⟨-, -, -, -, -, unaffected, -⟩ := comments_end_with_lines ("a;".toList ++ (comment ++ after))
  exact ⟨⟨sameLine, sameLine'⟩, removed, (unaffected ['a'] comment other after rfl sameLine sameLine').trans removed⟩

end CurriedLisp.Reader
