import CurriedLisp.Reader.Comment
import CurriedLisp.Reader.Token

set_option autoImplicit false

namespace CurriedLisp.Reader

def Plain (c : Char) : Prop := Scan.mark? c = none ∧ Text.isBlank c = false ∧ c ≠ ';'

instance (c : Char) : Decidable (Plain c) := inferInstanceAs (Decidable (_ ∧ _ ∧ _))

def IsWord (word : String) : Prop := word.toList ≠ [] ∧ ∀ c ∈ word.toList, Plain c

instance (word : String) : Decidable (IsWord word) :=
  decidable_of_iff (word.toList ≠ [] ∧ (word.toList.all fun c => decide (Plain c)) = true) (by simp [IsWord])

def Delimited : List Char → Prop
  | [] => True
  | c :: _ => (Scan.mark? c).isSome ∨ Text.isBlank c = true

-- The word that the letters make, latest first, if there are any.
def endWord (letters : List Char) : List Token :=
  if letters.isEmpty then [] else [.word (String.ofList letters.reverse)]

-- The tokens of a text that follows the letters of an unfinished word.
def cut : List Char → List Char → List Token
  | letters, [] => endWord letters
  | letters, c :: cs =>
      match Scan.mark? c with
      | some token => endWord letters ++ token :: cut [] cs
      | none => if Text.isBlank c then endWord letters ++ cut [] cs else cut (c :: letters) cs

theorem endWord_tokens (s : Scan) :
    s.endWord.tokens.reverse = s.tokens.reverse ++ endWord s.letters ∧ s.endWord.letters = [] := by
  unfold Scan.endWord endWord
  cases inside : s.letters <;> simp [inside]

theorem scan_cut (s : Scan) (cs : List Char) (free : ';' ∉ cs) :
    scan s cs = ⟨s.tokens.reverse ++ cut s.letters cs, none⟩ := by
  induction cs generalizing s with
  | nil => rw [scan, (endWord_tokens s).1, cut]
  | cons c cs ih =>
      have other : c ≠ ';' := fun same => free (same ▸ List.mem_cons_self)
      rw [scan, if_neg other, ih _ fun member => free (List.mem_cons_of_mem _ member), cut]
      obtain ⟨tokens, letters⟩ := endWord_tokens s
      cases marked : Scan.mark? c with
      | some token => simp [Scan.feed, marked, tokens]
      | none =>
          by_cases blank : Text.isBlank c
          · simp [Scan.feed, marked, blank, tokens, letters]
          · simp [Scan.feed, marked, blank]

theorem removeComments_free (cs : List Char) : ';' ∉ removeComments cs := by
  have kept (state : Uncommented) (before : ';' ∉ state.kept) : ';' ∉ (cs.foldl Uncommented.feed state).kept := by
    induction cs generalizing state with
    | nil => exact before
    | cons c cs ih =>
        refine ih _ ?_
        unfold Uncommented.feed
        split
        · rename_i newline
          simp [newline, before]
        · split
          · exact before
          · rename_i other
            simp only [Bool.or_eq_true, decide_eq_true_eq, not_or] at other
            simp [Ne.symm other.2, before]
  simpa [removeComments] using kept ⟨false, []⟩ (by simp)

theorem removeComments_same {cs : List Char} (free : ';' ∉ cs) : removeComments cs = cs := by
  have kept (state : Uncommented) (outside : state.inComment = false) :
      (cs.foldl Uncommented.feed state).kept = cs.reverse ++ state.kept := by
    induction cs generalizing state with
    | nil => rfl
    | cons c cs ih =>
        have other : c ≠ ';' := fun same => free (same ▸ List.mem_cons_self)
        have fed : state.feed c = ⟨false, c :: state.kept⟩ := by
          simp [Uncommented.feed, outside, other]
        rw [List.foldl_cons, fed, ih (fun member => free (List.mem_cons_of_mem _ member)) _ rfl]
        simp
  rw [removeComments, kept ⟨false, []⟩ rfl]
  simp

theorem tokenize_uncommented (cs : List Char) :
    tokenize (removeComments cs) = ⟨cut [] (removeComments cs), none⟩ :=
  scan_cut .start _ (removeComments_free cs)

theorem cut_words {letters cs : List Char} (plain : ∀ c ∈ letters, Plain c) (free : ';' ∉ cs) {word : String}
    (member : .word word ∈ cut letters cs) : IsWord word := by
  have ended {letters : List Char} (plain : ∀ c ∈ letters, Plain c) (member : .word word ∈ endWord letters) :
      IsWord word := by
    cases letters with
    | nil => cases member
    | cons c letters =>
        obtain rfl : word = _ := Token.word.inj (List.mem_singleton.mp member)
        exact ⟨by simp, fun d inside => plain d (by simpa [or_comm] using inside)⟩
  induction cs generalizing letters with
  | nil => exact ended plain member
  | cons c cs ih =>
      have free' : ';' ∉ cs := fun member => free (List.mem_cons_of_mem _ member)
      rw [cut] at member
      split at member
      · rename_i token marked
        rcases List.mem_append.mp member with first | rest
        · exact ended plain first
        · rcases List.mem_cons.mp rest with same | later
          · have noWord : ∀ text, Scan.mark? c ≠ some (.word text) := by
              intro text
              unfold Scan.mark?
              repeat' split
              all_goals simp
            exact absurd (same ▸ marked) (noWord word)
          · exact ih (by simp) free' later
      · rename_i unmarked
        split at member
        · rcases List.mem_append.mp member with first | rest
          · exact ended plain first
          · exact ih (by simp) free' rest
        · rename_i solid
          have other : c ≠ ';' := fun same => free (same ▸ List.mem_cons_self)
          refine ih (fun d inside => ?_) free' member
          rcases List.mem_cons.mp inside with rfl | old
          · exact ⟨unmarked, by simpa using solid, other⟩
          · exact plain d old

theorem cut_delimited (letters : List Char) {rest : List Char} (delimited : Delimited rest) :
    cut letters rest = endWord letters ++ cut [] rest := by
  cases rest with
  | nil => simp [cut, endWord]
  | cons c rest =>
      rw [cut, cut]
      cases marked : Scan.mark? c with
      | some token => simp [endWord]
      | none =>
          have blank : Text.isBlank c = true := delimited.resolve_left (by simp [marked])
          simp [blank, endWord]

theorem cut_letters {cs : List Char} (plain : ∀ c ∈ cs, Plain c) (letters rest : List Char) :
    cut letters (cs ++ rest) = cut (cs.reverse ++ letters) rest := by
  induction cs generalizing letters with
  | nil => rfl
  | cons c cs ih =>
      obtain ⟨unmarked, solid, _⟩ := plain c List.mem_cons_self
      rw [List.cons_append, cut]
      simp only [unmarked, solid, Bool.false_eq_true, if_false]
      rw [ih fun d inside => plain d (List.mem_cons_of_mem _ inside)]
      simp

theorem cut_word {word : String} (isWord : IsWord word) {rest : List Char} (delimited : Delimited rest) :
    cut [] (word.toList ++ rest) = .word word :: cut [] rest := by
  rw [cut_letters isWord.2, cut_delimited _ delimited]
  simp [endWord, isWord.1]

end CurriedLisp.Reader
