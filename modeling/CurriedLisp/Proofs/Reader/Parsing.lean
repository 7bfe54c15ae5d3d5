import CurriedLisp.Proofs.Reader.Grammar
import CurriedLisp.Proofs.Reader.Layout
import Mathlib.Data.List.Induction

set_option autoImplicit false

namespace CurriedLisp.Reader

-- Where a closing parenthesis closes nothing: no list is open, or a quote awaits its form.
def NothingToClose (before : List Token) : Prop :=
  before.count .opening = before.count .closing ∨ before.getLast? = some .quote

-- The tokens hold a closing parenthesis that closes nothing; this is the first of them.
structure FirstStray (tokens before after : List Token) : Prop where
  here : tokens = before ++ .closing :: after
  stray : NothingToClose before
  first : ∀ p q, before = p ++ .closing :: q → ¬ NothingToClose p

def HasStray (tokens : List Token) : Prop :=
  ∃ before after, tokens = before ++ .closing :: after ∧ NothingToClose before

theorem clean_snoc {tokens : List Token} {token : Token} (clean : ¬ HasStray tokens)
    (closes : token = .closing → ¬ NothingToClose tokens) : ¬ HasStray (tokens ++ [token]) := by
  rintro ⟨before, after, shape, nothing⟩
  rcases List.eq_nil_or_concat after with rfl | ⟨middle, last, rfl⟩
  · obtain ⟨same, isClosing⟩ := List.append_inj' shape rfl
    exact closes (List.cons.inj isClosing).1 (same ▸ nothing)
  · have longer : tokens ++ [token] = (before ++ .closing :: middle) ++ [last] := by simpa using shape
    obtain ⟨same, _⟩ := List.append_inj' longer rfl
    exact clean ⟨before, middle, same, nothing⟩

def closingError (before : List Token) : Error :=
  if before.getLast? = some .quote then .closeAfterQuote else .unexpectedClose

def endingError (tokens : List Token) : Error :=
  if tokens.getLast? = some .quote then .nothingToQuote else .unmatchedOpen

mutual
theorem tree_balanced (tree : Tree) : tree.tokens.count .opening = tree.tokens.count .closing := by
  cases tree with
  | word text => rfl
  | quote inner => simpa [Tree.tokens] using tree_balanced inner
  | list items => simp [Tree.tokens, trees_balanced items]
theorem trees_balanced (trees : List Tree) : (tokensOf trees).count .opening = (tokensOf trees).count .closing := by
  cases trees with
  | nil => rfl
  | cons tree rest => simp [tokensOf, tree_balanced tree, trees_balanced rest]
end

theorem tree_last (tree : Tree) : ∃ before last, tree.tokens = before ++ [last] ∧ last ≠ .quote ∧ last ≠ .opening := by
  induction tree using Tree.rec (motive_2 := fun _ => True) with
  | word text => exact ⟨[], .word text, rfl, by simp, by simp⟩
  | quote inner ih =>
      obtain ⟨before, last, shape, facts⟩ := ih
      exact ⟨.quote :: before, last, by rw [Tree.tokens, shape]; rfl, facts⟩
  | list items _ => exact ⟨.opening :: tokensOf items, .closing, rfl, by simp, by simp⟩
  | nil => trivial
  | cons _ _ _ _ => trivial

theorem trees_last (trees : List Tree) : (tokensOf trees).getLast? ≠ some .quote := by
  induction trees using List.reverseRecOn with
  | nil => exact List.getLast?_nil ▸ (Option.some_ne_none _).symm
  | append_singleton trees tree _ =>
      obtain ⟨before, last, shape, notQuote, _⟩ := tree_last tree
      have ends : tokensOf (trees ++ [tree]) = tokensOf trees ++ before ++ [last] := by
        rw [tokensOf_append, tokensOf, tokensOf, List.append_nil, shape, List.append_assoc]
      rw [ends, List.getLast?_concat]
      exact fun same => notQuote (Option.some.inj same)

namespace Stage

def lists : List Open → Nat
  | [] => 0
  | .list _ :: opens => lists opens + 1
  | .quote :: opens => lists opens

theorem tokens_counts (s : Stage) : s.tokens.count .opening = s.tokens.count .closing + lists s.opens := by
  have spines (opens : List Open) : (spine opens).count .opening = (spine opens).count .closing + lists opens := by
    induction opens with
    | nil => rfl
    | cons inner opens ih =>
        cases inner with
        | list items =>
            simp only [spine, Open.tokens, lists, List.count_append, List.count_cons, ih, trees_balanced]
            simp
            omega
        | quote =>
            simp only [spine, Open.tokens, lists, List.count_append, ih]
            simp
  simp only [tokens, List.count_append, trees_balanced, spines]
  omega

theorem tokens_last (s : Stage) : s.tokens.getLast? = some .quote ↔ ∃ opens, s.opens = .quote :: opens := by
  obtain ⟨done, opens⟩ := s
  cases opens with
  | nil =>
      simp only [tokens, spine, List.append_nil]
      refine ⟨fun last => absurd last (trees_last _), ?_⟩
      rintro ⟨_, ⟨⟩⟩
  | cons inner opens =>
      cases inner with
      | quote => simp [tokens, spine, Open.tokens]
      | list items =>
          refine ⟨fun last => ?_, by rintro ⟨_, ⟨⟩⟩⟩
          simp only [tokens, spine, Open.tokens, List.getLast?_append, List.getLast?_cons, Option.some_or] at last
          have inside := trees_last items.reverse
          cases ends : (tokensOf items.reverse).getLast? with
          | none =>
              rw [ends] at last
              cases last
          | some token =>
              rw [ends] at last inside
              exact absurd last inside

theorem nothingToClose_iff (s : Stage) : NothingToClose s.tokens ↔ ∀ items opens, s.opens ≠ .list items :: opens := by
  unfold NothingToClose
  rw [tokens_last, tokens_counts]
  cases s.opens with
  | nil => simp [lists]
  | cons inner opens =>
      cases inner with
      | list items => simp [lists]
      | quote => simp

theorem step_closing (depth : Nat) {s : Stage} (stray : NothingToClose s.tokens) :
    s.step depth .closing = .error (.error (closingError s.tokens)) := by
  have none := (nothingToClose_iff s).mp stray
  have last := tokens_last s
  unfold closingError
  simp only [step]
  generalize s.opens = opens at none last
  cases opens with
  | nil =>
      rw [if_neg]
      intro quote
      obtain ⟨_, ⟨⟩⟩ := last.mp quote
  | cons inner opens =>
      cases inner with
      | list items => exact absurd rfl (none items opens)
      | quote => rw [if_pos (last.mpr ⟨opens, rfl⟩)]

theorem step_other (depth : Nat) {s : Stage} {token : Token} (closes : token = .closing → ¬ NothingToClose s.tokens) :
    (∃ next, s.step depth token = .ok next) ∨ s.step depth token = .error .tooDeep := by
  cases token with
  | word text => exact .inl ⟨_, rfl⟩
  | opening | quote =>
      simp only [step, push]
      split
      · exact .inl ⟨_, rfl⟩
      · exact .inr rfl
  | closing =>
      obtain ⟨items, opens, shape⟩ : ∃ items opens, s.opens = .list items :: opens := by
        simpa using mt (nothingToClose_iff s).mpr (closes rfl)
      exact .inl ⟨plug (.list items.reverse) s.done opens, by simp only [step, shape]⟩

-- However the run ends, it tells where the tokens stand: none is stray, or this is the first one, or they nest too
-- deep.
theorem run_cases (depth : Nat) (s : Stage) (rest : List Token) (clean : ¬ HasStray s.tokens) :
    (∃ next, s.run depth rest = (next, none) ∧ next.tokens = s.tokens ++ rest ∧ ¬ HasStray next.tokens) ∨
      (∃ next before after, s.run depth rest = (next, some (.error (closingError before))) ∧
        FirstStray (s.tokens ++ rest) before after) ∨
      ∃ next, s.run depth rest = (next, some .tooDeep) := by
  induction rest generalizing s with
  | nil => exact .inl ⟨s, rfl, (List.append_nil _).symm, clean⟩
  | cons token rest ih =>
      by_cases stray : token = .closing ∧ NothingToClose s.tokens
      · obtain ⟨rfl, nothing⟩ := stray
        refine .inr (.inl ⟨s, s.tokens, rest, ?_, rfl, nothing, fun p q shape found => clean ⟨p, q, shape, found⟩⟩)
        simp only [run, step_closing depth nothing]
      · have closes : token = .closing → ¬ NothingToClose s.tokens :=
          fun isClosing nothing => stray ⟨isClosing, nothing⟩
        obtain ⟨next, stepped⟩ | deep := step_other depth closes
        · have grown := step_tokens stepped
          have still : ¬ HasStray next.tokens := by
            rw [grown]
            exact clean_snoc clean closes
          have later := ih next still
          simp only [run, stepped]
          rwa [grown, List.append_assoc, List.singleton_append] at later
        · exact .inr (.inr ⟨s, by simp only [run, deep]⟩)

theorem completes (s : Stage) : ∃ more trees, tokensOf trees = s.tokens ++ more ∧ (more = [] → s.opens = []) := by
  obtain ⟨done, opens⟩ := s
  induction size : opens.length using Nat.strongRecOn generalizing done opens with
  | ind n ih =>
      subst size
      cases opens with
      | nil => exact ⟨[], done.reverse, by simp [tokens, spine], fun _ => rfl⟩
      | cons inner opens =>
          cases inner with
          | list items =>
              have closed : (plug (.list items.reverse) done opens).tokens =
                  (⟨done, .list items :: opens⟩ : Stage).tokens ++ [.closing] := by
                rw [plug_tokens]
                simp [tokens, spine, Open.tokens, Tree.tokens]
              obtain ⟨more, trees, shape, _⟩ :=
                ih _ (Nat.lt_succ_of_le (plug_length (.list items.reverse) done opens)) _ _ rfl
              exact ⟨.closing :: more, trees, by rw [shape, closed]; simp, fun none => (List.cons_ne_nil _ _ none).elim⟩
          | quote =>
              have filled : (plug (.quote (.word "x")) done opens).tokens =
                  (⟨done, .quote :: opens⟩ : Stage).tokens ++ [.word "x"] :=
                plug_tokens (.word "x") done (.quote :: opens)
              obtain ⟨more, trees, shape, _⟩ :=
                ih _ (Nat.lt_succ_of_le (plug_length (.quote (.word "x")) done opens)) _ _ rfl
              exact ⟨.word "x" :: more, trees, by rw [shape, filled]; simp,
                fun none => (List.cons_ne_nil _ _ none).elim⟩

theorem opens_nil {s : Stage} {trees : List Tree} (program : tokensOf trees = s.tokens) : s.opens = [] := by
  have counts := tokens_counts s
  have last := tokens_last s
  rw [← program] at counts last
  rw [trees_balanced] at counts
  cases inside : s.opens with
  | nil => rfl
  | cons inner opens =>
      cases inner with
      | list items =>
          rw [inside, lists] at counts
          omega
      | quote => exact absurd (last.mpr ⟨opens, inside⟩) (trees_last trees)

theorem tokensOf_eq_tokens {s : Stage} {trees : List Tree} :
    tokensOf trees = s.tokens ↔ s.opens = [] ∧ trees = s.done.reverse := by
  have whole (closed : s.opens = []) : tokensOf s.done.reverse = s.tokens := by
    rw [tokens, closed]
    exact (List.append_nil _).symm
  constructor
  · intro program
    have closed := opens_nil program
    exact ⟨closed, tokensOf_injective (program.trans (whole closed).symm)⟩
  · rintro ⟨closed, rfl⟩
    exact whole closed

def result : Stage × Option Failure → Except Failure Value
  | (_, some e) => .error e
  | (s, none) =>
      match s.opens with
      | [] => .ok (.pair (.sym "begin") (.ofList (valuesOf s.done.reverse)))
      | _ => .error (.error (endingError s.tokens))

theorem result_closed {s : Stage} (closed : s.opens = []) :
    result (s, none) = .ok (.pair (.sym "begin") (.ofList (valuesOf s.done.reverse))) := by
  rw [result, closed]

theorem result_open {s : Stage} (opened : s.opens ≠ []) :
    result (s, none) = .error (.error (endingError s.tokens)) := by
  rw [result]
  cases inside : s.opens with
  | nil => exact absurd inside opened
  | cons inner opens => rfl

end Stage

def tokensIn (text : String) : Stream := tokenize (removeComments text.toList)

def Short (tokens : List Token) : Prop :=
  ∀ word, .word word ∈ tokens → ∀ m, Text.Numeral.ofChars? word.toList = some m → m.digits.length ≤ Text.digitLimit

theorem Short.atom {tokens : List Token} (short : Short tokens) (word : String) (member : .word word ∈ tokens) :
    ∃ v, Reader.atom word = .ok v := by
  unfold Reader.atom
  cases literal? word with
  | some v => exact ⟨v, rfl⟩
  | none =>
      cases numeral : Text.Numeral.ofChars? word.toList with
      | none => exact ⟨.sym word, rfl⟩
      | some m =>
          refine ⟨.int m.value, ?_⟩
          simp only [Text.Numeral.read, if_pos (short word member m numeral), Except.map]

theorem parse_run (depth : Nat) (text : String)
    (short : Short (tokensIn text).tokens) :
    parse depth text = Stage.result (Stage.start.run depth (tokensIn text).tokens) := by
  have read := Stage.readAllFrom_run depth (tokensIn text).fault .start (tokensIn text).tokens short.atom
  have complete : (tokensIn text).fault = none := by rw [tokensIn, tokenize_uncommented]
  have all : readAll depth text.toList = Stage.reading none (Stage.start.run depth (tokensIn text).tokens) := by
    rw [complete] at read
    refine Eq.trans ?_ read
    unfold readAll Stream.forms
    change readAllFrom depth (tokensIn text).fault [] [] (tokensIn text).tokens = _
    rw [complete]
    rfl
  unfold parse
  rw [all]
  generalize Stage.start.run depth (tokensIn text).tokens = stop
  obtain ⟨s, failure⟩ := stop
  cases failure with
  | some e => rfl
  | none =>
      have last := s.tokens_last
      simp only [Stage.reading, Stage.result, endingError]
      cases inside : s.opens with
      | nil => simp [atEnd, valuesOf_eq]
      | cons inner opens =>
          rw [inside] at last
          cases inner with
          | list items => simp [atEnd, Open.frame, last]
          | quote => simp [atEnd, Open.frame, last]

theorem clean_of_continuation {tokens more : List Token} {trees : List Tree}
    (program : tokensOf trees = tokens ++ more) : ¬ HasStray tokens := by
  have whole := Stage.run_program trees (Nat.le_refl (nestingOf trees)) []
  rw [List.append_nil, program, Stage.run_append] at whole
  have clean : ¬ HasStray Stage.start.tokens := by
    rintro ⟨before, after, shape, _⟩
    cases before <;> cases shape
  obtain ⟨next, ran, shape, still⟩ | ⟨next, before, after, ran, _⟩ | ⟨next, ran⟩ :=
    Stage.run_cases (nestingOf trees) .start tokens clean
  · rw [shape] at still
    exact still
  · rw [ran] at whole
    cases whole
  · rw [ran] at whole
    cases whole

/-- The parser accepts the programs of the grammar, each by its one derivation, and every other text it refuses for
the first closing parenthesis that closes nothing or, if there is none, for what is open where the text ends. -/
theorem parser_decides_grammar (depth : Nat) (text : String)
    (short : Short (tokensIn text).tokens)
    (fits : parse depth text ≠ .error .tooDeep) :
    let tokens := (tokensIn text).tokens
    (tokensIn text).fault = none ∧
    (∀ trees, tokensOf trees = tokens →
      parse depth text = .ok (.pair (.sym "begin") (.ofList (valuesOf trees))) ∧
        ∀ trees', tokensOf trees' = tokens → trees' = trees) ∧
    ((∃ program, parse depth text = .ok program) → ∃ trees, tokensOf trees = tokens) ∧
    (HasStray tokens → ∃ before after, FirstStray tokens before after ∧
      parse depth text = .error (.error (closingError before))) ∧
    (HasStray tokens ↔ ¬ ∃ more trees, tokensOf trees = tokens ++ more) ∧
    (¬ HasStray tokens → (¬ ∃ trees, tokensOf trees = tokens) →
      (∃ more trees, more ≠ [] ∧ tokensOf trees = tokens ++ more) ∧
        parse depth text = .error (.error (endingError tokens))) := by
  intro tokens
  have parsed := parse_run depth text short
  have complete : (tokensIn text).fault = none := by rw [tokensIn, tokenize_uncommented]
  have empty : ¬ HasStray Stage.start.tokens := by
    rintro ⟨before, after, shape, _⟩
    cases before <;> cases shape
  obtain ⟨next, ran, shape, clean⟩ | ⟨next, before, after, ran, stray⟩ | ⟨next, ran⟩ :=
    Stage.run_cases depth .start tokens empty
  · -- The tokens end where the grammar allows them to go on.
    have outcome : parse depth text = Stage.result (next, none) := by rw [parsed, ran]
    change next.tokens = tokens at shape
    obtain ⟨more, continued, continues, finished⟩ := next.completes
    have derived (trees : List Tree) : tokensOf trees = tokens ↔ next.opens = [] ∧ trees = next.done.reverse :=
      shape ▸ Stage.tokensOf_eq_tokens
    rw [shape] at clean continues
    refine ⟨complete,
      fun trees program => ⟨?_, fun trees' program' => tokensOf_injective (program'.trans program.symm)⟩, ?_,
      fun found => absurd found clean,
      ⟨fun found => absurd found clean, fun hopeless => absurd ⟨more, continued, continues⟩ hopeless⟩,
      fun _ unfinished => ?_⟩
    · obtain ⟨closed, rfl⟩ := (derived trees).mp program
      rw [outcome, Stage.result_closed closed]
    · rintro ⟨program, accepts⟩
      by_cases closed : next.opens = []
      · exact ⟨_, (derived _).mpr ⟨closed, rfl⟩⟩
      · rw [outcome, Stage.result_open closed] at accepts
        cases accepts
    · have opened : next.opens ≠ [] := fun closed => unfinished ⟨_, (derived _).mpr ⟨closed, rfl⟩⟩
      refine ⟨⟨more, continued, fun none => opened (finished none), continues⟩, ?_⟩
      rw [outcome, Stage.result_open opened, shape]
  · -- A closing parenthesis is refused, and no continuation of what stands before it can be a program.
    have outcome : parse depth text = .error (.error (closingError before)) := by rw [parsed, ran, Stage.result]
    change FirstStray tokens before after at stray
    have found : HasStray tokens := ⟨before, after, stray.here, stray.stray⟩
    have hopeless : ∀ more trees, tokensOf trees ≠ tokens ++ more :=
      fun more trees program => clean_of_continuation program found
    refine ⟨complete, fun trees program => ?_, ?_, fun _ => ⟨before, after, stray, outcome⟩,
      ⟨fun _ => ?_, fun _ => found⟩, fun clean => absurd found clean⟩
    · exact absurd (program.trans (List.append_nil tokens).symm) (hopeless [] trees)
    · rintro ⟨program, accepts⟩
      rw [outcome] at accepts
      cases accepts
    · rintro ⟨more, trees, program⟩
      exact hopeless more trees program
  · rw [parsed, ran] at fits
    exact absurd rfl fits

theorem parser_decides_grammar_stray :
    let text := "(a ')) (b"
    let tokens := (tokensIn text).tokens
    Short tokens ∧ parse 9 text ≠ .error .tooDeep ∧ HasStray tokens ∧
      (∃ before after, FirstStray tokens before after ∧ parse 9 text = .error (.error (closingError before))) ∧
      ¬ ∃ more trees, tokensOf trees = tokens ++ more := by
  intro text tokens
  have found : tokens = [.opening, .word "a", .quote, .closing, .closing, .opening, .word "b"] := by decide +kernel
  have short : Short tokens := by
    intro word member m numeral
    rw [found] at member
    simp only [List.mem_cons, Token.word.injEq, reduceCtorEq, List.not_mem_nil, false_or, or_false] at member
    have names : Text.Numeral.ofChars? "a".toList = none ∧ Text.Numeral.ofChars? "b".toList = none := by decide
    rcases member with rfl | rfl
    · cases names.1.symm.trans numeral
    · cases names.2.symm.trans numeral
  have fits : parse 9 text ≠ .error .tooDeep := by decide +kernel
  have stray : HasStray tokens :=
    ⟨[.opening, .word "a", .quote], [.closing, .opening, .word "b"], found, .inr rfl⟩
  obtain ⟨_, _, _, refused, hopeless, _⟩ := parser_decides_grammar 9 text short fits
  exact ⟨short, fits, stray, refused stray, hopeless.mp stray⟩

end CurriedLisp.Reader
