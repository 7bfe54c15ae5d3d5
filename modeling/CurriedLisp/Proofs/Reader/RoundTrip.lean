import CurriedLisp.Proofs.Reader.Grammar
import CurriedLisp.Proofs.Reader.Layout
import CurriedLisp.Proofs.Text.Decimal
import CurriedLisp.Proofs.Value.Written

set_option autoImplicit false

namespace CurriedLisp

-- How deep pairs lie in one another; the items of a list lie at the same depth.
def Value.nesting : Value → Nat
  | pair first second => max (first.nesting + 1) second.nesting
  | closure _ _ body _ => body.nesting + 1
  | _ => 0

namespace Reader

structure IsName (name : String) : Prop where
  word : IsWord name
  notLiteral : literal? name = none
  notNumeral : Text.Numeral.ofChars? name.toList = none

inductive Readable : Value → Prop where
  | int {n : Int} : n.natAbs < 10 ^ Text.digitLimit → Readable (.int n)
  | bool (b : Bool) : Readable (.bool b)
  | nil : Readable .nil
  | sym {name : String} : IsName name → Readable (.sym name)
  | list {items : List Value} : (∀ v ∈ items, Readable v) → Readable (.ofList items)

theorem isName_quote : IsName "quote" := ⟨by decide, by decide, by decide⟩

theorem digitChar_plain {d : Nat} (small : d < 10) : Plain (Nat.digitChar d) := by
  revert d
  decide

theorem writeInt_word (n : Int) : IsWord (Text.writeInt n) := by
  refine ⟨?_, fun c member => ?_⟩
  · rw [Text.writeInt_chars]
    simp [Nat.toDigits_ne_nil]
  · rw [Text.writeInt_chars] at member
    rcases List.mem_append.mp member with sign | digit
    · split at sign
      · rw [List.mem_singleton.mp sign]
        decide
      · cases sign
    · obtain ⟨d, small, rfl⟩ := Text.toDigits_digit digit
      exact digitChar_plain small

theorem literal_hash {word : String} {v : Value} (found : literal? word = some v) : word.toList.head? = some '#' := by
  unfold literal? at found
  split at found
  · decide
  · decide
  · decide
  · cases found

theorem atom_writeInt {n : Int} (small : n.natAbs < 10 ^ Text.digitLimit) : atom (Text.writeInt n) = .ok (.int n) := by
  obtain ⟨m, read, value, lengths⟩ := Text.ofChars_writeInt n
  have noLiteral : literal? (Text.writeInt n) = none := by
    cases found : literal? (Text.writeInt n) with
    | none => rfl
    | some v =>
        have hash := List.mem_of_mem_head? (Option.mem_def.mpr (literal_hash found))
        rw [Text.writeInt_chars] at hash
        rcases List.mem_append.mp hash with sign | digit
        · split at sign <;> simp at sign
        · obtain ⟨d, small, same⟩ := Text.toDigits_digit digit
          interval_cases d <;> cases same
  have short : m.digits.length ≤ Text.digitLimit := by
    rw [lengths]
    exact (Nat.length_toDigits_le_iff (by omega) (by decide)).mpr small
  simp only [atom, noLiteral, read, Text.Numeral.read, if_pos short, Except.map, value]

theorem atom_readable {word : String} (isWord : IsWord word) {v : Value} (read : atom word = .ok v) : Readable v := by
  unfold atom at read
  cases found : literal? word with
  | some w =>
      rw [found] at read
      cases read
      unfold literal? at found
      split at found
      · cases found
        exact .bool true
      · cases found
        exact .bool false
      · cases found
        exact .nil
      · cases found
  | none =>
      rw [found] at read
      cases numeral : Text.Numeral.ofChars? word.toList with
      | none =>
          rw [numeral] at read
          cases read
          exact .sym ⟨isWord, found, numeral⟩
      | some m =>
          simp only [numeral, Text.Numeral.read] at read
          by_cases short : m.digits.length ≤ Text.digitLimit
          · rw [if_pos short] at read
            cases read
            have value : m.value.natAbs = Text.Numeral.natValue m.digits := by
              unfold Text.Numeral.value
              split <;> omega
            refine .int ?_
            calc m.value.natAbs = Text.Numeral.natValue m.digits := value
              _ < 10 ^ m.digits.length := Text.Numeral.natValue_lt _ (Text.ofChars_small numeral)
              _ ≤ 10 ^ Text.digitLimit := Nat.pow_le_pow_right (by omega) short
          · rw [if_neg short] at read
            cases read

theorem Readable.quoted {v : Value} (readable : Readable v) : Readable v.quoted := by
  have both : ∀ w ∈ [Value.sym "quote", v], Readable w := by
    intro w member
    rcases List.mem_cons.mp member with rfl | inside
    · exact .sym isName_quote
    · rw [List.mem_singleton.mp inside]
      exact readable
  exact .list both

def Frame.Readable : Frame → Prop
  | .list items => ∀ v ∈ items, Reader.Readable v
  | .quote => True

def Progress.Readable : Progress → Prop
  | .complete form => Reader.Readable form
  | .partway frames => ∀ frame ∈ frames, frame.Readable

theorem plug_readable {form : Value} {frames : List Frame} (readable : Readable form)
    (opened : ∀ frame ∈ frames, frame.Readable) : (plug form frames).Readable := by
  induction frames generalizing form with
  | nil => exact readable
  | cons frame frames ih =>
      have others : ∀ f ∈ frames, f.Readable := fun f member => opened f (List.mem_cons_of_mem _ member)
      cases frame with
      | list items =>
          have old : ∀ v ∈ items, Readable v := opened (.list items) List.mem_cons_self
          intro f member
          rcases List.mem_cons.mp member with rfl | inside
          · intro v inside
            rcases List.mem_cons.mp inside with rfl | before
            · exact readable
            · exact old v before
          · exact others f inside
      | quote => exact ih readable.quoted others

theorem feed_readable {depth : Nat} {frames : List Frame} {token : Token} {progress : Progress}
    (words : ∀ word, token = .word word → IsWord word) (opened : ∀ frame ∈ frames, frame.Readable)
    (fed : feed depth frames token = .ok progress) : progress.Readable := by
  have pushed {frame : Frame} (readable : frame.Readable) (fed : push depth frame frames = .ok progress) :
      progress.Readable := by
    unfold push at fed
    split at fed
    · cases fed
      intro f member
      rcases List.mem_cons.mp member with rfl | inside
      · exact readable
      · exact opened f inside
    · cases fed
  cases token with
  | word text =>
      simp only [feed] at fed
      cases read : atom text with
      | error e =>
          rw [read] at fed
          cases fed
      | ok v =>
          rw [read] at fed
          cases fed
          exact plug_readable (atom_readable (words text rfl) read) opened
  | opening =>
      have empty : (Frame.list []).Readable := fun v member => (List.not_mem_nil member).elim
      exact pushed empty fed
  | quote =>
      have awaiting : Frame.quote.Readable := trivial
      exact pushed awaiting fed
  | closing =>
      simp only [feed] at fed
      split at fed
      · cases fed
      · cases fed
      · rename_i items others
        cases fed
        have old : ∀ v ∈ items, Readable v := opened (.list items) List.mem_cons_self
        refine plug_readable (.list fun v member => old v (List.mem_reverse.mp member)) fun f member => ?_
        exact opened f (List.mem_cons_of_mem _ member)

theorem readAllFrom_readable {depth : Nat} {fault : Option Error} {done : List Value} {frames : List Frame}
    {tokens : List Token} (words : ∀ word, .word word ∈ tokens → IsWord word) (finished : ∀ v ∈ done, Readable v)
    (opened : ∀ frame ∈ frames, frame.Readable) :
    ∀ v ∈ (readAllFrom depth fault done frames tokens).forms, Readable v := by
  induction tokens generalizing done frames with
  | nil =>
      rw [readAllFrom]
      split <;> exact fun v member => finished v (List.mem_reverse.mp member)
  | cons token rest ih =>
      have later : ∀ word, .word word ∈ rest → IsWord word :=
        fun word member => words word (List.mem_cons_of_mem _ member)
      have now : ∀ word, token = .word word → IsWord word := fun word same => words word (same ▸ List.mem_cons_self)
      rw [readAllFrom]
      split
      · rename_i form fed
        have readable : Readable form := feed_readable now opened fed
        refine ih later (fun v member => ?_) fun f member => (List.not_mem_nil member).elim
        rcases List.mem_cons.mp member with rfl | old
        · exact readable
        · exact finished v old
      · rename_i frames fed
        exact ih later finished (feed_readable now opened fed)
      · exact fun v member => finished v (List.mem_reverse.mp member)

theorem readAll_readable (depth : Nat) (cs : List Char) : ∀ v ∈ (readAll depth cs).forms, Readable v := by
  unfold readAll Stream.forms
  rw [tokenize_uncommented]
  refine readAllFrom_readable (fun word member => ?_) (fun v member => (List.not_mem_nil member).elim)
    fun f member => (List.not_mem_nil member).elim
  exact cut_words (by simp) (removeComments_free cs) member

-- A tree that has the value and whose tokens are those of the written form, wherever it stands.
structure Spelled (v : Value) (tree : Tree) : Prop where
  value : tree.value = v
  nesting : tree.nesting ≤ v.nesting
  words : ∀ word, .word word ∈ tree.tokens → ∃ u, atom word = .ok u
  free : ';' ∉ v.text.toList
  tokens : ∀ rest, Delimited rest → cut [] (v.text.toList ++ rest) = tree.tokens ++ cut [] rest

theorem spelled_word {v : Value} {word : String} (isWord : IsWord word) (read : atom word = .ok v)
    (text : v.text = word) : Spelled v (.word word) := by
  refine ⟨(atom_value read).symm, Nat.zero_le _, fun other member => ?_, ?_, fun rest delimited => ?_⟩
  · obtain rfl : other = word := Token.word.inj (List.mem_singleton.mp member)
    exact ⟨v, read⟩
  · rw [text]
    exact fun member => (isWord.2 ';' member).2.2 rfl
  · rw [text]
    exact cut_word isWord delimited

theorem write_out (v : Value) (rest : Bool) (out : String) : v.write rest out = out ++ v.write rest "" := by
  simpa using v.write_append rest out ""

theorem text_quoted (v : Value) : v.quoted.text = "'" ++ v.text := write_out v false "'"

theorem text_list {first second : Value} (notQuoted : ∀ v, .pair first second ≠ Value.quoted v) :
    (Value.pair first second).text = "(" ++ first.text ++ second.write true "" := by
  rw [Value.text, Value.write, write_out, write_out first]
  · rfl
  · intro v _ isQuote last
    exact notQuoted v (by rw [isQuote, last]; rfl)

theorem write_tail (first second : Value) :
    (Value.pair first second).write true "" = " " ++ first.text ++ second.write true "" := by
  rw [Value.write, write_out, write_out first]
  · rfl
  · intro v never
    cases never

theorem cut_opening (rest : List Char) : cut [] ("(".toList ++ rest) = .opening :: cut [] rest := by
  change cut [] ('(' :: rest) = _
  simp [cut, Scan.mark?, endWord]

theorem cut_closing (rest : List Char) : cut [] (")".toList ++ rest) = .closing :: cut [] rest := by
  change cut [] (')' :: rest) = _
  simp [cut, Scan.mark?, endWord]

theorem cut_quote (rest : List Char) : cut [] ("'".toList ++ rest) = .quote :: cut [] rest := by
  change cut [] ('\'' :: rest) = _
  simp [cut, Scan.mark?, endWord]

theorem cut_space (rest : List Char) : cut [] (" ".toList ++ rest) = cut [] rest := by
  change cut [] (' ' :: rest) = _
  simp [cut, Scan.mark?, endWord, Text.isBlank_space]

theorem delimited_tail (items : List Value) (rest : List Char) :
    Delimited (((Value.ofList items).write true "").toList ++ rest) := by
  cases items with
  | nil => exact .inl rfl
  | cons first others =>
      have shape := write_tail first (.ofList others)
      change Delimited (((Value.pair first (.ofList others)).write true "").toList ++ rest)
      rw [shape]
      simp only [String.toList_append, List.append_assoc]
      exact .inr Text.isBlank_space

-- The same of the items that follow in a list, up to the parenthesis that closes it.
structure SpelledTail (items : List Value) (trees : List Tree) : Prop where
  values : valuesOf trees = items
  nesting : nestingOf trees ≤ (Value.ofList items).nesting - 1
  words : ∀ word, .word word ∈ tokensOf trees → ∃ u, atom word = .ok u
  free : ';' ∉ ((Value.ofList items).write true "").toList
  tokens : ∀ rest, cut [] (((Value.ofList items).write true "").toList ++ rest) =
    tokensOf trees ++ .closing :: cut [] rest

theorem spelled_tail {items : List Value} (each : ∀ v ∈ items, ∃ tree, Spelled v tree) :
    ∃ trees, SpelledTail items trees := by
  induction items with
  | nil => exact ⟨[], rfl, Nat.zero_le _, fun word member => (List.not_mem_nil member).elim, by decide, cut_closing⟩
  | cons first others ih =>
      obtain ⟨tree, spelled⟩ := each first List.mem_cons_self
      obtain ⟨trees, tail⟩ := ih fun v member => each v (List.mem_cons_of_mem _ member)
      have shape : (Value.ofList (first :: others)).write true "" =
          " " ++ first.text ++ (Value.ofList others).write true "" := write_tail first (.ofList others)
      refine ⟨tree :: trees, ?_, ?_, fun word member => ?_, ?_, fun rest => ?_⟩
      · rw [valuesOf, tail.values, spelled.value]
      · have inner := spelled.nesting
        have outer := tail.nesting
        change max tree.nesting (nestingOf trees) ≤ max (first.nesting + 1) (Value.ofList others).nesting - 1
        omega
      · rcases List.mem_append.mp member with here | later
        · exact spelled.words word here
        · exact tail.words word later
      · rw [shape]
        simp only [String.toList_append, List.mem_append, not_or]
        exact ⟨⟨by decide, spelled.free⟩, tail.free⟩
      · rw [shape]
        simp only [String.toList_append, List.append_assoc]
        rw [cut_space, spelled.tokens _ (delimited_tail others rest), tail.tokens, tokensOf, List.append_assoc]

theorem spelled_list {first : Value} {others : List Value}
    (notQuoted : ∀ v : Value, Value.ofList (first :: others) ≠ v.quoted)
    (each : ∀ v ∈ first :: others, ∃ tree, Spelled v tree) : ∃ tree, Spelled (.ofList (first :: others)) tree := by
  obtain ⟨tree, spelled⟩ := each first List.mem_cons_self
  obtain ⟨trees, tail⟩ := spelled_tail fun v member => each v (List.mem_cons_of_mem first member)
  have text : (Value.ofList (first :: others)).text = "(" ++ first.text ++ (Value.ofList others).write true "" :=
    text_list notQuoted
  refine ⟨.list (tree :: trees), ?_, ?_, fun word member => ?_, ?_, fun rest _ => ?_⟩
  · rw [Tree.value, valuesOf, tail.values, spelled.value]
  · have inner := spelled.nesting
    have outer := tail.nesting
    change max tree.nesting (nestingOf trees) + 1 ≤ max (first.nesting + 1) (Value.ofList others).nesting
    omega
  · simp only [Tree.tokens, tokensOf, List.mem_cons, List.mem_append, reduceCtorEq, false_or, List.not_mem_nil,
      or_false] at member
    exact member.elim (spelled.words word) (tail.words word)
  · rw [text]
    simp only [String.toList_append, List.mem_append, not_or]
    exact ⟨⟨by decide, spelled.free⟩, tail.free⟩
  · rw [text]
    simp only [String.toList_append, List.append_assoc]
    rw [cut_opening, spelled.tokens _ (delimited_tail others rest), tail.tokens]
    simp [Tree.tokens, tokensOf]

theorem Spelled.quoted {v : Value} {tree : Tree} (spelled : Spelled v tree) : Spelled v.quoted (.quote tree) := by
  refine ⟨by rw [Tree.value, spelled.value], ?_, fun word member => ?_, ?_, fun rest delimited => ?_⟩
  · have inner := spelled.nesting
    change tree.nesting + 1 ≤ max (0 + 1) (max (v.nesting + 1) 0)
    omega
  · rcases List.mem_cons.mp member with never | inside
    · cases never
    · exact spelled.words word inside
  · rw [text_quoted]
    simp only [String.toList_append, List.mem_append, not_or]
    exact ⟨by decide, spelled.free⟩
  · rw [text_quoted]
    simp only [String.toList_append, List.append_assoc]
    rw [cut_quote, spelled.tokens rest delimited, Tree.tokens, List.cons_append]

theorem Readable.spelled {v : Value} (readable : Readable v) : ∃ tree, Spelled v tree := by
  induction readable with
  | @int n small => exact ⟨_, spelled_word (writeInt_word n) (atom_writeInt small) rfl⟩
  | bool b =>
      cases b with
      | true => exact ⟨.word "#true", spelled_word (by decide) rfl rfl⟩
      | false => exact ⟨.word "#false", spelled_word (by decide) rfl rfl⟩
  | nil => exact ⟨.word "#nil", spelled_word (by decide) rfl rfl⟩
  | @sym name isName =>
      refine ⟨.word name, spelled_word isName.word ?_ rfl⟩
      simp only [atom, isName.notLiteral, isName.notNumeral]
  | @list items _ each =>
      cases items with
      | nil => exact ⟨.word "#nil", spelled_word (by decide) rfl rfl⟩
      | cons first others =>
          by_cases isQuoted : ∃ v : Value, Value.ofList (first :: others) = v.quoted
          · obtain ⟨v, shape⟩ := isQuoted
            rw [shape]
            have member : v ∈ first :: others := by
              have items := congrArg Value.items shape
              rw [Value.items_ofList] at items
              rw [items]
              simp [Value.quoted, Value.items]
            obtain ⟨tree, spelled⟩ := each v member
            exact ⟨_, spelled.quoted⟩
          · exact spelled_list (fun v same => isQuoted ⟨v, same⟩) each

theorem Readable.fits {v : Value} (readable : Readable v) {depth : Nat} (shallow : v.nesting ≤ depth) :
    v.obstacle? depth = none := by
  induction readable generalizing depth with
  | @int n small =>
      simp [Value.obstacle?, (Text.isWritable_iff n).mpr small]
  | bool b => rfl
  | nil => rfl
  | sym isName => rfl
  | @list items readable each =>
      clear readable
      induction items with
      | nil => rfl
      | cons first others ih =>
          have both : max (first.nesting + 1) (Value.ofList others).nesting ≤ depth := shallow
          obtain ⟨d, rfl⟩ : ∃ d, depth = d + 1 := ⟨depth - 1, by omega⟩
          change (Value.pair first (.ofList others)).obstacle? (d + 1) = none
          rw [Value.obstacle_pair, each first List.mem_cons_self (by omega),
            ih (fun v member => each v (List.mem_cons_of_mem _ member)) (by omega)]
          rfl

theorem read_written {v : Value} (readable : Readable v) {depth : Nat} (shallow : v.nesting ≤ depth) :
    readAll depth v.text.toList = ⟨[v], none⟩ := by
  obtain ⟨tree, spelled⟩ := readable.spelled
  have tokens : tokenize v.text.toList = ⟨tree.tokens ++ [], none⟩ := by
    have whole := spelled.tokens [] trivial
    rw [List.append_nil] at whole
    rw [tokenize, scan_cut _ _ spelled.free]
    exact congrArg (Stream.mk · none) whole
  have run : Stage.start.run depth (tree.tokens ++ []) = (⟨[tree], []⟩, none) :=
    Stage.run_tree tree .start [] (by simpa [Stage.start] using Nat.le_trans spelled.nesting shallow)
  have reading := Stage.readAllFrom_run depth none .start (tree.tokens ++ []) (by simpa using spelled.words)
  rw [run] at reading
  rw [readAll, removeComments_same spelled.free, tokens]
  refine reading.trans ?_
  simp [Stage.reading, atEnd, spelled.value]

theorem parse_readable {depth : Nat} {text : String} {program : Value} (parsed : parse depth text = .ok program) :
    Readable program := by
  have forms := readAll_readable depth text.toList
  unfold parse at parsed
  generalize readAll depth text.toList = reading at parsed forms
  obtain ⟨items, failure⟩ := reading
  cases failure with
  | some e => cases parsed
  | none =>
      cases parsed
      have all : ∀ v ∈ Value.sym "begin" :: items, Readable v := by
        intro v member
        rcases List.mem_cons.mp member with rfl | inside
        · exact .sym ⟨by decide, by decide, by decide⟩
        · exact forms v inside
      exact .list all

/-- The forms that the reader produces are the readable values, and on these it inverts the printer. -/
theorem reader_inverts_printer :
    (∀ depth cs, ∀ v ∈ (readAll depth cs).forms, Readable v) ∧
    (∀ v depth, Readable v → v.nesting ≤ depth →
      v.render depth = .ok v.text ∧ readAll depth v.text.toList = ⟨[v], none⟩) ∧
    (∀ v, Readable v ↔ ∃ depth cs, v ∈ (readAll depth cs).forms) ∧
    (∀ v w, Readable v → Readable w → v.text = w.text → v = w) ∧
    (∀ depth text program depth', parse depth text = .ok program → program.nesting ≤ depth' →
      program.render depth' = .ok program.text ∧ readAll depth' program.text.toList = ⟨[program], none⟩) := by
  have back (v : Value) (depth : Nat) (readable : Readable v) (shallow : v.nesting ≤ depth) :
      v.render depth = .ok v.text ∧ readAll depth v.text.toList = ⟨[v], none⟩ :=
    ⟨by rw [Value.render, readable.fits shallow], read_written readable shallow⟩
  refine ⟨readAll_readable, back, fun v => ⟨fun readable => ?_, ?_⟩, fun v w readable readable' same => ?_,
    fun depth text program depth' parsed shallow => back program depth' (parse_readable parsed) shallow⟩
  · refine ⟨v.nesting, v.text.toList, ?_⟩
    rw [read_written readable (Nat.le_refl _)]
    exact List.mem_singleton_self v
  · rintro ⟨depth, cs, member⟩
    exact readAll_readable depth cs v member
  · have first := read_written readable (Nat.le_max_left v.nesting w.nesting)
    have second := read_written readable' (Nat.le_max_right v.nesting w.nesting)
    rw [same, second] at first
    exact (List.cons.inj (congrArg Reading.forms first)).1.symm

theorem reader_inverts_printer_quotes :
    let v := Value.quoted (.ofList [.sym "quote", .int (-12), .sym "+", .ofList [.sym "."]])
    let program := Value.ofList [.sym "begin", v]
    Readable v ∧ v.nesting ≤ 3 ∧ v.render 3 = .ok "'(quote -12 + (.))" ∧
      readAll 3 "'(quote -12 + (.))".toList = ⟨[v], none⟩ ∧ parse 9 "'(quote -012 + (.)) ; last" = .ok program ∧
      program.nesting ≤ 4 ∧ readAll 4 program.text.toList = ⟨[program], none⟩ := by
  intro v program
  have parsed : parse 9 "'(quote -012 + (.)) ; last" = .ok program := by decide +kernel
  have readable : Readable v := reader_inverts_printer.1 9 "'(quote -012 + (.)) ; last".toList v (by decide +kernel)
  have text : v.text = "'(quote -12 + (.))" := by decide +kernel
  have written := reader_inverts_printer.2.1 v 3 readable (by decide)
  rw [text] at written
  exact ⟨readable, by decide, written.1, written.2, parsed, by decide,
    (reader_inverts_printer.2.2.2.2 9 _ program 4 parsed (by decide)).2⟩

end Reader

end CurriedLisp
