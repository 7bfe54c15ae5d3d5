import CurriedLisp.Reader.Form

set_option autoImplicit false

/-!
The grammar of forms. A derivation is a tree, whose leaves in order are tokens; the reader is followed token by
token with trees in place of values, which shows that it builds the one derivation that the tokens have.
-/

namespace CurriedLisp.Reader

inductive Tree where
  | word (text : String)
  | quote (inner : Tree)
  | list (items : List Tree)

-- The value of a word, whatever its length.
def wordValue (word : String) : Value :=
  match literal? word with
  | some v => v
  | none =>
      match Text.Numeral.ofChars? word.toList with
      | some m => .int m.value
      | none => .sym word

theorem atom_value {word : String} {v : Value} (read : atom word = .ok v) : v = wordValue word := by
  unfold atom at read
  unfold wordValue
  cases found : literal? word with
  | some w =>
      rw [found] at read
      cases read
      rfl
  | none =>
      rw [found] at read
      cases numeral : Text.Numeral.ofChars? word.toList with
      | none =>
          rw [numeral] at read
          cases read
          rfl
      | some m =>
          simp only [numeral, Text.Numeral.read] at read
          split at read
          · cases read
            rfl
          · cases read

def resume (depth : Nat) (fault : Option Error) (done : List Value) (rest : List Token) :
    Except Failure Progress → Reading
  | .ok (.complete form) => readAllFrom depth fault (form :: done) [] rest
  | .ok (.partway frames) => readAllFrom depth fault done frames rest
  | .error e => ⟨done.reverse, some e⟩

theorem readAllFrom_cons {depth : Nat} {fault : Option Error} {done : List Value} {frames : List Frame} {token : Token}
    {rest : List Token} :
    readAllFrom depth fault done frames (token :: rest) = resume depth fault done rest (feed depth frames token) := by
  rw [readAllFrom]
  cases feed depth frames token with
  | error e => rfl
  | ok progress =>
      cases progress with
      | complete form => rfl
      | partway frames => rfl

mutual
def Tree.tokens : Tree → List Token
  | .word text => [.word text]
  | .quote inner => .quote :: inner.tokens
  | .list items => .opening :: (tokensOf items ++ [.closing])
def tokensOf : List Tree → List Token
  | [] => []
  | tree :: rest => tree.tokens ++ tokensOf rest
end

mutual
def Tree.value : Tree → Value
  | .word text => wordValue text
  | .quote inner => inner.value.quoted
  | .list items => .ofList (valuesOf items)
def valuesOf : List Tree → List Value
  | [] => []
  | tree :: rest => tree.value :: valuesOf rest
end

mutual
def Tree.nesting : Tree → Nat
  | .word _ => 0
  | .quote inner => inner.nesting + 1
  | .list items => nestingOf items + 1
def nestingOf : List Tree → Nat
  | [] => 0
  | tree :: rest => max tree.nesting (nestingOf rest)
end

theorem tokensOf_append (trees more : List Tree) : tokensOf (trees ++ more) = tokensOf trees ++ tokensOf more := by
  induction trees with
  | nil => rfl
  | cons tree rest ih => simp only [List.cons_append, tokensOf, ih, List.append_assoc]

theorem valuesOf_eq (trees : List Tree) : valuesOf trees = trees.map Tree.value := by
  induction trees with
  | nil => rfl
  | cons tree rest ih => rw [valuesOf, ih, List.map_cons]

inductive Open where
  | list (items : List Tree)
  | quote

def Open.frame : Open → Frame
  | .list items => .list (items.map Tree.value)
  | .quote => .quote

def Open.tokens : Open → List Token
  | .list items => .opening :: tokensOf items.reverse
  | .quote => [.quote]

-- The complete forms and what is open, each latest first.
structure Stage where
  done : List Tree
  opens : List Open

namespace Stage

def start : Stage := ⟨[], []⟩

def plug (tree : Tree) (done : List Tree) : List Open → Stage
  | [] => ⟨tree :: done, []⟩
  | .list items :: opens => ⟨done, .list (tree :: items) :: opens⟩
  | .quote :: opens => plug (.quote tree) done opens

def fill (s : Stage) (tree : Tree) : Stage := plug tree s.done s.opens

def push (depth : Nat) (s : Stage) (inner : Open) : Except Failure Stage :=
  if s.opens.length < depth then .ok ⟨s.done, inner :: s.opens⟩ else .error .tooDeep

def step (depth : Nat) (s : Stage) : Token → Except Failure Stage
  | .word text => .ok (s.fill (.word text))
  | .opening => s.push depth (.list [])
  | .quote => s.push depth .quote
  | .closing =>
      match s.opens with
      | [] => .error (.error .unexpectedClose)
      | .quote :: _ => .error (.error .closeAfterQuote)
      | .list items :: opens => .ok (plug (.list items.reverse) s.done opens)

def run (depth : Nat) : Stage → List Token → Stage × Option Failure
  | s, [] => (s, none)
  | s, token :: rest =>
      match s.step depth token with
      | .ok next => run depth next rest
      | .error e => (s, some e)

def spine : List Open → List Token
  | [] => []
  | inner :: opens => spine opens ++ inner.tokens

def tokens (s : Stage) : List Token := tokensOf s.done.reverse ++ spine s.opens

theorem plug_tokens (tree : Tree) (done : List Tree) (opens : List Open) :
    (plug tree done opens).tokens = (⟨done, opens⟩ : Stage).tokens ++ tree.tokens := by
  induction opens generalizing tree with
  | nil => simp [plug, tokens, spine, tokensOf_append, tokensOf]
  | cons inner opens ih =>
      cases inner with
      | list items => simp [plug, tokens, spine, Open.tokens, tokensOf_append, tokensOf]
      | quote =>
          rw [plug, ih]
          simp [tokens, spine, Open.tokens, Tree.tokens]

theorem plug_length (tree : Tree) (done : List Tree) (opens : List Open) :
    (plug tree done opens).opens.length ≤ opens.length := by
  induction opens generalizing tree with
  | nil => exact Nat.le_refl _
  | cons inner opens ih =>
      cases inner with
      | list items => exact Nat.le_refl _
      | quote => exact Nat.le_succ_of_le (ih _)

theorem step_tokens {depth : Nat} {s next : Stage} {token : Token} (stepped : s.step depth token = .ok next) :
    next.tokens = s.tokens ++ [token] := by
  cases token with
  | word text =>
      cases stepped
      exact plug_tokens _ _ _
  | opening | quote =>
      simp only [step, push] at stepped
      split at stepped
      · cases stepped
        simp [tokens, spine, Open.tokens, tokensOf]
      · cases stepped
  | closing =>
      simp only [step] at stepped
      split at stepped
      · cases stepped
      · cases stepped
      · rename_i items opens inside
        cases stepped
        rw [plug_tokens]
        simp [tokens, inside, spine, Open.tokens, Tree.tokens]

theorem run_append (depth : Nat) (s : Stage) (tokens more : List Token) :
    s.run depth (tokens ++ more) =
      match s.run depth tokens with
      | (next, none) => next.run depth more
      | (next, some e) => (next, some e) := by
  induction tokens generalizing s with
  | nil => rfl
  | cons token rest ih =>
      simp only [List.cons_append, run]
      cases s.step depth token with
      | ok next => exact ih next
      | error e => rfl

theorem fill_list (trees items done : List Tree) (opens : List Open) :
    trees.foldl fill ⟨done, .list items :: opens⟩ = ⟨done, .list (trees.reverse ++ items) :: opens⟩ := by
  induction trees generalizing items with
  | nil => rfl
  | cons tree rest ih =>
      rw [List.foldl_cons, List.reverse_cons, List.append_assoc]
      exact ih (tree :: items)

theorem fill_done (trees done : List Tree) : trees.foldl fill ⟨done, []⟩ = ⟨trees.reverse ++ done, []⟩ := by
  induction trees generalizing done with
  | nil => rfl
  | cons tree rest ih =>
      rw [List.foldl_cons, List.reverse_cons, List.append_assoc]
      exact ih (tree :: done)

mutual
-- The tokens of a tree put the tree where the innermost open form awaits one.
theorem run_tree {depth : Nat} (tree : Tree) (s : Stage) (rest : List Token)
    (fits : s.opens.length + tree.nesting ≤ depth) :
    s.run depth (tree.tokens ++ rest) = (s.fill tree).run depth rest := by
  cases tree with
  | word text => rfl
  | quote inner =>
      rw [Tree.nesting] at fits
      have pushed : s.step depth .quote = .ok ⟨s.done, .quote :: s.opens⟩ := if_pos (by omega)
      simp only [Tree.tokens, List.cons_append, run, pushed]
      exact run_tree inner ⟨s.done, .quote :: s.opens⟩ rest (by simp only [List.length_cons]; omega)
  | list items =>
      rw [Tree.nesting] at fits
      have pushed : s.step depth .opening = .ok ⟨s.done, .list [] :: s.opens⟩ := if_pos (by omega)
      simp only [Tree.tokens, List.cons_append, run, pushed, List.append_assoc]
      rw [run_trees items ⟨s.done, .list [] :: s.opens⟩ _ (by simp only [List.length_cons]; omega), fill_list,
        List.append_nil]
      simp only [run, step, List.reverse_reverse]
      rfl
theorem run_trees {depth : Nat} (trees : List Tree) (s : Stage) (rest : List Token)
    (fits : s.opens.length + nestingOf trees ≤ depth) :
    s.run depth (tokensOf trees ++ rest) = (trees.foldl fill s).run depth rest := by
  cases trees with
  | nil => rfl
  | cons tree others =>
      rw [nestingOf] at fits
      have shorter : (s.fill tree).opens.length ≤ s.opens.length := plug_length _ _ _
      rw [tokensOf, List.append_assoc, run_tree tree s _ (by omega)]
      exact run_trees others (s.fill tree) rest (by omega)
end

theorem run_program {depth : Nat} (trees : List Tree) (fits : nestingOf trees ≤ depth) (rest : List Token) :
    start.run depth (tokensOf trees ++ rest) = (⟨trees.reverse, []⟩ : Stage).run depth rest := by
  rw [run_trees trees start rest (by simpa [start] using fits), start, fill_done, List.append_nil]

theorem plug_value (tree : Tree) (done : List Tree) (opens : List Open) :
    (∃ whole : Tree, Reader.plug tree.value (opens.map Open.frame) = .complete whole.value ∧
      plug tree done opens = ⟨whole :: done, []⟩) ∨
    ∃ opens', Reader.plug tree.value (opens.map Open.frame) = .partway (opens'.map Open.frame) ∧
      plug tree done opens = ⟨done, opens'⟩ := by
  induction opens generalizing tree with
  | nil => exact .inl ⟨tree, rfl, rfl⟩
  | cons inner opens ih =>
      cases inner with
      | list items => exact .inr ⟨.list (tree :: items) :: opens, rfl, rfl⟩
      | quote => exact ih (.quote tree)

def reading (fault : Option Error) : Stage × Option Failure → Reading
  | (s, some e) => ⟨(s.done.map Tree.value).reverse, some e⟩
  | (s, none) =>
      match atEnd fault (s.opens.map Open.frame) with
      | .ok _ => ⟨(s.done.map Tree.value).reverse, none⟩
      | .error e => ⟨(s.done.map Tree.value).reverse, some e⟩

def resumed (depth : Nat) (fault : Option Error) (s : Stage) (rest : List Token) : Except Failure Stage → Reading
  | .ok next => readAllFrom depth fault (next.done.map Tree.value) (next.opens.map Open.frame) rest
  | .error e => ⟨(s.done.map Tree.value).reverse, some e⟩

theorem resume_plug {depth : Nat} (fault : Option Error) (s : Stage) (rest : List Token) (tree : Tree)
    (opens : List Open) :
    resume depth fault (s.done.map Tree.value) rest (.ok (Reader.plug tree.value (opens.map Open.frame))) =
      resumed depth fault s rest (.ok (plug tree s.done opens)) := by
  obtain ⟨whole, progress, stage⟩ | ⟨opens', progress, stage⟩ := plug_value tree s.done opens
  · rw [progress, stage]
    rfl
  · rw [progress, stage]
    rfl

theorem resume_push {depth : Nat} (fault : Option Error) (s : Stage) (rest : List Token) (inner : Open) :
    resume depth fault (s.done.map Tree.value) rest (Reader.push depth inner.frame (s.opens.map Open.frame)) =
      resumed depth fault s rest (s.push depth inner) := by
  unfold Reader.push push
  rw [List.length_map]
  by_cases shallow : s.opens.length < depth
  · rw [if_pos shallow, if_pos shallow]
    rfl
  · rw [if_neg shallow, if_neg shallow]
    rfl

theorem readAllFrom_step {depth : Nat} (fault : Option Error) (s : Stage) (token : Token) (rest : List Token)
    (short : ∀ word, token = .word word → ∃ v, atom word = .ok v) :
    readAllFrom depth fault (s.done.map Tree.value) (s.opens.map Open.frame) (token :: rest) =
      resumed depth fault s rest (s.step depth token) := by
  rw [readAllFrom_cons]
  cases token with
  | word text =>
      obtain ⟨v, read⟩ := short text rfl
      simp only [feed, read]
      rw [atom_value read]
      exact resume_plug fault s rest (.word text) s.opens
  | opening => exact resume_push fault s rest (.list [])
  | quote => exact resume_push fault s rest .quote
  | closing =>
      simp only [feed, step]
      cases s.opens with
      | nil => rfl
      | cons inner opens =>
          cases inner with
          | quote => rfl
          | list items =>
              have value : (Tree.list items.reverse).value = .ofList (items.map Tree.value).reverse := by
                rw [Tree.value, valuesOf_eq, List.map_reverse]
              simp only [List.map_cons, Open.frame, ← value]
              exact resume_plug fault s rest (.list items.reverse) opens

theorem readAllFrom_run (depth : Nat) (fault : Option Error) (s : Stage) (tokens : List Token)
    (short : ∀ word, .word word ∈ tokens → ∃ v, atom word = .ok v) :
    readAllFrom depth fault (s.done.map Tree.value) (s.opens.map Open.frame) tokens =
      reading fault (s.run depth tokens) := by
  induction tokens generalizing s with
  | nil => rfl
  | cons token rest ih =>
      rw [readAllFrom_step fault s token rest fun word same => short word (same ▸ List.mem_cons_self), run]
      cases s.step depth token with
      | ok next => exact ih next fun word member => short word (List.mem_cons_of_mem _ member)
      | error e => rfl

end Stage

theorem tokensOf_injective {trees trees' : List Tree} (same : tokensOf trees = tokensOf trees') : trees = trees' := by
  have first := Stage.run_program trees (Nat.le_max_left (nestingOf trees) (nestingOf trees')) []
  have second := Stage.run_program trees' (Nat.le_max_right (nestingOf trees) (nestingOf trees')) []
  rw [same, second] at first
  simp only [Stage.run, Prod.mk.injEq, Stage.mk.injEq, List.reverse_inj, and_true] at first
  exact first.symm

end CurriedLisp.Reader
