import CurriedLisp.Proofs.Reader.Lookahead
import CurriedLisp.Proofs.Reader.Refusal

set_option autoImplicit false

namespace CurriedLisp.Reader

theorem tree_first (tree : Tree) : ∃ first more, tree.tokens = first :: more ∧ first ≠ .closing := by
  cases tree with
  | word text => exact ⟨.word text, [], rfl, by simp⟩
  | quote inner => exact ⟨.quote, inner.tokens, rfl, by simp⟩
  | list items => exact ⟨.opening, tokensOf items ++ [.closing], rfl, by simp⟩

mutual
-- The tokens of a tree tell where they end, whatever comes after them.
theorem tree_ends {tree other : Tree} {left left' : List Token}
    (same : tree.tokens ++ left = other.tokens ++ left') : other = tree ∧ left' = left := by
  cases tree with
  | word text =>
      cases other with
      | word text' =>
          cases same
          exact ⟨rfl, rfl⟩
      | quote inner' => cases same
      | list items' => cases same
  | quote inner =>
      cases other with
      | word text' => cases same
      | quote inner' =>
          obtain ⟨rfl, rfl⟩ := tree_ends (List.cons.inj same).2
          exact ⟨rfl, rfl⟩
      | list items' => cases same
  | list items =>
      cases other with
      | word text' => cases same
      | quote inner' => cases same
      | list items' =>
          have inside : tokensOf items ++ [.closing] ++ left = tokensOf items' ++ [.closing] ++ left' :=
            (List.cons.inj same).2
          rw [List.append_assoc, List.append_assoc] at inside
          obtain ⟨rfl, rfl⟩ := trees_end inside
          exact ⟨rfl, rfl⟩
theorem trees_end {trees others : List Tree} {left left' : List Token}
    (same : tokensOf trees ++ .closing :: left = tokensOf others ++ .closing :: left') :
    others = trees ∧ left' = left := by
  cases trees with
  | nil =>
      cases others with
      | nil =>
          cases same
          exact ⟨rfl, rfl⟩
      | cons other rest' =>
          obtain ⟨first, more, shape, notClosing⟩ := tree_first other
          rw [tokensOf, tokensOf, shape] at same
          exact absurd (List.cons.inj same).1.symm notClosing
  | cons tree rest =>
      cases others with
      | nil =>
          obtain ⟨first, more, shape, notClosing⟩ := tree_first tree
          rw [tokensOf, tokensOf, shape] at same
          exact absurd (List.cons.inj same).1 notClosing
      | cons other rest' =>
          rw [tokensOf, tokensOf, List.append_assoc, List.append_assoc] at same
          obtain ⟨rfl, remains⟩ := tree_ends same
          obtain ⟨rfl, rfl⟩ := trees_end remains.symm
          exact ⟨rfl, rfl⟩
end

def Legible (tokens : List Token) : Prop := ∀ word, .word word ∈ tokens → ∃ v, atom word = .ok v

theorem Legible.snoc {tokens : List Token} {token : Token} (legible : Legible tokens)
    (last : ∀ word, token = .word word → ∃ v, atom word = .ok v) : Legible (tokens ++ [token]) := by
  intro word member
  rw [List.mem_append, List.mem_singleton] at member
  cases member with
  | inl before => exact legible word before
  | inr here => exact last word here.symm

-- Tokens that some form begins with and goes on after, and whose words can be read.
structure Begun (spent : List Token) : Prop where
  unfinished : ∃ (tree : Tree) (more : List Token), tree.tokens = spent ++ more ∧ more ≠ []
  legible : Legible spent

-- Why reading a form fails, with the tokens that are spent until then and what is left.
inductive Stops (depth : Nat) (fault : Option Error) : Failure → List Token → Stream → Prop where
  | closeAfterQuote {spent after : List Token} : Begun spent → spent.getLast? = some .quote →
      Stops depth fault (.error .closeAfterQuote) spent ⟨.closing :: after, fault⟩
  | unexpectedClose {after : List Token} : Stops depth fault (.error .unexpectedClose) [.closing] ⟨after, fault⟩
  | unmatchedOpen {spent : List Token} : fault = none → Begun spent →
      spent.count .closing < spent.count .opening → spent.getLast? ≠ some .quote →
      Stops depth fault (.error .unmatchedOpen) spent ⟨[], none⟩
  | nothingToQuote {spent : List Token} : fault = none → Begun spent → spent.getLast? = some .quote →
      Stops depth fault (.error .nothingToQuote) spent ⟨[], none⟩
  | numeral {spent after : List Token} {word : String} {m : Text.Numeral} : Begun spent →
      Text.Numeral.ofChars? word.toList = some m → Text.digitLimit < m.digits.length →
      Stops depth fault (.numeral (.tooLongToRead m.digits.length)) (spent ++ [.word word]) ⟨after, fault⟩
  | fault {spent : List Token} {e : Error} : fault = some e → Begun spent →
      Stops depth fault (.error e) spent ⟨[], none⟩
  | tooDeep {spent after : List Token} {token : Token} : Begun spent → token.opens = true →
      depth ≤ spent.countP Token.opens → Stops depth fault .tooDeep (spent ++ [token]) ⟨after, fault⟩

def Reads (depth : Nat) (s : Stream) : Except Failure (Option Value) × Stream → Prop
  | (.ok none, left) => s = ⟨[], none⟩ ∧ left = s
  | (.ok (some v), left) => ∃ tree : Tree, v = tree.value ∧ s.tokens = tree.tokens ++ left.tokens ∧ left.fault = s.fault
  | (.error f, left) => ∃ spent, s.tokens = spent ++ left.tokens ∧ Stops depth s.fault f spent left

namespace Stage

theorem spine_closes (tree : Tree) (opens : List Open) :
    ∃ (whole : Tree) (more : List Token), whole.tokens = spine opens ++ (tree.tokens ++ more) := by
  induction opens generalizing tree with
  | nil => exact ⟨tree, [], (List.append_nil _).symm⟩
  | cons inner opens ih =>
      cases inner with
      | list items =>
          obtain ⟨whole, more, shape⟩ := ih (.list (items.reverse ++ [tree]))
          refine ⟨whole, .closing :: more, ?_⟩
          rw [shape]
          simp [spine, Open.tokens, Tree.tokens, tokensOf_append, tokensOf]
      | quote =>
          obtain ⟨whole, more, shape⟩ := ih (.quote tree)
          refine ⟨whole, more, ?_⟩
          rw [shape]
          simp [spine, Open.tokens, Tree.tokens]

theorem begun_spine {opens : List Open} (legible : Legible (spine opens)) : Begun (spine opens) := by
  obtain ⟨whole, more, shape⟩ := spine_closes (.word "x") opens
  exact ⟨⟨whole, .word "x" :: more, shape, List.cons_ne_nil _ _⟩, legible⟩

theorem spine_opens (opens : List Open) : opens.length ≤ (spine opens).countP Token.opens := by
  induction opens with
  | nil => exact Nat.zero_le _
  | cons inner opens ih =>
      have one : 1 ≤ inner.tokens.countP Token.opens := by
        cases inner with
        | list items =>
            rw [Open.tokens, List.countP_cons]
            exact Nat.le_add_left 1 _
        | quote => exact Nat.le_refl 1
      rw [spine, List.countP_append, List.length_cons]
      omega

theorem spine_counts (opens : List Open) :
    (spine opens).count .opening = (spine opens).count .closing + lists opens := tokens_counts ⟨[], opens⟩

theorem spine_last (opens : List Open) : (spine opens).getLast? = some .quote ↔ ∃ outer, opens = .quote :: outer :=
  tokens_last ⟨[], opens⟩

def ReadsFrom (depth : Nat) (fault : Option Error) (opens : List Open) (rest : List Token) : Prop :=
  Reads depth ⟨spine opens ++ rest, fault⟩ (readFrom depth fault (opens.map Open.frame) rest)

section
variable {depth : Nat} {fault : Option Error} {opens : List Open} {rest : List Token}

theorem reads_end (legible : Legible (spine opens)) : ReadsFrom depth fault opens [] := by
  have begun := begun_spine legible
  have last := spine_last opens
  have counts := spine_counts opens
  rw [ReadsFrom, readFrom]
  cases fault with
  | some e => exact ⟨spine opens, rfl, .fault rfl begun⟩
  | none =>
      cases opens with
      | nil => exact ⟨rfl, rfl⟩
      | cons inner outer =>
          cases inner with
          | quote => exact ⟨_, rfl, .nothingToQuote rfl begun (last.mpr ⟨outer, rfl⟩)⟩
          | list items =>
              rw [lists] at counts
              refine ⟨_, rfl, .unmatchedOpen rfl begun (by omega) fun quote => ?_⟩
              obtain ⟨_, ⟨⟩⟩ := last.mp quote

theorem reads_plug (tree : Tree)
    (later : ∀ opens', spine opens' = spine opens ++ tree.tokens → ReadsFrom depth fault opens' rest) :
    Reads depth ⟨spine opens ++ (tree.tokens ++ rest), fault⟩
      (proceed depth ⟨rest, fault⟩ (Reader.plug tree.value (opens.map Open.frame))) := by
  have grown := plug_tokens tree [] opens
  rw [← List.append_assoc]
  obtain ⟨whole, progress, stage⟩ | ⟨opens', progress, stage⟩ := plug_value tree [] opens
  · have done : whole.tokens = spine opens ++ tree.tokens := by
      rw [stage] at grown
      simpa [tokens, tokensOf, spine] using grown
    rw [progress, ← done]
    exact ⟨whole, rfl, rfl, rfl⟩
  · have still : spine opens' = spine opens ++ tree.tokens := by
      rw [stage] at grown
      exact grown
    rw [progress, ← still]
    exact later opens' still

theorem reads_push (token : Token) (inner : Open) (one : inner.tokens = [token]) (opening : token.opens = true)
    (fed : feed depth (opens.map Open.frame) token = Reader.push depth inner.frame (opens.map Open.frame))
    (begun : Begun (spine opens)) (later : ReadsFrom depth fault (inner :: opens) rest) :
    ReadsFrom depth fault opens (token :: rest) := by
  have shape : spine opens ++ token :: rest = spine (inner :: opens) ++ rest := by
    rw [spine, one, List.append_assoc, List.singleton_append]
  rw [ReadsFrom, shape]
  by_cases fits : (opens.map Open.frame).length < depth
  · rw [readFrom_ok (fed.trans (if_pos fits))]
    exact later
  · rw [readFrom_error (fed.trans (if_neg fits))]
    have deep := spine_opens opens
    rw [List.length_map] at fits
    refine ⟨spine opens ++ [token], ?_, .tooDeep begun opening (by omega)⟩
    rw [spine, one]
    rfl

theorem reads_word (text : String) (legible : Legible (spine opens))
    (later : ∀ opens', Legible (spine opens') → ReadsFrom depth fault opens' rest) :
    ReadsFrom depth fault opens (.word text :: rest) := by
  rw [ReadsFrom]
  cases read : atom text with
  | ok v =>
      have fed : feed depth (opens.map Open.frame) (.word text) = .ok (Reader.plug v (opens.map Open.frame)) := by
        rw [feed, read]
      rw [readFrom_ok fed, atom_value read]
      refine reads_plug (.word text) fun opens' grown => later opens' ?_
      rw [grown]
      exact legible.snoc fun word same => ⟨v, Token.word.inj same ▸ read⟩
  | error e =>
      have fed : feed depth (opens.map Open.frame) (.word text) = .error (.numeral e) := by rw [feed, read]
      obtain ⟨m, digits, long, rfl⟩ := atom_failure read
      rw [readFrom_error fed]
      exact ⟨spine opens ++ [.word text], List.append_cons _ _ _, .numeral (begun_spine legible) digits long⟩

theorem reads_closing (legible : Legible (spine opens))
    (later : ∀ opens', Legible (spine opens') → ReadsFrom depth fault opens' rest) :
    ReadsFrom depth fault opens (.closing :: rest) := by
  have last := spine_last opens
  rw [ReadsFrom]
  cases opens with
  | nil => exact ⟨[.closing], rfl, .unexpectedClose⟩
  | cons inner outer =>
      cases inner with
      | quote => exact ⟨_, rfl, .closeAfterQuote (begun_spine legible) (last.mpr ⟨outer, rfl⟩)⟩
      | list items =>
          have value : (Tree.list items.reverse).value = .ofList (items.map Tree.value).reverse := by
            rw [Tree.value, valuesOf_eq, List.map_reverse]
          have fed : feed depth ((Open.list items :: outer).map Open.frame) .closing =
              .ok (Reader.plug (Tree.list items.reverse).value (outer.map Open.frame)) := by
            rw [value]
            rfl
          have closed : spine (.list items :: outer) ++ [.closing] = spine outer ++ (Tree.list items.reverse).tokens := by
            simp [spine, Open.tokens, Tree.tokens]
          rw [readFrom_ok fed, List.append_cons, closed, List.append_assoc]
          refine reads_plug (.list items.reverse) fun opens' grown => later opens' ?_
          rw [grown, ← closed]
          exact legible.snoc fun word same => Token.noConfusion same

end

theorem reads (depth : Nat) (fault : Option Error) (opens : List Open) (rest : List Token)
    (legible : Legible (spine opens)) : ReadsFrom depth fault opens rest := by
  induction rest generalizing opens with
  | nil => exact reads_end legible
  | cons token rest ih =>
      -- An opening token leaves no word behind.
      have opened (inner : Open) (one : inner.tokens = [token]) (other : ∀ word, token ≠ .word word) :
          ReadsFrom depth fault (inner :: opens) rest := by
        refine ih (inner :: opens) ?_
        rw [spine, one]
        exact legible.snoc fun word same => absurd same (other word)
      cases token with
      | word text => exact reads_word text legible ih
      | closing => exact reads_closing legible ih
      | opening =>
          exact reads_push .opening (.list []) rfl rfl rfl (begun_spine legible) (opened (.list []) rfl (by simp))
      | quote => exact reads_push .quote .quote rfl rfl rfl (begun_spine legible) (opened .quote rfl (by simp))

end Stage

inductive Request where
  | peek
  | advance
  | form

inductive Reply where
  | token (seen : Option Token)
  | form (read : Option Value)
  | failure (f : Failure)
deriving DecidableEq

def Request.atEnd : Request → Reply
  | .peek => .token none
  | .advance => .token none
  | .form => .form none

def Reply.of {α : Type} (shown : α → Reply) : Except Failure α → Reply
  | .ok a => shown a
  | .error f => .failure f

def Stream.perform (depth : Nat) (s : Stream) : Request → Reply × Stream
  | .peek => (.of .token s.peek.1, s.peek.2)
  | .advance => (.of .token s.advance.1, s.advance.2)
  | .form => (.of .form (s.form depth).1, (s.form depth).2)

section
variable {σ : Type} (step : σ → Request → Reply × σ)

def final (s : σ) (requests : List Request) : σ := requests.foldl (fun s request => (step s request).2) s

end

namespace Lookahead

variable {α : Type}

def respond (shown : α → Reply) : EStateM.Result Failure Lookahead α → Reply × Lookahead
  | .ok a l => (shown a, l)
  | .error f l => (.failure f, l)

def perform (depth : Nat) (l : Lookahead) : Request → Reply × Lookahead
  | .peek => respond .token (peek l)
  | .advance => respond .token (advance l)
  | .form => respond .form (form depth l)

end Lookahead

end CurriedLisp.Reader
