import CurriedLisp.Failure
import CurriedLisp.Text.Blank

set_option autoImplicit false

/-!
Tokens: parentheses, quotes, and the words between them. Scanning stops at a semicolon, which belongs to no
token; the error then names the place where the last token ended.
-/

namespace CurriedLisp.Reader

inductive Token where
  | opening
  | closing
  | quote
  | word (text : String)
deriving DecidableEq, Repr

structure Scan where
  -- The tokens found so far, latest first.
  tokens : List Token
  -- The characters of the unfinished word, latest first.
  letters : List Char
  -- Where the last token ended.
  mark : Nat
  position : Nat

namespace Scan

def start : Scan := ⟨[], [], 0, 0⟩

def endWord (s : Scan) : Scan :=
  if s.letters.isEmpty then s
  else { s with
    tokens := .word (String.ofList s.letters.reverse) :: s.tokens
    letters := []
    mark := s.position }

def mark? (c : Char) : Option Token :=
  if c = '(' then some .opening
  else if c = ')' then some .closing
  else if c = '\'' then some .quote
  else none

def feed (s : Scan) (c : Char) : Scan :=
  match mark? c with
  | some token =>
      let s := s.endWord
      ⟨token :: s.tokens, [], s.position + 1, s.position + 1⟩
  | none =>
      if Text.isBlank c then
        let s := s.endWord
        { s with position := s.position + 1 }
      else { s with letters := c :: s.letters, position := s.position + 1 }

end Scan

-- Tokens that are still to be read, and the error that comes after the last of them.
structure Stream where
  tokens : List Token
  fault : Option Error
deriving DecidableEq

def scan : Scan → List Char → Stream
  | s, [] => ⟨s.endWord.tokens.reverse, none⟩
  | s, c :: cs =>
      if c = ';' then
        let s := s.endWord
        ⟨s.tokens.reverse, some (.unexpectedChar s.mark c)⟩
      else scan (s.feed c) cs

def tokenize (cs : List Char) : Stream := scan .start cs

end CurriedLisp.Reader
