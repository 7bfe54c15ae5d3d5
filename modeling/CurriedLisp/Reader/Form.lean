import CurriedLisp.Reader.Atom
import CurriedLisp.Reader.Comment
import CurriedLisp.Reader.Token

set_option autoImplicit false

/-!
Forms. A form is a word, a quote before a form, or forms between parentheses. The reader keeps a stack of what
is open; each token either completes a form or leaves the stack for the next token. At most `depth` quotes
and parentheses may be open at a time.
-/

namespace CurriedLisp.Reader

inductive Frame where
  -- An open list with the items read so far, latest first.
  | list (items : List Value)
  | quote
deriving DecidableEq

inductive Progress where
  | complete (form : Value)
  | partway (frames : List Frame)

-- Puts a complete form where the innermost frame awaits it.
def plug (form : Value) : List Frame → Progress
  | [] => .complete form
  | .list items :: frames => .partway (.list (form :: items) :: frames)
  | .quote :: frames => plug form.quoted frames

def push (depth : Nat) (frame : Frame) (frames : List Frame) : Except Failure Progress :=
  if frames.length < depth then .ok (.partway (frame :: frames)) else .error .tooDeep

def feed (depth : Nat) (frames : List Frame) : Token → Except Failure Progress
  | .word text =>
      match atom text with
      | .ok v => .ok (plug v frames)
      | .error e => .error (.numeral e)
  | .opening => push depth (.list []) frames
  | .quote => push depth .quote frames
  | .closing =>
      match frames with
      | [] => .error (.error .unexpectedClose)
      | .quote :: _ => .error (.error .closeAfterQuote)
      | .list items :: frames => .ok (plug (.ofList items.reverse) frames)

def atEnd : Option Error → List Frame → Except Failure (Option Value)
  | some e, _ => .error (.error e)
  | none, [] => .ok none
  | none, .list _ :: _ => .error (.error .unmatchedOpen)
  | none, .quote :: _ => .error (.error .nothingToQuote)

-- What a failure leaves unread: the offending token is spent, save a parenthesis that closes a quote.
def unread (e : Failure) (token : Token) (rest : List Token) : List Token :=
  if e = .error .closeAfterQuote then token :: rest else rest

def readFrom (depth : Nat) (fault : Option Error) :
    List Frame → List Token → Except Failure (Option Value) × Stream
  | frames, [] => (atEnd fault frames, ⟨[], none⟩)
  | frames, token :: rest =>
      match feed depth frames token with
      | .ok (.complete form) => (.ok (some form), ⟨rest, fault⟩)
      | .ok (.partway frames) => readFrom depth fault frames rest
      | .error e => (.error e, ⟨unread e token rest, fault⟩)

namespace Stream

def peek (s : Stream) : Except Failure (Option Token) × Stream :=
  match s.tokens, s.fault with
  | token :: _, _ => (.ok (some token), s)
  | [], some e => (.error (.error e), ⟨[], none⟩)
  | [], none => (.ok none, s)

def advance (s : Stream) : Except Failure (Option Token) × Stream :=
  match s.tokens, s.fault with
  | token :: rest, fault => (.ok (some token), ⟨rest, fault⟩)
  | [], some e => (.error (.error e), ⟨[], none⟩)
  | [], none => (.ok none, s)

def form (depth : Nat) (s : Stream) : Except Failure (Option Value) × Stream :=
  readFrom depth s.fault [] s.tokens

end Stream

structure Reading where
  forms : List Value
  failure : Option Failure
deriving DecidableEq

def readAllFrom (depth : Nat) (fault : Option Error) (done : List Value) :
    List Frame → List Token → Reading
  | frames, [] =>
      match atEnd fault frames with
      | .ok _ => ⟨done.reverse, none⟩
      | .error e => ⟨done.reverse, some e⟩
  | frames, token :: rest =>
      match feed depth frames token with
      | .ok (.complete form) => readAllFrom depth fault (form :: done) [] rest
      | .ok (.partway frames) => readAllFrom depth fault done frames rest
      | .error e => ⟨done.reverse, some e⟩

def Stream.forms (depth : Nat) (s : Stream) : Reading := readAllFrom depth s.fault [] [] s.tokens

def readAll (depth : Nat) (cs : List Char) : Reading := (tokenize (removeComments cs)).forms depth

def parse (depth : Nat) (text : String) : Except Failure Value :=
  match readAll depth text.toList with
  | ⟨forms, none⟩ => .ok (.pair (.sym "begin") (.ofList forms))
  | ⟨_, some e⟩ => .error e

end CurriedLisp.Reader
