import CurriedLisp.File.Path
import CurriedLisp.Session
import CurriedLisp.Text.Blank

set_option autoImplicit false

namespace CurriedLisp.File

structure Lines where
  afterReturn : Bool
  -- The characters so far, latest first.
  done : List Char

def Lines.feed (state : Lines) (c : Char) : Lines :=
  if c = '\r' then ⟨true, '\n' :: state.done⟩
  else if c = '\n' ∧ state.afterReturn then ⟨false, state.done⟩
  else ⟨false, c :: state.done⟩

-- Makes every line end, also a carriage return with or without a newline, one newline.
def uniformLines (cs : List Char) : List Char := (cs.foldl Lines.feed ⟨false, []⟩).done.reverse

def decode? (bytes : ByteArray) : Option String :=
  (String.fromUTF8? bytes).map fun s => String.ofList (Text.trimChars (uniformLines s.toList))

inductive LoadFailure where
  | unreadable (fault : Fault)
  | notText
  | program (failure : Failure)
deriving DecidableEq

structure Loaded where
  result : Except LoadFailure Value
  -- The trace lines, in order.
  trace : List String

def load (read : Path → Except Fault ByteArray) (mode : Mode String) (depth : Nat) (path : Path) : Loaded :=
  match read path with
  | .error fault => ⟨.error (.unreadable fault), []⟩
  | .ok bytes =>
      match decode? bytes with
      | none => ⟨.error .notText, []⟩
      | some code =>
          match evalText mode depth code .start with
          | .ok v w => ⟨.ok v, w.trace.reverse⟩
          | .error e w => ⟨.error (.program e), w.trace.reverse⟩

end CurriedLisp.File
