import CurriedLisp.Text.Digit

set_option autoImplicit false

/-!
Numerals: an optional sign and one or more decimal digits. Reading and writing both refuse a numeral
of more than `digitLimit` digits; arithmetic knows no limit.
-/

namespace CurriedLisp.Text

def digitLimit : Nat := 4300

inductive NumeralError where
  | tooLongToRead (digits : Nat)
  | tooLongToWrite
deriving DecidableEq, Repr

def NumeralError.message : NumeralError → String
  | .tooLongToRead digits =>
      "Exceeds the limit (" ++ toString digitLimit ++ " digits) for integer string conversion: " ++
        "value has " ++ toString digits ++ " digits; " ++
        "use sys.set_int_max_str_digits() to increase the limit"
  | .tooLongToWrite =>
      "Exceeds the limit (" ++ toString digitLimit ++ " digits) for integer string conversion; " ++
        "use sys.set_int_max_str_digits() to increase the limit"

structure Numeral where
  negative : Bool
  digits : List Nat
deriving DecidableEq, Repr

namespace Numeral

def splitSign : List Char → Bool × List Char
  | '-' :: cs => (true, cs)
  | '+' :: cs => (false, cs)
  | cs => (false, cs)

def ofChars? (cs : List Char) : Option Numeral :=
  let (negative, body) := splitSign cs
  match body.mapM digit? with
  | some [] => none
  | some digits => some ⟨negative, digits⟩
  | none => none

def natValue (digits : List Nat) : Nat := digits.foldl (fun sum d => 10 * sum + d) 0

def value (m : Numeral) : Int := if m.negative then -natValue m.digits else natValue m.digits

def read (m : Numeral) : Except NumeralError Int :=
  if m.digits.length ≤ digitLimit then .ok m.value else .error (.tooLongToRead m.digits.length)

end Numeral

def writeInt : Int → String
  | .ofNat n => Nat.repr n
  | .negSucc n => "-" ++ Nat.repr (n + 1)

-- True of the integers of at most `digitLimit` digits, the only ones that can be written out.
def isWritable (n : Int) : Bool := n.natAbs < Nat.pow 10 digitLimit

end CurriedLisp.Text
