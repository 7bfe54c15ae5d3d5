import CurriedLisp.Text.Numeral
import CurriedLisp.Value.Basic

set_option autoImplicit false

namespace CurriedLisp.Reader

def literal? : String → Option Value
  | "#true" => some (.bool true)
  | "#false" => some (.bool false)
  | "#nil" => some .nil
  | _ => none

def atom (word : String) : Except Text.NumeralError Value :=
  match literal? word with
  | some v => .ok v
  | none =>
      match Text.Numeral.ofChars? word.toList with
      | some m => m.read.map .int
      | none => .ok (.sym word)

end CurriedLisp.Reader
