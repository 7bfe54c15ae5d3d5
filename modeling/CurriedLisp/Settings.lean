import CurriedLisp.Text.Blank
import CurriedLisp.Text.Numeral

set_option autoImplicit false

namespace CurriedLisp.Settings

abbrev Variables := List (String × String)

def trimmed (env : Variables) (name : String) : String := Text.trim ((env.lookup name).getD "")

-- The digits of a number in which single underscores may separate digits.
def separatedDigits : List Char → Option (List Nat)
  | [] => none
  | [c] => return [← Text.digit? c]
  | c :: '_' :: rest => return (← Text.digit? c) :: (← separatedDigits rest)
  | c :: rest => return (← Text.digit? c) :: (← separatedDigits rest)

def number? (s : String) : Option Int := do
  let (negative, body) := Text.Numeral.splitSign s.toList
  let digits ← separatedDigits body
  (Text.Numeral.read ⟨negative, digits⟩).toOption

def positive (env : Variables) (name : String) (default : Nat) : Nat :=
  match number? (trimmed env name) with
  | some (.ofNat (n + 1)) => n + 1
  | _ => default

def recursionLimitVariable : String := "SPRIG_RECURSION_LIMIT"

def defaultRecursionLimit : Nat := 200000

def recursionLimit (env : Variables) (name : String) : Nat := positive env name defaultRecursionLimit

-- The limit of a process that has not been given another one.
def hostLimit : Nat := 1000

-- How deep reading, writing, comparing and evaluating may nest. The setting may raise the limit of the process
-- and never lowers it.
def nestingLimit (env : Variables) : Nat := max hostLimit (recursionLimit env recursionLimitVariable)

def stackSizeVariable : String := "SPRIG_STACK_SIZE_MB"

-- The setting is in mebibytes and the size in bytes.
def stackSize (env : Variables) (name : String) : Nat := positive env name 512 * 1024 * 1024

def verboseVariable : String := "SPRIG_VERBOSE"

def verbose (env : Variables) (name : String) : Bool :=
  ["1", "true", "yes", "on"].contains (trimmed env name).toLower

def logLevelVariable : String := "LOGLEVEL"

def logLevels : List (String × Int) :=
  [("CRITICAL", 50), ("FATAL", 50), ("ERROR", 40), ("WARNING", 30), ("WARN", 30), ("INFO", 20),
    ("DEBUG", 10), ("NOTSET", 0)]

def defaultLogLevel : Int := 30

-- The capital of a letter, as far as it is an ASCII letter; the dotless i and the long s have such a
-- capital too.
def capital (c : Char) : Char := if c = 'ı' then 'I' else if c = 'ſ' then 'S' else c.toUpper

def logLevel (env : Variables) (name : String) (default : Int) : Int :=
  (logLevels.lookup ((trimmed env name).map capital)).getD default

end CurriedLisp.Settings
