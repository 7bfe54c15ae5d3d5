import CurriedLisp.Text.Digit
import CurriedLisp.Text.Quoted

set_option autoImplicit false

/-!
The options and the files on the command line. A long option may be cut short to a unique beginning, short
options may be joined, also by an equals sign after the first, and none takes a value. After the first `--` every
argument is a file. The files must stand together: an argument that comes after them and another option is not
recognised.
-/

namespace CurriedLisp.CommandLine

inductive Flag where
  | help
  | verbose
  | print
deriving DecidableEq, Repr

namespace Flag

def short : Flag → Char
  | help => 'h'
  | verbose => 'v'
  | print => 'p'

def long : Flag → String
  | help => "--help"
  | verbose => "--verbose"
  | print => "--print"

def all : List Flag := [help, verbose, print]

def ofShort? (c : Char) : Option Flag := all.find? fun f => f.short = c

def shown (f : Flag) : String := "-" ++ String.singleton f.short ++ "/" ++ f.long

end Flag

inductive Argument where
  | operand
  | unknown
  | separator
  | long (flag : Flag) (value : Option (List Char))
  -- A short option with what is joined to it, less an equals sign that joins it.
  | short (flag : Flag) (letters : Option (List Char))
deriving DecidableEq, Repr

def cutEquals (cs : List Char) : List Char × Option (List Char) :=
  match cs.dropWhile (· ≠ '=') with
  | [] => (cs, none)
  | _ :: value => (cs.takeWhile (· ≠ '='), some value)

def isDigits (cs : List Char) : Bool := !cs.isEmpty && cs.all fun c => (Text.digit? c).isSome

-- A negative decimal number, which may end in a newline.
def isNegativeNumber (cs : List Char) : Bool :=
  match cs with
  | '-' :: body =>
      let body := if body.getLast? = some '\n' then body.dropLast else body
      let fraction := body.dropWhile (· ≠ '.')
      isDigits body ||
        ((body.takeWhile (· ≠ '.')).all fun c => (Text.digit? c).isSome) && isDigits (fraction.drop 1)
  | _ => false

def classifyOther (cs : List Char) : Argument :=
  if isNegativeNumber cs || cs.contains ' ' then .operand else .unknown

def classifyLong (cs : List Char) : Except String Argument :=
  let (name, value) := cutEquals cs
  match Flag.all.filter fun f => name.isPrefixOf f.long.toList with
  | [] => .ok (classifyOther cs)
  | [flag] => .ok (.long flag value)
  | flags =>
      .error ("ambiguous option: " ++ String.ofList cs ++ " could match " ++
        ", ".intercalate (flags.map Flag.long))

def classify (arg : String) : Except String Argument :=
  match arg.toList with
  | ['-', '-'] => .ok .separator
  | '-' :: '-' :: _ => classifyLong arg.toList
  | '-' :: c :: rest =>
      match Flag.ofShort? c, rest with
      | some flag, [] => .ok (.short flag none)
      | some flag, '=' :: letters => .ok (.short flag (some letters))
      | some flag, letters => .ok (.short flag (some letters))
      | none, _ => .ok (classifyOther arg.toList)
  | _ => .ok .operand

def classifyAll : List String → Except String (List (String × Argument))
  | [] => .ok []
  | arg :: rest => do
      match ← classify arg with
      | .separator => return (arg, .separator) :: rest.map fun a => (a, .operand)
      | a => return (arg, a) :: (← classifyAll rest)

def ignoredValue (flag : Flag) (value : List Char) : String :=
  "argument " ++ flag.shown ++ ": ignored explicit argument " ++ Text.quoted (String.ofList value)

-- The flag and those that the letters name. What names none is a value, which the flag before it refuses.
def joined (flag : Flag) : List Char → Except String (List Flag)
  | [] => .ok [flag]
  | c :: letters =>
      match Flag.ofShort? c with
      | some next => do return flag :: (← joined next letters)
      | none => .error (ignoredValue flag (c :: letters))

def flagsOf : Argument → Except String (List Flag)
  | .long flag none => .ok [flag]
  | .long flag (some value) => .error (ignoredValue flag value)
  | .short flag none => .ok [flag]
  | .short flag (some []) => .error (ignoredValue flag [])
  | .short flag (some (c :: letters)) => joined flag (c :: letters)
  | _ => .ok []

structure Options where
  verbose : Bool
  print : Bool
  files : List String
deriving DecidableEq, Repr

inductive Request where
  | run (options : Options)
  | help
  | misuse (message : String)
deriving DecidableEq, Repr

structure Progress where
  options : Options
  -- The files stand in the past: another option came after them.
  closed : Bool
  unrecognized : List String

namespace Progress

def start : Progress := ⟨⟨false, false, []⟩, false, []⟩

def addOperand (p : Progress) (arg : String) : Progress :=
  if p.closed then { p with unrecognized := p.unrecognized ++ [arg] }
  else { p with options := { p.options with files := p.options.files ++ [arg] } }

def addFlag (p : Progress) : Flag → Progress
  | .verbose => { p with options := { p.options with verbose := true } }
  | .print => { p with options := { p.options with print := true } }
  | .help => p

def endFiles (p : Progress) : Progress := { p with closed := p.closed || !p.options.files.isEmpty }

-- A separator is dropped where it stands among the files.
def addSeparator (p : Progress) (arg : String) (isLast : Bool) : Progress :=
  if p.closed || (p.options.files.isEmpty && isLast) then
    { p with unrecognized := p.unrecognized ++ [arg] }
  else p

def finish (p : Progress) : Request :=
  if p.options.files.isEmpty then .misuse "the following arguments are required: files"
  else if p.unrecognized.isEmpty then .run p.options
  else .misuse ("unrecognized arguments: " ++ " ".intercalate p.unrecognized)

end Progress

def gather (p : Progress) : List (String × Argument) → Request
  | [] => p.finish
  | (arg, .operand) :: rest => gather (p.addOperand arg) rest
  | (arg, .separator) :: rest => gather (p.addSeparator arg rest.isEmpty) rest
  | (arg, .unknown) :: rest =>
      let p := p.endFiles
      gather { p with unrecognized := p.unrecognized ++ [arg] } rest
  | (_, a) :: rest =>
      match flagsOf a with
      | .error message => .misuse message
      | .ok flags =>
          if flags.contains .help then .help
          else gather (flags.foldl Progress.addFlag p.endFiles) rest

def request (argv : List String) : Request :=
  match classifyAll argv with
  | .error message => .misuse message
  | .ok args => gather .start args

def usage : String := "usage: sprig [-h] [-v] [-p] files [files ...]\n"

def helpText : String :=
  usage ++ "\nEvaluate Sprig source files, each against a fresh environment\n\n" ++
    "positional arguments:\n" ++
    "  files          Source files to evaluate in order\n\n" ++
    "options:\n" ++
    "  -h, --help     show this help message and exit\n" ++
    "  -v, --verbose  Trace every evaluation step to stderr\n" ++
    "  -p, --print    Print the final value of each file\n"

def misuseText (message : String) : String := usage ++ "sprig: error: " ++ message ++ "\n"

end CurriedLisp.CommandLine
