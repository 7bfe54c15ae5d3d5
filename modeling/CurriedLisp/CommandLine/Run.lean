import CurriedLisp.CommandLine.Options
import CurriedLisp.File.Load
import CurriedLisp.Settings

set_option autoImplicit false

namespace CurriedLisp.CommandLine

inductive Level where
  | debug
  | info
  | error

def Level.severity : Level → Int
  | debug => 10
  | info => 20
  | error => 40

inductive Breakdown where
  | notText
  | failure (f : Failure)
deriving DecidableEq

inductive Ending where
  | exit (status : Nat)
  | breakdown (cause : Breakdown)
deriving DecidableEq

def Ending.status : Ending → Nat
  | .exit status => status
  | .breakdown _ => 1

structure Streams where
  stdout : String
  stderr : String
deriving DecidableEq

structure Context where
  read : File.Path → Except File.Fault ByteArray
  depth : Nat
  threshold : Int
  mode : Mode String
  print : Bool

def Context.log (c : Context) (level : Level) (line : String) (s : Streams) : Streams :=
  if c.threshold ≤ level.severity then { s with stderr := s.stderr ++ line ++ "\n" } else s

def Context.runFile (c : Context) (path : File.Path) (s : Streams) : Streams × Option Ending :=
  let s := c.log .info ("loading " ++ path.text) s
  let loaded := File.load c.read c.mode c.depth path
  let s := loaded.trace.foldl (fun s line => c.log .debug line s) s
  match loaded.result with
  | .error (.unreadable fault) =>
      (c.log .error ("cannot read " ++ path.text ++ ": " ++ fault.message path) s, some (.exit 1))
  | .error .notText => (s, some (.breakdown .notText))
  | .error (.program (.error e)) =>
      (c.log .error (path.text ++ ": " ++ e.category.label ++ ": " ++ e.message) s, some (.exit 1))
  | .error (.program f) => (s, some (.breakdown (.failure f)))
  | .ok v =>
      if c.print then
        match v.render c.depth with
        | .ok text => ({ s with stdout := s.stdout ++ text ++ "\n" }, none)
        | .error o => (s, some (.breakdown (.failure (.ofObstacle o))))
      else (s, none)

def Context.runFiles (c : Context) : List File.Path → Streams → Streams × Ending
  | [], s => (s, .exit 0)
  | path :: rest, s =>
      match c.runFile path s with
      | (s, none) => c.runFiles rest s
      | (s, some ending) => (s, ending)

structure Outcome where
  ending : Ending
  streams : Streams
  -- Whether evaluations are traced after the run.
  verbose : Bool

-- Runs the command line; `verbose` tells whether evaluations are traced before the options are read.
def run (read : File.Path → Except File.Fault ByteArray) (depth : Nat) (env : Settings.Variables)
    (verbose : Bool) (argv : List String) : Outcome :=
  match request argv with
  | .help => ⟨.exit 0, ⟨helpText, ""⟩, verbose⟩
  | .misuse message => ⟨.exit 2, ⟨"", misuseText message⟩, verbose⟩
  | .run options =>
      let level := Settings.logLevel env Settings.logLevelVariable Settings.defaultLogLevel
      let threshold := if options.verbose then Level.debug.severity else level
      let verbose := verbose || options.verbose
      let context : Context := ⟨read, depth, threshold, .program verbose, options.print⟩
      let (streams, ending) := context.runFiles (options.files.map File.Path.ofString) ⟨"", ""⟩
      ⟨ending, streams, verbose⟩

end CurriedLisp.CommandLine
