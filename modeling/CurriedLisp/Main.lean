import CurriedLisp.CommandLine.Run

set_option autoImplicit false

namespace CurriedLisp

open CommandLine

def settingNames : List String :=
  [Settings.recursionLimitVariable, Settings.stackSizeVariable, Settings.verboseVariable,
    Settings.logLevelVariable]

def readEnvironment : IO Settings.Variables := do
  let found ← settingNames.mapM fun name => return (name, ← IO.getEnv name)
  return found.filterMap fun (name, value) => value.map fun v => (name, v)

def faultOf : IO.Error → File.Fault
  | .interrupted _ code reason | .noFileOrDirectory _ code reason => ⟨code.toNat, reason⟩
  | .alreadyExists _ code reason | .invalidArgument _ code reason | .permissionDenied _ code reason
  | .resourceExhausted _ code reason | .inappropriateType _ code reason | .noSuchThing _ code reason =>
      ⟨code.toNat, reason⟩
  | .otherError code reason | .resourceBusy code reason | .resourceVanished code reason
  | .unsupportedOperation code reason | .hardwareFault code reason | .unsatisfiedConstraints code reason
  | .illegalOperation code reason | .protocolError code reason | .timeExpired code reason => ⟨code.toNat, reason⟩
  -- No failure of the system; it counts as one of input and output.
  | .unexpectedEof => ⟨5, "unexpected end of file"⟩
  | .userError reason => ⟨5, reason⟩

def readPath (path : File.Path) : IO (File.Path × Except File.Fault ByteArray) := do
  try return (path, .ok (← IO.FS.readBinFile path.text))
  catch e => return (path, .error (faultOf e))

def namedPaths (argv : List String) : List File.Path :=
  match request argv with
  | .run options => options.files.map File.Path.ofString
  | _ => []

def breakdownText : Breakdown → String
  | .notText => "invalid UTF-8"
  | .failure (.numeral e) => e.message
  | .failure _ => Error.recursion.message

def runProgram (args : List String) : IO UInt32 := do
  let env ← readEnvironment
  let contents ← (namedPaths args).mapM readPath
  let read path := (contents.lookup path).getD (.error .missing)
  let outcome := run read (Settings.nestingLimit env) env (Settings.verbose env Settings.verboseVariable) args
  (← IO.getStdout).putStr outcome.streams.stdout
  (← IO.getStderr).putStr outcome.streams.stderr
  if let .breakdown cause := outcome.ending then IO.eprintln (breakdownText cause)
  return UInt32.ofNat outcome.ending.status

end CurriedLisp

def main (args : List String) : IO UInt32 := CurriedLisp.runProgram args
