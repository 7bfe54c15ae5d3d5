import CurriedLisp.CommandLine.Run
import CurriedLisp.Proofs.Eval.Tracing
import Mathlib.Data.List.Forall2

set_option autoImplicit false

namespace CurriedLisp.CommandLine

-- Arguments that name files and ask for their values, by one option before or after them.
structure PrintsFiles (argv files : List String) : Prop where
  nonempty : files ≠ []
  named : ∀ name ∈ files, name.toList.head? ≠ some '-'
  option : ∃ option ∈ ["-p", "--print"], argv = option :: files ∨ argv = files ++ [option]

theorem classify_name {name : String} (named : name.toList.head? ≠ some '-') : classify name = .ok .operand := by
  unfold classify
  cases letters : name.toList with
  | nil => rfl
  | cons c rest =>
      have other : c ≠ '-' := fun same => named (by rw [letters, same]; rfl)
      split <;> simp_all

theorem classifyAll_names {files : List String} (named : ∀ name ∈ files, name.toList.head? ≠ some '-')
    {rest : List String} {args : List (String × Argument)} (classified : classifyAll rest = .ok args) :
    classifyAll (files ++ rest) = .ok (files.map (·, .operand) ++ args) := by
  induction files with
  | nil => exact classified
  | cons name files ih =>
      obtain ⟨first, others⟩ := List.forall_mem_cons.mp named
      rw [List.cons_append, classifyAll, classify_name first, ih others]
      rfl

def Progress.addFiles (p : Progress) (names : List String) : Progress :=
  { p with options := { p.options with files := p.options.files ++ names } }

theorem Progress.addFiles_addFiles (p : Progress) (first others : List String) :
    (p.addFiles first).addFiles others = p.addFiles (first ++ others) := by
  simp [addFiles, List.append_assoc]

theorem gather_names {p : Progress} (together : p.closed = false) (files : List String)
    (rest : List (String × Argument)) :
    gather p (files.map (·, .operand) ++ rest) = gather (p.addFiles files) rest := by
  induction files generalizing p with
  | nil => simp [Progress.addFiles]
  | cons name files ih =>
      have added : p.addOperand name = p.addFiles [name] := if_neg (by simp [together])
      have still : (p.addFiles [name]).closed = false := together
      rw [List.map_cons, List.cons_append, gather, added, ih still, Progress.addFiles_addFiles, List.singleton_append]

theorem classify_print {option : String} (spelled : option ∈ ["-p", "--print"]) : ∃ a, classify option = .ok a ∧
    a ≠ .separator ∧ ∀ p rest, gather p ((option, a) :: rest) = gather (p.endFiles.addFlag .print) rest := by
  simp only [List.mem_cons, List.not_mem_nil, or_false] at spelled
  obtain rfl | rfl := spelled
  · exact ⟨.short .print none, by decide, nofun, fun _ _ => rfl⟩
  · exact ⟨.long .print none, by decide, nofun, fun _ _ => rfl⟩

theorem classifyAll_option {option : String} {a : Argument} (classified : classify option = .ok a)
    (other : a ≠ .separator) {rest : List String} {args : List (String × Argument)}
    (after : classifyAll rest = .ok args) : classifyAll (option :: rest) = .ok ((option, a) :: args) := by
  rw [classifyAll, classified]
  cases a with
  | separator => exact absurd rfl other
  | _ =>
      simp only [after]
      rfl

theorem PrintsFiles.request {argv files : List String} (asks : PrintsFiles argv files) :
    request argv = .run ⟨false, true, files⟩ := by
  obtain ⟨nonempty, named, option, spelled, shape⟩ := asks
  obtain ⟨a, classified, other, gathered⟩ := classify_print spelled
  have finished : files.isEmpty = false := List.isEmpty_eq_false_iff.mpr nonempty
  have ended : classifyAll [] = .ok [] := rfl
  obtain rfl | rfl := shape
  · have names := classifyAll_names named ended
    rw [List.append_nil] at names
    rw [CommandLine.request, classifyAll_option classified other names]
    simp only [gathered]
    rw [gather_names rfl]
    simp [gather, Progress.finish, Progress.start, Progress.endFiles, Progress.addFlag, Progress.addFiles, finished]
  · rw [CommandLine.request, classifyAll_names named (classifyAll_option classified other ended)]
    simp only []
    rw [gather_names rfl, gathered]
    simp [gather, Progress.finish, Progress.start, Progress.endFiles, Progress.addFlag, Progress.addFiles, finished]

variable {read read' : File.Path → Except File.Fault ByteArray} {depth : Nat}

inductive Stops (read : File.Path → Except File.Fault ByteArray) (depth : Nat) (path : File.Path) : Prop where
  | unreadable {fault : File.Fault} : read path = .error fault → Stops read depth path
  | notText {bytes : ByteArray} : read path = .ok bytes → File.decode? bytes = none → Stops read depth path
  | failing {bytes : ByteArray} {code : String} {f : Failure} {w : World String} : read path = .ok bytes →
      File.decode? bytes = some code → evalText (.program false) depth code .start = .error f w → Stops read depth path
  | unprintable {v : Value} : (File.load read (.program false) depth path).result = .ok v → v.overlong = true →
      Stops read depth path

def Prints (read : File.Path → Except File.Fault ByteArray) (depth : Nat) (path : File.Path) (v : Value) : Prop :=
  (File.load read (.program false) depth path).result = .ok v ∧ v.overlong = false

theorem load_stops {path : File.Path} {e : File.LoadFailure}
    (failed : (File.load read (.program false) depth path).result = .error e) : Stops read depth path := by
  cases found : read path with
  | error fault => exact .unreadable found
  | ok bytes =>
      cases decoded : File.decode? bytes with
      | none => exact .notText found decoded
      | some code =>
          cases ran : evalText (.program false) depth code .start with
          | error f w => exact .failing found decoded ran
          | ok v w =>
              simp only [File.load, found, decoded, ran] at failed
              cases failed

theorem Prints.goes {path : File.Path} {v : Value} (prints : Prints read depth path v) : ¬ Stops read depth path := by
  obtain ⟨loaded, short⟩ := prints
  intro stops
  cases stops with
  | unreadable found =>
      simp only [File.load, found] at loaded
      cases loaded
  | notText found decoded =>
      simp only [File.load, found, decoded] at loaded
      cases loaded
  | failing found decoded ran =>
      simp only [File.load, found, decoded, ran] at loaded
      cases loaded
  | unprintable again long =>
      cases again.symm.trans loaded
      cases long.symm.trans short

theorem prints_go {done : List File.Path} {values : List Value} (each : List.Forall₂ (Prints read depth) done values) :
    ∀ path ∈ done, ¬ Stops read depth path := by
  induction each with
  | nil => exact fun _ never => absurd never List.not_mem_nil
  | cons prints _ ih => exact List.forall_mem_cons.mpr ⟨prints.goes, ih⟩

def printing (read : File.Path → Except File.Fault ByteArray) (depth : Nat) (threshold : Int) : Context :=
  ⟨read, depth, threshold, .program false, true⟩

namespace Context

theorem log_stdout (c : Context) (level : Level) (line : String) (s : Streams) :
    (c.log level line s).stdout = s.stdout := by
  rw [log]
  split <;> rfl

theorem logs_stdout (c : Context) (level : Level) (lines : List String) (s : Streams) :
    (lines.foldl (fun s line => c.log level line s) s).stdout = s.stdout := by
  induction lines generalizing s with
  | nil => rfl
  | cons line lines ih => rw [List.foldl_cons, ih, log_stdout]

def opened (c : Context) (path : File.Path) (s : Streams) : Streams :=
  (File.load c.read c.mode c.depth path).trace.foldl (fun s line => c.log .debug line s)
    (c.log .info ("loading " ++ path.text) s)

theorem opened_stdout (c : Context) (path : File.Path) (s : Streams) : (c.opened path s).stdout = s.stdout := by
  rw [opened, logs_stdout, log_stdout]

theorem runFile_failed (c : Context) {path : File.Path} {e : File.LoadFailure}
    (failed : (File.load c.read c.mode c.depth path).result = .error e) (s : Streams) :
    ∃ u ending, c.runFile path s = (u, some ending) ∧ ending.status = 1 ∧ u.stdout = s.stdout := by
  have silent : (c.opened path s).stdout = s.stdout := c.opened_stdout path s
  have reported (line : String) : (c.log .error line (c.opened path s)).stdout = s.stdout := by
    rw [log_stdout, silent]
  simp only [runFile, failed]
  cases e with
  | unreadable fault => exact ⟨_, _, rfl, rfl, reported _⟩
  | notText => exact ⟨_, _, rfl, rfl, silent⟩
  | program f =>
      cases f with
      | error e => exact ⟨_, _, rfl, rfl, reported _⟩
      | _ => exact ⟨_, _, rfl, rfl, silent⟩

theorem runFile_written (c : Context) (asked : c.print = true) {path : File.Path} {v : Value} {text : String}
    (loaded : (File.load c.read c.mode c.depth path).result = .ok v) (written : v.render c.depth = .ok text)
    (s : Streams) : ∃ u, c.runFile path s = (u, none) ∧ u.stdout = s.stdout ++ (text ++ "\n") := by
  refine ⟨{ c.opened path s with stdout := (c.opened path s).stdout ++ text ++ "\n" }, ?_, ?_⟩
  · simp only [runFile, loaded, asked, if_true, written]
    rfl
  · rw [opened_stdout, String.append_assoc]

theorem runFile_unwritten (c : Context) (asked : c.print = true) {path : File.Path} {v : Value} {o : Obstacle}
    (loaded : (File.load c.read c.mode c.depth path).result = .ok v) (unwritten : v.render c.depth = .error o)
    (s : Streams) : c.runFile path s = (c.opened path s, some (.breakdown (.failure (.ofObstacle o)))) := by
  simp only [runFile, loaded, asked, if_true, unwritten]
  rfl

inductive Goes (read : File.Path → Except File.Fault ByteArray) (depth : Nat) (path : File.Path) :
    String → Option Ending → Prop where
  | on {v : Value} : Prints read depth path v → Goes read depth path (v.text ++ "\n") none
  | stopped {ending : Ending} : Stops read depth path → ending.status = 1 → Goes read depth path "" (some ending)
  | deep : Goes read depth path "" (some (.breakdown (.failure .tooDeep)))

theorem runFile_goes (read : File.Path → Except File.Fault ByteArray) (depth : Nat) (threshold : Int)
    (path : File.Path) (s : Streams) :
    ∃ u out ending, (printing read depth threshold).runFile path s = (u, ending) ∧ u.stdout = s.stdout ++ out ∧
      Goes read depth path out ending := by
  let c := printing read depth threshold
  have silent : (c.opened path s).stdout = s.stdout ++ "" := by rw [opened_stdout, String.append_empty]
  cases loaded : (File.load read (.program false) depth path).result with
  | error e =>
      obtain ⟨u, ending, ran, status, kept⟩ := c.runFile_failed loaded s
      exact ⟨u, "", some ending, ran, by rw [kept, String.append_empty], .stopped (load_stops loaded) status⟩
  | ok v =>
      by_cases deep : v.render depth = .error .tooDeep
      · exact ⟨_, "", _, c.runFile_unwritten rfl loaded deep s, silent, .deep⟩
      · have shown := v.render_overlong deep
        cases long : v.overlong with
        | true =>
            rw [long] at shown
            exact ⟨_, "", _, c.runFile_unwritten rfl loaded shown s, silent, .stopped (.unprintable loaded long) rfl⟩
        | false =>
            rw [long] at shown
            obtain ⟨u, ran, printed⟩ := c.runFile_written rfl loaded shown s
            exact ⟨u, _, none, ran, printed, .on ⟨loaded, long⟩⟩

-- A run over files, by induction on them: what is printed, and how it ends.
theorem runFiles_prints (threshold : Int) (paths : List File.Path) (s : Streams)
    (within : ((printing read depth threshold).runFiles paths s).2 ≠ .breakdown (.failure .tooDeep)) :
    let outcome := (printing read depth threshold).runFiles paths s
    ∃ done values rest, paths = done ++ rest ∧ List.Forall₂ (Prints read depth) done values ∧
      outcome.1.stdout = s.stdout ++ String.join (values.map fun v => v.text ++ "\n") ∧
      (rest = [] ∧ outcome.2 = .exit 0 ∨
        ∃ path later, rest = path :: later ∧ Stops read depth path ∧ outcome.2.status = 1) := by
  induction paths generalizing s with
  | nil => exact ⟨[], [], [], rfl, .nil, by simp [runFiles], .inl ⟨rfl, rfl⟩⟩
  | cons path paths ih =>
      obtain ⟨u, out, ending, ran, printed, goes⟩ := runFile_goes read depth threshold path s
      rw [runFiles, ran] at within ⊢
      cases goes with
      | on prints =>
          obtain ⟨done, values, rest, rfl, each, shown, ended⟩ := ih u within
          refine ⟨path :: done, _ :: values, rest, rfl, .cons prints each, ?_, ended⟩
          dsimp only
          rw [shown, printed, String.append_assoc, List.map_cons, String.join_cons]
      | stopped stops status => exact ⟨[], [], path :: paths, rfl, .nil, printed, .inr ⟨path, paths, rfl, stops, status⟩⟩
      | deep => exact absurd rfl within

theorem runFile_congr (threshold : Int) {path : File.Path} (same : read' path = read path) (s : Streams) :
    (printing read' depth threshold).runFile path s = (printing read depth threshold).runFile path s := by
  have loaded : File.load read' (.program false) depth path = File.load read (.program false) depth path := by
    simp only [File.load, same]
  have logged : (printing read' depth threshold).log = (printing read depth threshold).log := rfl
  simp only [runFile, logged]
  simp only [printing, loaded]

theorem runFile_stops (threshold : Int) {path : File.Path} (stops : Stops read depth path) (s : Streams) :
    ∃ u ending, (printing read depth threshold).runFile path s = (u, some ending) := by
  obtain ⟨u, out, ending, ran, -, goes⟩ := runFile_goes read depth threshold path s
  cases goes with
  | on prints => exact absurd stops prints.goes
  | stopped => exact ⟨u, _, ran⟩
  | deep => exact ⟨u, _, ran⟩

theorem runFiles_stops (threshold : Int) {done : List File.Path} {path : File.Path} (stops : Stops read depth path)
    (same : ∀ p ∈ done ++ [path], read' p = read p) (later later' : List File.Path) (s : Streams) :
    (printing read' depth threshold).runFiles (done ++ path :: later') s =
      (printing read depth threshold).runFiles (done ++ path :: later) s := by
  induction done generalizing s with
  | nil =>
      obtain ⟨u, ending, ran⟩ := runFile_stops threshold stops s
      have ran' := (runFile_congr threshold (same path List.mem_cons_self) s).trans ran
      rw [List.nil_append, List.nil_append, runFiles, runFiles, ran, ran']
  | cons p done ih =>
      obtain ⟨first, others⟩ := List.forall_mem_cons.mp same
      rw [List.cons_append, List.cons_append, runFiles, runFiles, runFile_congr threshold first]
      obtain ⟨u, _ | ending⟩ := (printing read depth threshold).runFile p s
      · exact ih others u
      · rfl

end Context

theorem PrintsFiles.run {argv files : List String} (asks : PrintsFiles argv files)
    (read : File.Path → Except File.Fault ByteArray) (depth : Nat) (env : Settings.Variables) :
    let threshold := Settings.logLevel env Settings.logLevelVariable Settings.defaultLogLevel
    let result := (printing read depth threshold).runFiles (files.map File.Path.ofString) ⟨"", ""⟩
    run read depth env false argv = ⟨result.2, result.1, false⟩ := by
  rw [CommandLine.run, asks.request]
  rfl

/-- A run that prints values and traces nothing prints the value of each file before the first that stops it, on a line
of its own, and nothing more. Each value is what loading that file alone gives. The status is 0 exactly if no file
stops the run, and 1 otherwise; a file does that which cannot be read, is no text, fails, or has a value with an
integer that is too long to be written. Neither which files stand behind it nor what they hold makes a difference. -/
theorem files_run_until_one_stops {read : File.Path → Except File.Fault ByteArray} {depth : Nat}
    {env : Settings.Variables} {argv files : List String} (asks : PrintsFiles argv files)
    (within : (run read depth env false argv).ending ≠ .breakdown (.failure .tooDeep)) :
    let outcome := run read depth env false argv
    let paths := files.map File.Path.ofString
    (outcome.ending.status = 0 ↔ ∀ path ∈ paths, ¬ Stops read depth path) ∧
    ∃ done values rest, paths = done ++ rest ∧ List.Forall₂ (Prints read depth) done values ∧
      outcome.streams.stdout = String.join (values.map fun v => v.text ++ "\n") ∧
      (rest = [] ∧ outcome.ending = .exit 0 ∨
        ∃ path later, rest = path :: later ∧ Stops read depth path ∧ outcome.ending.status = 1 ∧
          ∀ read' argv' files' later', PrintsFiles argv' files' →
            files'.map File.Path.ofString = done ++ path :: later' →
            (∀ p ∈ done ++ [path], read' p = read p) → run read' depth env false argv' = outcome) := by
  intro outcome paths
  have ran : outcome = _ := asks.run read depth env
  rw [asks.run read depth env] at within
  obtain ⟨done, values, rest, split, each, printed, ended⟩ := Context.runFiles_prints _ paths ⟨"", ""⟩ within
  have stdout : outcome.streams.stdout = String.join (values.map fun v => v.text ++ "\n") := by
    rw [ran, printed, String.empty_append]
  obtain ⟨rfl, exits⟩ | ⟨path, later, rfl, stops, status⟩ := ended
  · have exits : outcome.ending = .exit 0 := by rw [ran, exits]
    have none : ∀ path ∈ paths, ¬ Stops read depth path := by
      rw [split, List.append_nil]
      exact prints_go each
    exact ⟨iff_of_true (by rw [exits]; rfl) none, done, values, [], split, each, stdout, .inl ⟨rfl, exits⟩⟩
  · have status : outcome.ending.status = 1 := by rw [ran, status]
    have present : path ∈ paths := by simp [split]
    have unaffected : ∀ read' argv' files' later', PrintsFiles argv' files' →
        files'.map File.Path.ofString = done ++ path :: later' →
        (∀ p ∈ done ++ [path], read' p = read p) → CommandLine.run read' depth env false argv' = outcome := by
      intro read' argv' files' later' asks' split' same
      rw [ran, asks'.run read' depth env, split', show files.map File.Path.ofString = done ++ path :: later from split]
      rw [Context.runFiles_stops _ stops same later]
    exact ⟨iff_of_false (by rw [status]; decide) fun none => none path present stops, done, values, path :: later, split,
      each, stdout, .inr ⟨path, later, rfl, stops, status, unaffected⟩⟩

-- What the first file defines is unknown to the second; the third is not come to.
theorem files_run_until_one_stops_unbound :
    let read : File.Path → Except File.Fault ByteArray := fun path =>
      .ok (if path.root = "" then "(define x 1) (list x 'y)" else "(+ x 1)").toUTF8
    let files := ["first", "/second", "third"]
    let outcome := run read Settings.defaultRecursionLimit [] false ("--print" :: files)
    (PrintsFiles ("--print" :: files) files ∧ outcome.ending ≠ .breakdown (.failure .tooDeep)) ∧
      outcome.streams.stdout = "(1 y)\n" ∧
      ∃ path ∈ files.map File.Path.ofString, Stops read Settings.defaultRecursionLimit path := by
  intro read files outcome
  have asks : PrintsFiles ("--print" :: files) files := ⟨nofun, by decide, "--print", by decide, .inl rfl⟩
  have ran : outcome = _ := asks.run read Settings.defaultRecursionLimit []
  have exits : outcome.ending = .exit 1 := by
    rw [ran]
    decide +kernel
  have printed : outcome.streams.stdout = "(1 y)\n" := by
    rw [ran]
    decide +kernel
  have within : outcome.ending ≠ .breakdown (.failure .tooDeep) := by
    rw [exits]
    nofun
  obtain ⟨status, -⟩ := files_run_until_one_stops asks within
  refine ⟨⟨asks, within⟩, printed, ?_⟩
  have failed : outcome.ending.status ≠ 0 := by
    rw [exits]
    decide
  simpa using mt status.mpr failed

end CurriedLisp.CommandLine
