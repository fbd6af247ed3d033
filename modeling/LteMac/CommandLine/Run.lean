import LteMac.CommandLine.Options
import LteMac.Scenario.File
import LteMac.Simulation.Log

/-!
# The program

What the program writes and how it ends, given its arguments and a way to read files. It loads a
scenario, runs it and reports on each cell.
-/

namespace LteMac

/-- Why a file could not be read. -/
inductive FileError where
  /-- There is no such file. -/
  | missing
  /-- It is a directory. -/
  | directory
  /-- A part of its path is not a directory. -/
  | noDirectory
  /-- Another reason of the system, with its number. -/
  | other (reason : String) (code : Nat)
  /-- It holds no text. -/
  | notText
deriving DecidableEq

/-- What is said about a file that could not be read. -/
def FileError.message : FileError → String
  | missing => "No such file or directory (os error 2)"
  | directory => "Is a directory (os error 21)"
  | noDirectory => "Not a directory (os error 20)"
  | other reason code => s!"{reason} (os error {code})"
  | notText => "stream did not contain valid UTF-8"

/-- Why a scenario could not be loaded. -/
inductive LoadError where
  /-- The file could not be read. -/
  | unopened (path : String) (cause : FileError)
  /-- The file was read, but describes no scenario. -/
  | refused (path : String) (cause : ScenarioError)

/-- What is said about a scenario that could not be loaded. -/
def LoadError.message : LoadError → String
  | unopened path cause => s!"Cannot open configuration file: {path}: {cause.message}"
  | refused path cause => s!"Invalid configuration file: {path}: {cause.message}"

/-- A way to read files. -/
abbrev FileReader := String → Except FileError String

/-- The scenario in a file. -/
def Scenario.load (read : FileReader) (path : String) : Except LoadError Scenario := do
  let text ← (read path).mapError (.unopened path)
  (Scenario.parse text).mapError (.refused path)

/-- How the program ended. -/
structure RunResult where
  /-- 0, unless the run failed. -/
  exitCode : Nat
  /-- What was logged, in order. -/
  lines : List LogLine
  /-- Subframes that each cell was run for. -/
  subframes : Nat := 0
deriving DecidableEq

namespace Options

/-- An option that may be left out, as text. -/
def optionText (value : Option String) : String :=
  match value with
  | some text => s!"Some({text})"
  | none => "None"

/-- The first line of the program. -/
def startLine (o : Options) : LogLine :=
  let config := optionText (o.config.map Text.quoted)
  let subframes := optionText (o.subframes.map toString)
  ⟨.info, s!"ffmac-sim starting up config={config} subframes={subframes} " ++
    s!"real_time={o.realTime}"⟩

/-- The line for a run without a scenario file. -/
def defaultLine : LogLine :=
  ⟨.warn, "No configuration file provided, using the default scenario"⟩

/-- The scenario that is asked for, and what is said about it. -/
def scenario (o : Options) (read : FileReader) : Except LoadError (Scenario × List LogLine) := do
  let (s, lines) ← match o.config with
    | some path => (Scenario.load read path).map (·, [])
    | none => .ok (Scenario.default, [defaultLine])
  return ({ s with subframes := o.subframes.getD s.subframes }, lines)

end Options

/-- What is said about the run of a cell. -/
def runLines : Except SchedulerError CellReport → List LogLine
  | .ok report => report.lines
  | .error e => [⟨.error, s!"Simulation aborted: {e.message}"⟩]

/-- Runs the program with given options. -/
def Options.run (o : Options) (read : FileReader) : RunResult :=
  match o.scenario read with
  | .error e =>
    { exitCode := 1
      lines := [o.startLine, ⟨.error, s!"Failed to load simulation configuration: {e.message}"⟩] }
  | .ok (s, lines) =>
    let runs := s.run
    { exitCode := if runs.any (·.toOption.isNone) then 1 else 0
      lines := o.startLine :: lines ++ runs.flatMap runLines
      subframes := s.subframes }

/-- Runs the program. Help ends well and a wrong argument with a code of its own; neither writes
a log. -/
def Command.run (read : FileReader) : Command → RunResult
  | help => { exitCode := 0, lines := [] }
  | invalid => { exitCode := 2, lines := [] }
  | simulate options => options.run read

end LteMac
