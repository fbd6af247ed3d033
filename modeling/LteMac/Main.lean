import LteMac.CommandLine.Run

/-!
# Command line

Reads the scenario file, runs the program and writes its log.
-/

open LteMac

/-- What the arguments of the program are. -/
def usage : String := "\n".intercalate [
  "LTE FF MAC scheduler simulation driver",
  "",
  "Usage: ffmac-sim [OPTIONS]",
  "",
  "Options:",
  "  -c, --config <CONFIG>        Path to the YAML simulation configuration file",
  "  -n, --subframes <SUBFRAMES>  Number of subframes to run (overrides the configuration file)",
  "  -r, --real-time              Pace subframes at 1 ms of wall-clock time",
  "  -h, --help                   Print help"]

/-- The reason why reading a file failed. -/
def fileErrorOf : IO.Error → FileError
  | .noFileOrDirectory .. => .missing
  | .inappropriateType _ code details | .permissionDenied _ code details
  | .otherError code details => .other details code.toNat
  | _ => .notText

/-- Reads the file that is asked for. -/
def readConfig (options : Options) : IO (Except FileError String) := do
  match options.config with
  | none => return .error .missing
  | some path =>
    try return .ok (← IO.FS.readFile path) catch e => return .error (fileErrorOf e)

/-- Writes a log line. -/
def writeLine (line : LogLine) : IO Unit :=
  IO.println s!"{line.level.name}: {line.text}"

/-- The program. -/
def main (arguments : List String) : IO UInt32 := do
  match Command.parse arguments with
  | .help =>
    IO.println usage
    return 0
  | .invalid =>
    IO.eprintln usage
    return 2
  | .simulate options =>
    let file ← readConfig options
    let result := options.run fun _ => file
    if options.realTime then IO.sleep result.subframes.toUInt32
    result.lines.forM writeLine
    return result.exitCode.toUInt32
