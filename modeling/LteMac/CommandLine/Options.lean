/-!
# Options

The options of the program: a scenario file, a number of subframes, pacing, and help. Options with
a value take it from the same argument (`-n5`, `-n=5`, `--subframes=5`) or from the next one, which
may not look like an option; options without a value may share one dash. No option may be given
twice, and there are no other arguments. Arguments are looked at from the first on, so that help
is given if it is asked for before anything is wrong.
-/

namespace LteMac

/-- What the program is to do. -/
structure Options where
  /-- The path of the scenario file. -/
  config : Option String := none
  /-- How long to run, in place of what the scenario says. -/
  subframes : Option Nat := none
  /-- Whether subframes take as long as they do on the air. -/
  realTime : Bool := false
deriving DecidableEq

/-- What the arguments ask for. -/
inductive Command where
  /-- Asks how the program is used. -/
  | help
  /-- Asks for something that there is not. -/
  | invalid
  /-- Runs a simulation. -/
  | simulate (options : Options)
deriving DecidableEq

/-- The options that have a value. -/
inductive ValueOption where
  | config
  | subframes
deriving DecidableEq

/-- What an option stands for. -/
inductive OptionKind where
  | value (option : ValueOption)
  | realTime
  | help

/-- The option with a given letter. -/
def OptionKind.ofLetter? : Char → Option OptionKind
  | 'c' => some (.value .config)
  | 'n' => some (.value .subframes)
  | 'r' => some .realTime
  | 'h' => some .help
  | _ => none

/-- The option with a given name. -/
def OptionKind.ofName? : String → Option OptionKind
  | "config" => some (.value .config)
  | "subframes" => some (.value .subframes)
  | "real-time" => some .realTime
  | "help" => some .help
  | _ => none

/-- Numbers of subframes are below this. -/
def subframesLimit : Nat := UInt64.size

/-- A number of subframes: digits, after a plus sign or not. -/
def subframes? (text : String) : Option Nat :=
  let chars := text.toList
  let digits := if chars.head? = some '+' then chars.tail else chars
  if digits.isEmpty || !digits.all Char.isDigit then none
  else
    let n := digits.foldl (fun n x => 10 * n + (x.toNat - '0'.toNat)) 0
    if n < subframesLimit then some n else none

namespace Options

/-- Sets an option with a value. -/
def set? (o : Options) (option : ValueOption) (text : String) : Option Options :=
  match option with
  | .config => if o.config.isSome || text.isEmpty then none else some { o with config := text }
  | .subframes =>
    if o.subframes.isSome then none
    else (subframes? text).map fun n => { o with subframes := n }

/-- Sets pacing. -/
def setRealTime? (o : Options) : Option Options :=
  if o.realTime then none else some { o with realTime := true }

end Options

/-- How far an argument was understood. -/
inductive Progress where
  /-- It was understood, and the next argument is looked at. -/
  | done (options : Options)
  /-- The value is the next argument. -/
  | needs (options : Options) (option : ValueOption)
  /-- It asks for help, so no other argument matters. -/
  | help
  /-- It was not understood. -/
  | invalid

/-- Goes on if an option could be set. -/
def Progress.ofOptions : Option Options → Progress
  | some o => .done o
  | none => .invalid

/-- Understands the letters after one dash. -/
def parseLetters (o : Options) : List Char → Progress
  | [] => .done o
  | letter :: rest =>
    match OptionKind.ofLetter? letter with
    | none => .invalid
    | some .help => .help
    | some .realTime =>
      match o.setRealTime? with
      | some o => parseLetters o rest
      | none => .invalid
    | some (.value option) =>
      match rest with
      | [] => .needs o option
      | '=' :: value => .ofOptions (o.set? option (String.ofList value))
      | value => .ofOptions (o.set? option (String.ofList value))

/-- Understands what follows two dashes. -/
def parseName (o : Options) (text : List Char) : Progress :=
  let name := String.ofList (text.takeWhile (· ≠ '='))
  let value := (text.dropWhile (· ≠ '=')).tail?.map String.ofList
  match OptionKind.ofName? name, value with
  | some .help, none => .help
  | some .realTime, none => .ofOptions o.setRealTime?
  | some (.value option), some value => .ofOptions (o.set? option value)
  | some (.value option), none => .needs o option
  | _, _ => .invalid

/-- Whether an argument looks like an option, so that it is no value. -/
def looksLikeOption (argument : String) : Bool :=
  match argument.toList with
  | '-' :: _ :: _ => true
  | _ => false

/-- Understands arguments, given the options so far. -/
def parseArguments (o : Options) : List String → Command
  | [] => .simulate o
  | argument :: rest =>
    match argument.toList with
    | ['-', '-'] => if rest.isEmpty then .simulate o else .invalid
    | '-' :: letter :: letters =>
      let progress :=
        if letter = '-' then parseName o letters else parseLetters o (letter :: letters)
      match progress with
      | .done o => parseArguments o rest
      | .help => .help
      | .invalid => .invalid
      | .needs o option =>
        match rest with
        | [] => .invalid
        | value :: rest =>
          if looksLikeOption value then .invalid
          else match o.set? option value with
            | some o => parseArguments o rest
            | none => .invalid
    | _ => .invalid

/-- What arguments ask for. -/
def Command.parse (arguments : List String) : Command := parseArguments {} arguments

end LteMac
