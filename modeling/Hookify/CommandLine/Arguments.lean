import Hookify.Text.Segments

namespace Hookify
namespace CommandLine

/-!
# Arguments

The program takes one of three commands.  Some options belong to a command, and
some may stand before it as well as behind it.  Arguments are read from the
left, and the first one that cannot be accepted ends the reading; what is
missing altogether is only noticed at the end.

The value of an option is checked when the next argument has been recognised,
so an unknown argument behind a bad value is what gets reported.
-/

/-- Why arguments are not carried out. -/
inductive UsageError where
  | displayHelp
  | displayVersion
  | displayHelpOnMissing
  | missingSubcommand
  | missingRequiredArgument
  | invalidSubcommand
  | unknownArgument
  | invalidValue
  | valueValidation
  | tooManyValues
  | argumentConflict
  deriving Repr, DecidableEq

/-- A question about the program that was answered is no mistake. -/
def UsageError.exitCode : UsageError → Nat
  | .displayHelp | .displayVersion => 0
  | _ => 2

/-- What an argument can set. -/
inductive Parameter where
  | help
  | version
  | verbose
  | quiet
  | config
  | output
  | jobs
  | format
  | force
  /-- The one argument without a name: what is to be converted. -/
  | subject
  deriving Repr, DecidableEq

/-- Where arguments are read: before the command, or behind one. -/
inductive Level where
  | program
  | convert
  | batch
  | init
  deriving Repr, DecidableEq

/-- The parameters of a level. -/
def Level.parameters : Level → List Parameter
  | .program => [.help, .version, .verbose, .quiet, .config]
  | .convert => [.help, .verbose, .quiet, .config, .output, .subject]
  | .batch => [.help, .verbose, .quiet, .config, .output, .jobs, .format, .subject]
  | .init => [.help, .verbose, .quiet, .config, .force]

/-- The commands by name. -/
def commands : List (String × Level) :=
  [("convert", .convert), ("batch", .batch), ("init", .init)]

/-- The command that explains the others. -/
def helpCommand : String := "help"

namespace Parameter

/-- The long name of an option. -/
def name? : Parameter → Option String
  | .help => some "help"
  | .version => some "version"
  | .verbose => some "verbose"
  | .quiet => some "quiet"
  | .config => some "config"
  | .output => some "output"
  | .jobs => some "jobs"
  | .format => some "format"
  | .force => some "force"
  | .subject => none

/-- The letter of an option. -/
def letter? : Parameter → Option Char
  | .help => some 'h'
  | .version => some 'V'
  | .verbose => some 'v'
  | .quiet => some 'q'
  | .output => some 'o'
  | .jobs => some 'j'
  | .format | .force => some 'f'
  | .config | .subject => none

/-- The parameter is set to a value. -/
def takesValue : Parameter → Bool
  | .config | .output | .jobs | .format | .subject => true
  | _ => false

end Parameter

/-! ## Values -/

/-- How a summary is printed. -/
inductive SummaryFormat where
  | words
  | json
  deriving Repr, DecidableEq

/-- The format of a name. -/
def SummaryFormat.ofName? (name : String) : Option SummaryFormat :=
  if name == "terminal" then some .words
  else if name == "json" then some .json
  else none

/-- A number of 64 bits, in digits with at most a plus before them. -/
def count? (text : String) : Option Nat :=
  let digits :=
    match text.toList with
    | '+' :: rest => rest
    | chars => chars
  if digits.isEmpty || ! digits.all (fun c => '0' ≤ c && c ≤ '9') then none
  else
    let number := digits.foldl (fun number c => number * 10 + (c.toNat - '0'.toNat)) 0
    if number < Nat.pow 2 64 then some number else none

/-- What is wrong with the value of a parameter. A path must not be empty. -/
def valueError? : Parameter → String → Option UsageError
  | .jobs, value => if (count? value).isSome then none else some .valueValidation
  | .format, value => if (SummaryFormat.ofName? value).isSome then none else some .invalidValue
  | _, value => if value.isEmpty then some .invalidValue else none

/-! ## Reading -/

/-- What has been read at a level. -/
structure Reading where
  level : Level
  /-- The parameters that have been set, with their values. -/
  given : List (Parameter × String) := []
  /-- A parameter that has been named last, with its value if that has been read. -/
  pending : Option (Parameter × Option String) := none
  /-- All further arguments are values. -/
  onlyValues : Bool := false
  deriving Repr

/-- The outcome of a step. -/
abbrev Step := Except UsageError Reading

namespace Reading

/-- A parameter has been set. -/
def has (reading : Reading) (parameter : Parameter) : Bool :=
  reading.given.any (·.1 == parameter)

/-- The value of a parameter. -/
def value? (reading : Reading) (parameter : Parameter) : Option String :=
  reading.given.lookup parameter

/-- Set a parameter to a value. It must not have been set before. -/
def setValue (reading : Reading) (parameter : Parameter) (value : String) : Step :=
  if reading.has parameter then .error .argumentConflict
  else
    match valueError? parameter value with
    | some error => .error error
    | none => .ok { reading with given := reading.given ++ [(parameter, value)] }

/-- Set the parameter that has been named last. It must have got its value by now. -/
def settle (reading : Reading) : Step :=
  match reading.pending with
  | none => .ok reading
  | some (_, none) => .error .invalidValue
  | some (parameter, some value) =>
      { reading with pending := none }.setValue parameter value

/-- Set an option without a value. Only the one for more messages may be repeated. -/
def setFlag (reading : Reading) (parameter : Parameter) : Step := do
  let reading <- reading.settle
  match parameter with
  | .help => .error .displayHelp
  | .version => .error .displayVersion
  | .verbose => .ok { reading with given := reading.given ++ [(.verbose, "")] }
  | _ =>
      if reading.has parameter then .error .argumentConflict
      else .ok { reading with given := reading.given ++ [(parameter, "")] }

/-- Set an option with the value that is attached to it, or wait for its value. -/
def setOption (reading : Reading) (parameter : Parameter) (attached : Option String) : Step := do
  let reading <- reading.settle
  match attached with
  | some value => reading.setValue parameter value
  | none => .ok { reading with pending := some (parameter, none) }

/-- Read an option by its long name; a value may be attached to it. -/
def readLong (reading : Reading) (body : List Char) : Step :=
  let (name, attached) :=
    match Text.upTo? (· == '=') body with
    | some (name, value) => (name, some (String.ofList value))
    | none => (body, none)
  match reading.level.parameters.find? (·.name? == some (String.ofList name)) with
  | none => .error .unknownArgument
  | some parameter =>
      if parameter.takesValue then reading.setOption parameter attached
      else if attached.isSome then .error .tooManyValues
      else reading.setFlag parameter

/-- Read options by their letters. What follows the letter of an option with a value is the value,
behind a sign of equality if there is one. -/
def readLetters (reading : Reading) : List Char → Step
  | [] => .ok reading
  | c :: rest =>
      match reading.level.parameters.find? (·.letter? == some c) with
      | none => .error .unknownArgument
      | some parameter =>
          if parameter.takesValue then
            reading.setOption parameter
              (match rest with
              | [] => none
              | '=' :: value => some (String.ofList value)
              | value => some (String.ofList value))
          else
            match reading.setFlag parameter with
            | .ok reading => readLetters reading rest
            | .error error => .error error

/-- Read an argument without a name. -/
def readSubject (reading : Reading) (argument : String) : Step :=
  let isNext := reading.pending.map (·.1) == some .subject || reading.has .subject
  if reading.level.parameters.contains .subject && ! isNext then do
    let reading <- reading.settle
    .ok { reading with pending := some (.subject, some argument) }
  else if reading.level == .program then
    if reading.onlyValues && (argument == helpCommand || (commands.lookup argument).isSome) then
      .error .unknownArgument
    else .error .invalidSubcommand
  else .error .unknownArgument

/-- An option waits for its value. -/
def isWaiting (reading : Reading) : Bool :=
  match reading.pending with
  | some (_, none) => true
  | _ => false

/-- Read an argument that is no command. -/
def read (reading : Reading) (argument : String) : Step :=
  if reading.onlyValues then reading.readSubject argument
  else
    match argument.toList with
    | ['-', '-'] => .ok { reading with onlyValues := true }
    | '-' :: '-' :: body => reading.readLong body
    | '-' :: c :: rest => reading.readLetters (c :: rest)
    | _ =>
        match reading.pending with
        | some (parameter, none) => .ok { reading with pending := some (parameter, some argument) }
        | _ => reading.readSubject argument

/-- Read the arguments of a command to the end. -/
def readAll (reading : Reading) : List String → Step
  | [] => reading.settle
  | argument :: rest =>
      match reading.read argument with
      | .ok next => next.readAll rest
      | .error error => .error error

end Reading

/-- What the arguments ask for. -/
inductive Command where
  | convert (input : String) (output : Option String)
  | batch (root : String) (output : Option String) (jobs : Option Nat) (format : SummaryFormat)
  | init (force : Bool)
  deriving Repr, DecidableEq

/-- A command with the settings file that was named. -/
structure Invocation where
  command : Command
  config : Option String
  deriving Repr, DecidableEq

/-- The command of a level. What is to be converted must be given. -/
def commandOf (reading : Reading) : Except UsageError Command :=
  match reading.level, reading.value? .subject with
  | .program, _ => .error .missingSubcommand
  | .init, _ => .ok (.init (reading.has .force))
  | _, none => .error .missingRequiredArgument
  | .convert, some input => .ok (.convert input (reading.value? .output))
  | .batch, some root =>
      .ok (.batch root (reading.value? .output) ((reading.value? .jobs).bind count?)
        (((reading.value? .format).bind SummaryFormat.ofName?).getD .words))

/-- The command that explains others takes the name of one of them, or none. -/
def explain : List String → UsageError
  | [] => .displayHelp
  | [name] =>
      if name == helpCommand || (commands.lookup name).isSome then .displayHelp
      else .invalidSubcommand
  | _ => .invalidSubcommand

/-- Read arguments up to the command, and then those of the command. -/
def readProgram (reading : Reading) : List String → Except UsageError Invocation
  | [] => do
      let reading <- reading.settle
      if reading.given.isEmpty then .error .displayHelpOnMissing else .error .missingSubcommand
  | argument :: rest =>
      let isCommand := ! reading.onlyValues && ! reading.isWaiting
      if isCommand && argument == helpCommand then .error (explain rest)
      else
        match if isCommand then commands.lookup argument else none with
        | some level => do
            let behind <- ({ level := level } : Reading).readAll rest
            let command <- commandOf behind
            let before <- reading.settle
            .ok ⟨command, (behind.value? .config).or (before.value? .config)⟩
        | none =>
            match reading.read argument with
            | .ok next => readProgram next rest
            | .error error => .error error

/-- What the arguments ask for, or why they are not carried out. -/
def parse (arguments : List String) : Except UsageError Invocation :=
  readProgram { level := .program } arguments

end CommandLine
end Hookify
