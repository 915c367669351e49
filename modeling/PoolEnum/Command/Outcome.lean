import PoolEnum.Command.Arguments
import PoolEnum.Command.LogFilter
import PoolEnum.Run

/-!
# PoolEnum.Command.Outcome

What the command does with its arguments, and what it shows of that.

The paths of a run come from the flags, else from the settings document, else
from the defaults; the rest of its settings from the document, else from the
defaults. How much of the log is shown is decided after the run and from nothing
else, so it changes nothing but what is shown.
-/

namespace PoolEnum.Command

variable {m : Type → Type} [Monad m]

/-- What the command does on the way to an enum. -/
inductive Task
  /-- Reading the settings document at a path. -/
  | load (config : String)
  /-- Checking the settings once the flags are in them. -/
  | check
  /-- Making the enum of the table at a path. -/
  | generate (input : String)
  deriving DecidableEq, Repr

/-- That a task failed, in words. -/
def Task.failed : Task → String
  | load config => "Failed to load config: " ++ config
  | check => "Invalid generator configuration"
  | generate input => "Failed to generate enum from " ++ input

/-- A task that failed, and why. -/
structure Trouble where
  task : Task
  failure : Failure
  deriving DecidableEq, Repr

/-- A run of the command: its log, and what stopped it, if anything did. -/
structure Trial where
  log : List Event
  trouble : Option Trouble
  deriving DecidableEq, Repr

/-- The outcome of the command. -/
structure Outcome where
  exit : Nat
  /-- What the command prints. -/
  output : String
  /-- The lines of its messages. -/
  messages : List String
  deriving DecidableEq, Repr

/-! ## running -/

namespace Options

/-- Settings with the paths that the flags give. -/
def override (o : Options) (s : Settings) : Settings :=
  { s with input := o.input.getD s.input, output := o.output.getD s.output }

/-- The settings of a run. -/
def settings (o : Options) (s : Storage m) : m (Except Trouble Settings) := do
  match o.config with
  | none => return .ok (o.override {})
  | some path =>
    match ← s.loadSettings path with
    | .ok found => return .ok (o.override found)
    | .error failure => return .error { task := .load path, failure }

/-- Runs what the options ask for. -/
def run (o : Options) (s : Storage m) : m Trial := do
  match ← o.settings s with
  | .error trouble => return { log := [], trouble := some trouble }
  | .ok settings =>
    match Generator.ofSettings settings with
    | .error fault =>
      let failure := Failure.settings (.refused fault)
      return { log := [], trouble := some { task := .check, failure } }
    | .ok g =>
      match ← g.run s with
      | (.ok _, log) => return { log, trouble := none }
      | (.error failure, log) =>
        return { log, trouble := some { task := .generate settings.input, failure } }

end Options

/-! ## messages -/

/-- The lines of a text, each after the first one with some blanks in front. -/
def hang (blanks : String) (text : String) : String :=
  String.join (text.toList.map fun c => if c = '\n' then "\n" ++ blanks else c.toString)

/-- The causes of a trouble, numbered if there are several. -/
def causeLines : List String → List String
  | [cause] => ["    " ++ hang "    " cause]
  | causes =>
    causes.zipIdx.map fun (cause, n) =>
      "    " ++ toString n ++ ": " ++ hang "       " cause

/-- The trouble in words. -/
def Trouble.lines (t : Trouble) : List String :=
  ["Error: " ++ t.task.failed, "", "Caused by:"] ++ causeLines t.failure.chain

/-- What a filter shows of a run. -/
def Trial.messages (t : Trial) (filter : LogFilter) : List String :=
  (t.log.filter filter.shows).map Event.line ++
    match t.trouble with
    | none => []
    | some trouble => trouble.lines

/-- What is said about the command. -/
def helpText : String :=
  "Generate a symbolic enum for string-pool ids\n" ++
  "\n" ++
  "Usage: strpool [OPTIONS]\n" ++
  "\n" ++
  "Options:\n" ++
  "  -c, --config <CONFIG>  TOML file with generator settings\n" ++
  "  -i, --input <INPUT>    JSON string table to read (overrides the config file)\n" ++
  "  -o, --output <OUTPUT>  Enum file to write (overrides the config file)\n" ++
  "  -v, --verbose          Log each renamed or truncated entry\n" ++
  "  -h, --help             Print help\n" ++
  "  -V, --version          Print version\n"

/-- The name of the command and its version. -/
def versionText : String := "strpool 0.1.0\n"

/-- A text up to its first line end. -/
def firstLine (text : String) : String :=
  String.ofList (text.toList.takeWhile (· ≠ '\n'))

/-- The outcome of arguments that do not lead to a run. A misuse has one line. -/
def Halt.outcome : Halt → Outcome
  | help => { exit := 0, output := helpText, messages := [] }
  | version => { exit := 0, output := versionText, messages := [] }
  | misuse fault =>
    { exit := 2, output := "", messages := [firstLine ("error: " ++ fault.message)] }

/-- The outcome of a run. -/
def Trial.outcome (t : Trial) (filter : LogFilter) : Outcome :=
  { exit := if t.trouble.isSome then 1 else 0, output := "", messages := t.messages filter }

/-- The command: its arguments, what was asked of the log, and its files. -/
def execute (arguments : List String) (logRequest : Option String) (s : Storage m) :
    m Outcome := do
  match parse arguments with
  | .error halt => return halt.outcome
  | .ok options =>
    let trial ← options.run s
    return trial.outcome (.choose logRequest options.verbose)

end PoolEnum.Command
