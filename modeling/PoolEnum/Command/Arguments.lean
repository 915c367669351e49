import PoolEnum.Text.ControlSequence

/-!
# PoolEnum.Command.Arguments

The command's arguments: three flags that take a path, three switches, no
positional arguments.

Arguments are read from left to right (`State.take`). A flag without a value
attached to it waits for the next argument, and what it got is only looked at
when another flag comes or the arguments end, so an argument that makes no sense
is reported before a flag that came without its value. `parse` ends early at the
switches that ask for a text instead of a run.
-/

namespace PoolEnum.Command

/-! ## flags -/

/-- A flag that takes a path. -/
inductive PathFlag
  | config | input | output
  deriving DecidableEq, Repr

/-- A flag that takes nothing. -/
inductive Switch
  | verbose | help | version
  deriving DecidableEq, Repr

/-- A flag of the command. -/
inductive Flag
  | path (flag : PathFlag)
  | switch (switch : Switch)
  deriving DecidableEq, Repr

namespace Flag

/-- All flags. -/
def all : List Flag :=
  [.path .config, .path .input, .path .output, .switch .verbose, .switch .help, .switch .version]

/-- The long name, which follows two dashes. -/
def name : Flag → String
  | path .config => "config"
  | path .input => "input"
  | path .output => "output"
  | switch .verbose => "verbose"
  | switch .help => "help"
  | switch .version => "version"

/-- The letter, which follows one dash. -/
def letter : Flag → Char
  | path .config => 'c'
  | path .input => 'i'
  | path .output => 'o'
  | switch .verbose => 'v'
  | switch .help => 'h'
  | switch .version => 'V'

/-- The flag with a long name. -/
def named? (text : String) : Option Flag :=
  all.find? fun f => f.name = text

/-- The flag with a letter. -/
def lettered? (c : Char) : Option Flag :=
  all.find? fun f => f.letter = c

/-- How a flag is written, with a placeholder for its path. -/
def usage (f : Flag) : String :=
  match f with
  | path _ => "--" ++ f.name ++ " <" ++ f.name.toUpper ++ ">"
  | switch _ => "--" ++ f.name

end Flag

/-- A wrong use of the command. -/
inductive Misuse
  /-- An argument that is no flag, and no value either. -/
  | unexpected (argument : String)
  /-- A flag without its path, or with an empty one. -/
  | missingPath (flag : PathFlag)
  /-- A flag that is given twice. -/
  | repeated (flag : Flag)
  /-- A value for a switch. -/
  | unneeded (switch : Switch) (value : String)
  deriving DecidableEq, Repr

/-- The misuse in words. What was given is shown without control sequences. -/
def Misuse.message : Misuse → String
  | unexpected argument => "unexpected argument '" ++ printable argument ++ "' found"
  | missingPath flag =>
    "a value is required for '" ++ (Flag.path flag).usage ++ "' but none was supplied"
  | repeated flag => "the argument '" ++ flag.usage ++ "' cannot be used multiple times"
  | unneeded switch value =>
    "unexpected value '" ++ printable value ++ "' for '" ++ (Flag.switch switch).usage ++
      "' found; no more were expected"

/-- Why arguments do not lead to a run. -/
inductive Halt
  | help
  | version
  | misuse (fault : Misuse)
  deriving DecidableEq, Repr

/-! ## options -/

/-- What the arguments ask of a run. -/
structure Options where
  config : Option String := none
  input : Option String := none
  output : Option String := none
  verbose : Bool := false
  deriving DecidableEq, Repr

namespace Options

/-- The path that a flag was given. -/
def path? (o : Options) : PathFlag → Option String
  | .config => o.config
  | .input => o.input
  | .output => o.output

/-- The options with a path for a flag. -/
def withPath (o : Options) (path : String) : PathFlag → Options
  | .config => { o with config := some path }
  | .input => { o with input := some path }
  | .output => { o with output := some path }

/-- The options with a path for a flag that has none yet. -/
def store (o : Options) (flag : PathFlag) (path : String) : Except Halt Options :=
  if (o.path? flag).isSome then .error (.misuse (.repeated (.path flag)))
  else if path = "" then .error (.misuse (.missingPath flag))
  else .ok (o.withPath path flag)

end Options

/-! ## reading -/

/-- A flag that was given without a path attached, and the argument after it if
that could be one. -/
structure Pending where
  flag : PathFlag
  path : Option String := none
  deriving DecidableEq, Repr

/-- How far reading got. -/
structure State where
  options : Options := {}
  pending : Option Pending := none
  /-- Whether the end of the flags was announced. -/
  trailing : Bool := false
  deriving DecidableEq, Repr

namespace State

/-- The options once the flag that waits has its path. -/
def settle (s : State) : Except Halt Options :=
  match s.pending with
  | none => .ok s.options
  | some { flag, path := none } => .error (.misuse (.missingPath flag))
  | some { flag, path := some path } => s.options.store flag path

/-- Takes a flag that has its path attached. -/
def takePath (s : State) (flag : PathFlag) (path : String) : Except Halt State := do
  let options ← s.settle
  let options ← options.store flag path
  return { options }

/-- Takes a flag whose path is still to come. -/
def await (s : State) (flag : PathFlag) : Except Halt State := do
  let options ← s.settle
  return { options, pending := some { flag } }

/-- Takes a switch. -/
def takeSwitch (s : State) (switch : Switch) : Except Halt State := do
  let options ← s.settle
  match switch with
  | .help => .error .help
  | .version => .error .version
  | .verbose =>
    if options.verbose then .error (.misuse (.repeated (.switch .verbose)))
    else return { options := { options with verbose := true } }

/-- Takes an argument that is neither a flag nor meant to be one. -/
def takePlain (s : State) (argument : String) : Except Halt State :=
  match s.pending with
  | some { flag, path := none } => .ok { s with pending := some { flag, path := some argument } }
  | _ => .error (.misuse (.unexpected argument))

/-- Takes what follows two dashes: a long name, and after `=` a value. -/
def takeLong (s : State) (text : List Char) : Except Halt State :=
  let name := String.ofList (text.takeWhile (· ≠ '='))
  let value? :=
    match text.dropWhile (· ≠ '=') with
    | [] => none
    | _ :: value => some (String.ofList value)
  match Flag.named? name, value? with
  | none, _ => .error (.misuse (.unexpected ("--" ++ name)))
  | some (.path flag), some path => s.takePath flag path
  | some (.path flag), none => s.await flag
  | some (.switch switch), some value => .error (.misuse (.unneeded switch value))
  | some (.switch switch), none => s.takeSwitch switch

/-- Takes what follows one dash: letters of switches, up to the letter of a flag
that takes a path, which is what is left, after an `=` if there is one. -/
def takeLetters (s : State) : List Char → Except Halt State
  | [] => .ok s
  | c :: rest =>
    match Flag.lettered? c with
    | none => .error (.misuse (.unexpected ("-" ++ c.toString)))
    | some (.path flag) =>
      match rest with
      | [] => s.await flag
      | '=' :: path => s.takePath flag (String.ofList path)
      | path => s.takePath flag (String.ofList path)
    | some (.switch switch) =>
      match s.takeSwitch switch with
      | .ok s => s.takeLetters rest
      | .error halt => .error halt

/-- Takes the next argument. -/
def take (s : State) (argument : String) : Except Halt State :=
  if s.trailing then .error (.misuse (.unexpected argument))
  else
    match argument.toList with
    | ['-', '-'] => .ok { s with trailing := true }
    | '-' :: '-' :: text => s.takeLong text
    | ['-'] => s.takePlain argument
    | '-' :: letters => s.takeLetters letters
    | _ => s.takePlain argument

/-- Takes arguments one after another. -/
def takeAll (s : State) : List String → Except Halt State
  | [] => .ok s
  | argument :: rest =>
    match s.take argument with
    | .ok s => s.takeAll rest
    | .error halt => .error halt

end State

/-- What arguments ask for. -/
def parse (arguments : List String) : Except Halt Options :=
  match State.takeAll {} arguments with
  | .ok s => s.settle
  | .error halt => .error halt

end PoolEnum.Command
