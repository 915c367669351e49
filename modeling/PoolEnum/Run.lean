import PoolEnum.Failure
import PoolEnum.Files.Path
import PoolEnum.Files.Storage
import PoolEnum.Generation
import PoolEnum.Table.Entries

/-!
# PoolEnum.Run

A whole run: read the table, build its enum, write the header.

All of it works on any storage. Nothing is written before the enum is built,
and the header goes to a temporary file that then takes the place of the output,
so a run that fails leaves no trace.
-/

namespace PoolEnum

variable {m : Type → Type} [Monad m]

/-! ## reading -/

/-- The entries of the table at a path. -/
def Storage.loadEntries (s : Storage m) (path : String) : m (Except Failure (List Entry)) := do
  match ← s.readText path with
  | .error fault => return .error (.file path fault)
  | .ok text =>
    match Table.parseEntries text with
    | .error fault => return .error (.table path fault)
    | .ok entries => return .ok entries

/-- The settings in the document at a path. -/
def Storage.loadSettings (s : Storage m) (path : String) : m (Except Failure Settings) := do
  match ← s.readText path with
  | .error fault => return .error (.file path fault)
  | .ok text =>
    match Settings.ofDocument text with
    | .error fault => return .error (.settings fault)
    | .ok settings => return .ok settings

/-! ## writing -/

/-- Puts `content` at a path in one step: it is written to a new file in the
same directory, which then replaces the one that is there. The new file is
removed if that fails. -/
def Storage.replace (s : Storage m) (path : String) (content : ByteArray) :
    m (Except Failure Unit) := do
  match ← s.create (Path.directory path) with
  | .error (fault, temporary) => return .error (.staging path fault temporary)
  | .ok temporary =>
    match ← s.write temporary content with
    | .error fault =>
      s.remove temporary
      return .error (.file path fault)
    | .ok () =>
      match ← s.rename temporary path with
      | .error fault =>
        s.remove temporary
        return .error (.file path fault)
      | .ok () => return .ok ()

/-- Writes the text of an enum to a path. -/
def Header.write (h : Header) (s : Storage m) (path : String) : m (Except Failure Unit) :=
  s.replace path h.render.toUTF8

/-! ## running -/

/-- The event of an enum that was written. -/
def Generation.event (made : Generation) (output : String) : Event :=
  .generated made.header.name output made.header.records.length made.report.reservedSkipped
    made.report.namesSuffixed made.report.namesTruncated

/-- Makes the enum of the input and writes it to the output. With the outcome
comes the log. -/
def Generator.run (g : Generator) (s : Storage m) : m (Except Failure Report × List Event) := do
  let { input, output, .. } := g.settings
  let log := [Event.reading input]
  match ← s.loadEntries input with
  | .error failure => return (.error failure, log)
  | .ok entries =>
    let log := log ++ g.trace entries
    match g.build entries with
    | .error fault => return (.error (.exhausted fault), log)
    | .ok made =>
      match ← made.header.write s output with
      | .error failure => return (.error failure, log)
      | .ok () => return (.ok made.report, log ++ [made.event output])

end PoolEnum
