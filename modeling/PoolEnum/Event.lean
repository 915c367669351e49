import PoolEnum.Assignment

/-!
# PoolEnum.Event

The log of a run as data: what happened, how much it matters, and its line.

Paths and names are written as they are. `Event.line` pads the level to five
places, so the messages of a log line up.
-/

namespace PoolEnum

/-- How much an event matters, the most important first. -/
inductive Level
  | error | warn | info | debug | trace
  deriving DecidableEq, Repr

/-- The place of a level, from the most important on. -/
def Level.rank : Level → Nat
  | .error => 1
  | .warn => 2
  | .info => 3
  | .debug => 4
  | .trace => 5

/-- The level's name in a log line, five characters wide. -/
def Level.label : Level → String
  | .error => "ERROR"
  | .warn => " WARN"
  | .info => " INFO"
  | .debug => "DEBUG"
  | .trace => "TRACE"

/-- Something that happened in a run. -/
inductive Event
  /-- The table at `input` is about to be read. -/
  | reading (input : String)
  /-- The name derived for an entry was cut to length. -/
  | truncated (id : UInt64) (name : String)
  /-- An entry's derived name was taken, and it got a numbered form. -/
  | renamed (id : UInt64) (base name : String) (suffix : Nat)
  /-- Several records share an id. -/
  | duplicateId (id : UInt64)
  /-- The enum was written. -/
  | generated (enumName output : String) (variants skipped numbered cut : Nat)
  deriving DecidableEq, Repr

namespace Event

/-- The level at which an event is logged. -/
def level : Event → Level
  | reading .. => .info
  | truncated .. => .debug
  | renamed .. => .debug
  | duplicateId .. => .warn
  | generated .. => .info

/-- What an event says. -/
def text : Event → String
  | reading _ => "Reading string table"
  | truncated .. => "Truncated symbolic name"
  | renamed .. => "Resolved name collision"
  | duplicateId _ => "Duplicate string id, keeping input order"
  | generated enumName .. => "Generated " ++ enumName

/-- The names and values of an event's fields. -/
def fields : Event → List (String × String)
  | reading input => [("input", input)]
  | truncated id name => [("id", toString id.toNat), ("name", name)]
  | renamed id base name suffix =>
    [("id", toString id.toNat), ("base", base), ("name", name), ("suffix", toString suffix)]
  | duplicateId id => [("id", toString id.toNat)]
  | generated _ output variants skipped numbered cut =>
    [("output", output), ("variants", toString variants), ("skipped", toString skipped),
      ("suffixed", toString numbered), ("truncated", toString cut)]

/-- Whether an event has a field. What it says counts as one. -/
def hasField (e : Event) (name : String) : Bool :=
  name = "message" || e.fields.any fun field => field.1 = name

/-- What an event has to say, its fields after its text. -/
def message (e : Event) : String :=
  e.text ++ String.join (e.fields.map fun (name, value) => " " ++ name ++ "=" ++ value)

/-- The log line of an event. -/
def line (e : Event) : String :=
  e.level.label ++ " " ++ e.message

end Event

/-! ## the events of naming -/

/-- That an entry's derived name was cut, if it was. -/
def Derived.events (d : Derived) (id : UInt64) : List Event :=
  if d.truncated then [.truncated id d.name] else []

/-- What is logged for an entry that got its name: first the cut, then the
collision. -/
def Assignment.events (a : Assignment) : List Event :=
  a.derived.events a.id ++
    match a.claim.suffix with
    | some n => [.renamed a.id a.derived.name a.claim.name n]
    | none => []

/-- What is logged for the entry that naming gave up at. -/
def Refusal.events (r : Refusal) : List Event :=
  r.derived.events r.id

end PoolEnum
