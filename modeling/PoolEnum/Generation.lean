import PoolEnum.Event
import PoolEnum.Settings

/-!
# PoolEnum.Generation

Building the enum of a table in memory.

`Generator.build` drops the reserved entries, names the others in table order
(`PoolEnum.Assignment`) and sorts their records by id. The sort is stable, so
entries that share an id keep their table order. `Generator.trace` is the log
of that build, whether it succeeds or not.
-/

namespace PoolEnum

/-- What a build did to its input. -/
structure Report where
  /-- Entries in the table, the reserved ones included. -/
  entriesRead : Nat
  /-- Entries dropped because their id is reserved. -/
  reservedSkipped : Nat
  /-- Names that carry a number. -/
  namesSuffixed : Nat
  /-- Names that were cut to length. -/
  namesTruncated : Nat
  /-- Ids of more than one record, ascending, each once. -/
  duplicateIds : List UInt64
  deriving DecidableEq, Repr

/-- An enum and the report on how it came about. -/
structure Generation where
  header : Header
  report : Report
  deriving DecidableEq, Repr

/-! ## order and repetition -/

/-- Records by id, those of one id in the order they came in. -/
def sortById (records : List Record) : List Record :=
  records.mergeSort fun a b => a.id ≤ b.id

/-- The ids that equal the one before them, one for each run of equal ids.
`reported` is the last one that was listed. -/
def repeatedIds (reported : Option UInt64) : List UInt64 → List UInt64
  | a :: b :: ids =>
    if a = b ∧ reported ≠ some b then b :: repeatedIds (some b) (b :: ids)
    else repeatedIds reported (b :: ids)
  | _ => []

/-! ## building -/

namespace Generator

/-- The records of the entries that were named, by id. -/
def records (assigned : List Assignment) : List Record :=
  sortById (assigned.map Assignment.record)

/-- The ids that several of the records carry. -/
def duplicateIds (records : List Record) : List UInt64 :=
  repeatedIds none (records.map Record.id)

/-- The enum of a table, or the candidate that has no free form left. -/
def build (g : Generator) (entries : List Entry) : Except Exhausted Generation :=
  let kept := retained g.settings.idLimit entries
  match assignNames .empty kept with
  | (_, some refusal) => .error { base := refusal.derived.name }
  | (assigned, none) =>
    let records := records assigned
    .ok {
      header := { name := g.settings.enumName, records }
      report := {
        entriesRead := entries.length
        reservedSkipped := entries.length - kept.length
        namesSuffixed := assigned.countP fun a => a.claim.suffix.isSome
        namesTruncated := assigned.countP fun a => a.derived.truncated
        duplicateIds := duplicateIds records } }

/-- The log of a build: what naming had to do, entry by entry, then a warning
for each id that several records share. A build that fails warns of none. -/
def trace (g : Generator) (entries : List Entry) : List Event :=
  match assignNames .empty (retained g.settings.idLimit entries) with
  | (assigned, some refusal) => assigned.flatMap Assignment.events ++ refusal.events
  | (assigned, none) =>
    assigned.flatMap Assignment.events ++
      (duplicateIds (records assigned)).map Event.duplicateId

end Generator

end PoolEnum
