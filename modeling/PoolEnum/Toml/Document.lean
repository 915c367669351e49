import PoolEnum.Toml.Line
import PoolEnum.Toml.Scalar

/-!
# PoolEnum.Toml.Document

What the lines of a TOML document mean: the entries of its root table.

A document is read as lines first (`PoolEnum.Toml.Line`), so a mark that is missing
anywhere comes before all other faults. Then the lines are gone through from the
first to the last, in each of them the keys before the item and the item before
the binding, and the first fault is the document's. That a table does not fit into
an array is found where the table ends.
-/

namespace PoolEnum.Toml

/-- Why a text is no document. -/
inductive Fault
  /-- A line that is not well formed, an item without a meaning, or a key that may
  not be bound. -/
  | malformed
  /-- Too many keys with dots between them. -/
  | tooDeep
  deriving DecidableEq, Repr

/-- How many keys may have dots between them. -/
def maxKeys : Nat := 80

/-- What there is, or a malformed document. -/
def orMalformed {α : Type} : Option α → Except Fault α
  | some a => .ok a
  | none => .error .malformed

/-! ## keys -/

/-- Keys that can all be read: those on the way and the last one. -/
structure KeyPath where
  path : List String
  key : String
  deriving DecidableEq, Repr

/-- What keys mean, unless there are too many of them. One that is none comes before
that, wherever it is. -/
def KeyPath.of (keys : Keys) : Except Fault KeyPath := do
  let names ← orMalformed (keys.mapM Key.name?)
  if maxKeys < names.length then throw .tooDeep
  return { path := names.dropLast, key := ← orMalformed names.getLast? }

/-! ## items -/

mutual

/-- The value of an item. -/
def Item.value : Item → Except Fault Value
  | .text s => orMalformed (s.map .text)
  | .bare cs => orMalformed (scalar? cs)
  | .array items => do return .array (← valuesOf items)
  | .inline bindings => do return .table .inline (← entriesOf [] bindings)

/-- The values of items. -/
def valuesOf : List Item → Except Fault (List Value)
  | [] => .ok []
  | item :: items => do return (← item.value) :: (← valuesOf items)

/-- Entries with more keys bound, one after another. -/
def entriesOf (entries : Entries) : List (Keys × Item) → Except Fault Entries
  | [] => .ok entries
  | (keys, item) :: bindings => do
    let keys ← KeyPath.of keys
    let value ← item.value
    entriesOf (← orMalformed (insertDotted keys.key value keys.path entries)) bindings

end

/-! ## lines -/

/-- The table that keys go into. -/
inductive Part
  /-- A table that is in the document, by its path. -/
  | table (path : List String)
  /-- One more table of an array. It is put into the document when the next header
  or the end is reached. -/
  | element (keys : KeyPath) (entries : Entries)

/-- A document as far as it has been gone through. -/
structure Progress where
  part : Part
  root : Entries

/-- The root table with all parts in it. -/
def Progress.finish (p : Progress) : Except Fault Entries :=
  match p.part with
  | .table _ => .ok p.root
  | .element keys entries => orMalformed (within (appendTable keys.key entries) keys.path p.root)

/-- Binds keys to a value. -/
def Progress.bind (p : Progress) (keys : KeyPath) (value : Value) : Option Progress :=
  let change := insertDotted keys.key value keys.path
  match p.part with
  | .table path => do return { p with root := ← within change path p.root }
  | .element place entries => do return { p with part := .element place (← change entries) }

/-- Goes through one more line. -/
def Progress.next (p : Progress) : Line → Except Fault Progress
  | .header isArray keys => do
    let root ← p.finish
    let keys ← KeyPath.of keys
    if isArray then return { part := .element keys [], root }
    return { part := .table (keys.path ++ [keys.key]),
             root := ← orMalformed (within (openTable keys.key) keys.path root) }
  | .binding keys item => do
    let keys ← KeyPath.of keys
    let value ← item.value
    orMalformed (p.bind keys value)

/-- The entries of a document's root table, in the order in which they were first
mentioned. -/
def parse (text : String) : Except Fault Entries := do
  let lines ← orMalformed (linesOf text)
  let p ← lines.foldlM Progress.next { part := .table [], root := [] }
  p.finish

end PoolEnum.Toml
