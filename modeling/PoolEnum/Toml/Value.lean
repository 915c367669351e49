/-!
# PoolEnum.Toml.Value

The values of a TOML document, and how keys are put into its tables.

A table remembers how it came about, because that decides what may still be
added to it: a table that a header opened is extended by longer headers only, one
that dotted keys made by dotted keys and longer headers, one that is only implied
by a longer header may get a header of its own, and an inline table is closed.

All changes go along a path of keys and fail as a whole. A path goes through the
last table of an array of tables.
-/

namespace PoolEnum.Toml

/-- How a table came about. -/
inductive Origin
  /-- By a header of its own. -/
  | header
  /-- By a header that goes through it. -/
  | implied
  /-- By a dotted key that goes through it. -/
  | dotted
  /-- In braces. -/
  | inline
  deriving DecidableEq, Repr

/-- A floating-point number as written. -/
inductive FloatLiteral
  /-- The number `mantissa · 10^exponent` or its negative. -/
  | finite (negative : Bool) (mantissa : Nat) (exponent : Int)
  | infinite (negative : Bool)
  | nan
  deriving DecidableEq, Repr

/-- A value. -/
inductive Value
  | text (s : String)
  | integer (n : Int)
  | float (x : FloatLiteral)
  /-- What is written like an integer, but with other characters than digits, or
  none. -/
  | unreadable
  | boolean (b : Bool)
  /-- A date, a time or both. -/
  | moment
  /-- Values in brackets. -/
  | array (items : List Value)
  /-- Tables that have a header in double brackets each, none of them empty. -/
  | tables (items : List Value)
  | table (origin : Origin) (entries : List (String × Value))

/-- The keys of a table and their values. -/
abbrev Entries := List (String × Value)

/-! ## changing one key -/

/-- Changes what a key is bound to, or binds it if it is not bound. The change
is told the present value and may refuse. -/
def alter (key : String) (change : Option Value → Option Value) : Entries → Option Entries
  | [] => do return [(key, ← change none)]
  | (k, v) :: entries =>
    if k = key then do return (k, ← change (some v)) :: entries
    else do return (k, v) :: (← alter key change entries)

/-- Changes the last of several values. -/
def alterLast (change : Value → Option Value) : List Value → Option (List Value)
  | [] => none
  | [v] => do return [← change v]
  | v :: w :: vs => do return v :: (← alterLast change (w :: vs))

/-! ## dotted keys -/

/-- Whether a dotted key may go through a table: those that headers opened and
those in braces are closed to it. -/
def Origin.passesDotted : Origin → Bool
  | implied | dotted => true
  | header | inline => false

/-- Binds a key to a value at the end of a path of dotted keys. The table the key
goes into has to be one that dotted keys made, if there is a path at all, and the
key must not be bound there. -/
def insertDotted (key : String) (value : Value) :
    (path : List String) → Entries → Option Entries
  | [], entries => alter key (fun bound => if bound.isSome then none else some value) entries
  | k :: path, entries =>
    let into (origin : Origin) (entries : Entries) : Option Value :=
      if path = [] ∧ origin ≠ .dotted then none
      else do return .table origin (← insertDotted key value path entries)
    alter k (fun
      | none => into .dotted []
      | some (.table origin entries) =>
        if origin.passesDotted then into origin entries else none
      | some (.tables items) => do
        return .tables (← alterLast (fun
          | .table origin entries => into origin entries
          | _ => none) items)
      | some _ => none) entries

/-! ## headers -/

/-- Changes the table at the end of a path of header keys, and makes the tables on
the way that are not there yet. -/
def within (change : Entries → Option Entries) :
    (path : List String) → Entries → Option Entries
  | [], entries => change entries
  | k :: path, entries =>
    alter k (fun
      | none => do return .table .implied (← within change path [])
      | some (.table origin entries) =>
        if origin = .inline then none
        else do return .table origin (← within change path entries)
      | some (.tables items) => do
        return .tables (← alterLast (fun
          | .table origin entries => do return .table origin (← within change path entries)
          | _ => none) items)
      | some _ => none) entries

/-- Opens a table by its header. Each table has one header at most. -/
def openTable (key : String) : Entries → Option Entries :=
  alter key fun
    | none => some (.table .header [])
    | some (.table .implied entries) => some (.table .header entries)
    | some _ => none

/-- Puts one more table into an array of tables. -/
def appendTable (key : String) (entries : Entries) : Entries → Option Entries :=
  alter key fun
    | none => some (.tables [.table .header entries])
    | some (.tables items) => some (.tables (items ++ [.table .header entries]))
    | some _ => none

end PoolEnum.Toml
