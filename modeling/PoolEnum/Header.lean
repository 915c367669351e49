/-!
# PoolEnum.Header

The generated enum as data, and its text.

A header is one line that names the enum, one tab-indented line per record and
a closing brace, which is the last character: there is no final newline.
Nothing is escaped, since names are identifiers wherever a header is built from
a table.
-/

namespace PoolEnum

/-- A member of the enum. -/
structure Record where
  name : String
  id : UInt64
  deriving DecidableEq, Repr

/-- An enum, its records in the order in which they are written. -/
structure Header where
  name : String
  records : List Record
  deriving DecidableEq, Repr

/-- The line of one record. -/
def Record.line (r : Record) : String :=
  "\t" ++ r.name ++ " = " ++ toString r.id.toNat ++ ",\n"

/-- The text of the enum. -/
def Header.render (h : Header) : String :=
  "enum " ++ h.name ++ " \x7b\n" ++ String.join (h.records.map Record.line) ++ "\x7d"

end PoolEnum
