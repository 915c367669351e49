import PoolEnum.Text.Quoted

/-!
# PoolEnum.Mismatch

A value of one kind where one of another kind was wanted, in a string table or
in a settings file, and the words for it.

The two formats write floating-point numbers differently, so `Found.float`
holds a text.
-/

namespace PoolEnum

/-- A value as a reader meets it. -/
inductive Found
  | null
  | boolean (value : Bool)
  /-- An integer that fits 64 bits, signed or unsigned. -/
  | integer (value : Int)
  /-- An integer that needs up to 128 bits, signed or unsigned. -/
  | wide (value : Int)
  | float (text : String)
  | text (value : String)
  | sequence
  | map
  deriving DecidableEq, Repr

/-- What a reader can want. -/
inductive Wanted
  | sequence
  | entry
  | id
  | text
  | path
  deriving DecidableEq, Repr

/-- A text between the marks that set values apart from words. -/
def marked (s : String) : String :=
  "`" ++ s ++ "`"

/-- The value in words. -/
def Found.describe : Found → String
  | null => "null"
  | boolean b => "boolean " ++ marked (if b then "true" else "false")
  | integer n => "integer " ++ marked (toString n)
  | wide n =>
    "integer " ++ marked (toString n) ++ (if n < Nat.pow 2 127 then " as i128" else " as u128")
  | float s => "floating point " ++ marked s
  | text s => "string " ++ quote s
  | sequence => "sequence"
  | map => "map"

/-- The wish in words. -/
def Wanted.describe : Wanted → String
  | sequence => "a sequence"
  | entry => "struct Entry"
  | id => "u64"
  | text => "a string"
  | path => "path string"

/-- A value that does not suit its place. -/
structure Mismatch where
  found : Found
  wanted : Wanted
  deriving DecidableEq, Repr

/-- Whether the kind would do, but not the value: a negative id. -/
def Mismatch.isOfValue (m : Mismatch) : Bool :=
  match m.found, m.wanted with
  | .integer _, .id => true
  | _, _ => false

/-- The mismatch in words. -/
def Mismatch.message (m : Mismatch) : String :=
  (if m.isOfValue then "invalid value: " else "invalid type: ") ++ m.found.describe ++
    ", expected " ++ m.wanted.describe

end PoolEnum
