/-!
# PoolEnum.Name.Basic

What a symbolic name is: an identifier `[A-Za-z_][A-Za-z0-9_]*` of at most
`maxNameLength` characters.

Both tests work on the characters of the name. Every character of an
identifier takes one byte, so measuring the name in bytes is measuring it in
characters as soon as it is one.
-/

namespace PoolEnum

/-- The most characters a symbolic name may have. -/
def maxNameLength : Nat := 20

/-- Whether `c` may stand in a symbolic name: an ASCII letter, an ASCII digit
or an underscore. -/
def isWordChar (c : Char) : Bool :=
  c.isAlphanum || c == '_'

/-- Whether `c` may begin a symbolic name: a word character that is no digit. -/
def isWordStart (c : Char) : Bool :=
  c.isAlpha || c == '_'

/-- Whether `name` is an identifier. The empty text is none. -/
def isIdentifier (name : String) : Bool :=
  match name.toList with
  | [] => false
  | c :: cs => isWordStart c && cs.all isWordChar

/-- Whether `name` is an identifier that fits `maxNameLength`. -/
def isValidName (name : String) : Bool :=
  name.utf8ByteSize ≤ maxNameLength && isIdentifier name

end PoolEnum
