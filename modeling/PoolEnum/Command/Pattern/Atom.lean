import PoolEnum.Command.Pattern.Flags
import PoolEnum.Text.Hex

/-!
# PoolEnum.Command.Pattern.Atom

The smallest parts of a pattern: characters and what is written with a backslash.
-/

namespace PoolEnum.Command.Pattern

/-- A part that has no parts. -/
inductive Atom
  /-- A character; `isByte` tells that it is written as a byte. -/
  | character (c : Char) (isByte : Bool)
  /-- A digit, a blank or a letter, or anything but those. -/
  | category (negated : Bool)
  /-- The start or the end of a word, or both or neither of them. -/
  | boundary
  /-- The start or the end of the text. -/
  | edge
  deriving DecidableEq, Repr

/-! ## escapes -/

/-- The number of hexadecimal digits behind a backslash and a letter. -/
def codePointDigits : Char → Option Nat
  | 'x' => some 2
  | 'u' => some 4
  | 'U' => some 8
  | _ => none

/-- Reads so many hexadecimal digits, and what does not count behind each. -/
def readDigits (f : Flags) : (count : Nat) → (value : Nat) → List Char → Option (Nat × List Char)
  | 0, value, cs => some (value, cs)
  | _ + 1, _, [] => none
  | count + 1, value, c :: cs => do readDigits f count (value * 16 + (← hexDigit c)) (f.skip cs)

/-- The control character of an escape. -/
def controlEscape : Char → Option Char
  | 'a' => some '\x07'
  | 'f' => some '\x0c'
  | 't' => some '\t'
  | 'n' => some '\n'
  | 'r' => some '\r'
  | 'v' => some '\x0b'
  | _ => none

/-- Whether `c` stands for itself behind a backslash. -/
def isEscapable (c : Char) : Bool :=
  c ≤ '\x7f' && !c.isAlphanum && c ≠ '<' && c ≠ '>'

/-- What a character stands for behind a backslash, if it does so alone. -/
def simpleEscape (c : Char) : Option Atom :=
  if "dsw".toList.contains c then some (.category false)
  else if "DSW".toList.contains c then some (.category true)
  else if "bB<>".toList.contains c then some .boundary
  else if "Az".toList.contains c then some .edge
  else if isEscapable c then some (.character c false)
  else (controlEscape c).map (.character · false)

/-- Reads what follows a backslash. -/
def readEscape (f : Flags) : List Char → Option (Atom × List Char)
  | [] => none
  | c :: cs =>
    match codePointDigits c with
    | some count => do
      let (n, cs) ← readDigits f count 0 (f.skip cs)
      if n.isValidChar then some (.character (Char.ofNat n) (count == 2), cs) else none
    | none => (simpleEscape c).map (·, cs)

/-- Reads an atom of any kind. -/
def readAtom (f : Flags) : List Char → Option (Atom × List Char)
  | [] => none
  | '\\' :: cs => readEscape f cs
  | c :: cs => some (.character c false, cs)

/-! ## where atoms may stand -/

/-- Whether `c` is in ASCII. -/
def isAscii (c : Char) : Bool :=
  c ≤ '\x7f'

/-- Whether an atom may stand between sets and groups. -/
def Flags.admits (f : Flags) : Atom → Bool
  | .character c isByte => if f.bytes then !isByte || isAscii c else !f.caseless
  | .category negated => f.bytes && !negated
  | .boundary => f.bytes
  | .edge => true

/-- Whether an atom may stand in a set. -/
def Flags.admitsInSet (f : Flags) : Atom → Bool
  | .character c _ => if f.bytes then isAscii c else !f.caseless
  | .category negated => f.bytes && !negated
  | .boundary => false
  | .edge => false

end PoolEnum.Command.Pattern
