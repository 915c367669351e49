import PoolEnum.Text.Pieces
import PoolEnum.Toml.Text
import PoolEnum.Toml.Value

/-!
# PoolEnum.Toml.Scalar

The TOML values that are written without marks around them: booleans, integers,
floating-point numbers, dates and times.

The text of such a value is one of them as a whole or none. Integers have a
laxer form, though: if there are underscores in one, it is only looked at what
stands next to them, and it has no value if the rest are not digits
(`Value.unreadable`).
-/

namespace PoolEnum.Toml

/-! ## digits -/

/-- The value of digits of any base up to sixteen. -/
def ofDigits (base : Nat) (ds : List Char) : Nat :=
  ds.foldl (fun n c => n * base + (hexDigit c).getD 0) 0

/-! ## underscores -/

/-- A text without its underscores. -/
def dropUnderscores (cs : List Char) : List Char :=
  cs.filter (· ≠ '_')

/-- Whether each underscore in the text of a number stands behind a digit and in
front of one. -/
def underscoresFit (isDigit : Char → Bool) (cs : List Char) : Bool :=
  match pieces '_' cs with
  | first :: second :: rest =>
    (second :: rest).all (fun piece => piece.head?.any isDigit) &&
      (first :: (second :: rest).dropLast).all (fun piece => piece.getLast?.any isDigit)
  | _ => true

/-- Reads the digits at the front of a text, at least one, whatever underscores are
among them. -/
def readDigits (cs : List Char) : Option (List Char × List Char) :=
  let inside (c : Char) : Bool := c.isDigit || c == '_'
  let ds := dropUnderscores (cs.takeWhile inside)
  if ds = [] then none else some (ds, cs.dropWhile inside)

/-! ## numbers -/

/-- Whether a number is negative, and what follows its sign. -/
def takeSign : List Char → Bool × List Char
  | '+' :: cs => (false, cs)
  | '-' :: cs => (true, cs)
  | cs => (false, cs)

/-- A number by its size and sign. -/
def signed (negative : Bool) (n : Nat) : Int :=
  if negative then -n else n

/-- A whole text as digits of a base other than ten. There may be none, but then
there is no value. -/
def radix? (base : Nat) (isDigit : Char → Bool) (cs : List Char) : Option Value :=
  if cs.all (fun c => isDigit c || c == '_') && underscoresFit isDigit cs then
    match dropUnderscores cs with
    | [] => some .unreadable
    | ds => some (.integer (ofDigits base ds))
  else none

/-- Whether a text has a character by which a floating-point number is told from an
integer, or a blank. -/
def isNoInteger (cs : List Char) : Bool :=
  cs.any fun c => c == '.' || c == 'e' || c == 'E' || c == ' '

/-- A whole text as an integer with or without a sign. It starts with a zero only
if that is all of it. Behind the first underscore other characters than digits may
stand where they are not next to one, but then there is no value. -/
def decimal? (cs : List Char) : Option Value :=
  let (negative, body) := takeSign cs
  let rest := body.dropWhile Char.isDigit
  if body = ['0'] then some (.integer 0)
  else if body.head?.all (· = '0') then none
  else if (rest = [] ∨ rest.head? = some '_') ∧ !isNoInteger rest ∧
      underscoresFit isHexDigit cs then
    let ds := dropUnderscores body
    some (if ds.all Char.isDigit then .integer (signed negative (ofDigits 10 ds)) else .unreadable)
  else none

/-- A whole text as an integer. Bases other than ten have no sign. -/
def integer? : List Char → Option Value
  | '0' :: 'x' :: cs => radix? 16 isHexDigit cs
  | '0' :: 'o' :: cs => radix? 8 (fun c => '0' ≤ c && c ≤ '7') cs
  | '0' :: 'b' :: cs => radix? 2 (fun c => c == '0' || c == '1') cs
  | cs => decimal? cs

/-- Reads the digits before the point. They begin with a zero only if that is all
of them. -/
def readWhole (cs : List Char) : Option (List Char × List Char) := do
  let (ds, rest) ← readDigits cs
  if cs.head? = some '0' ∧ 1 < ds.length then none else some (ds, rest)

/-- Reads a point and the digits after it, if there is a point. -/
def readFraction : List Char → Option (List Char × List Char)
  | '.' :: cs => readDigits cs
  | cs => some ([], cs)

/-- Reads an exponent, if there is one. -/
def readExponent : List Char → Option (Int × List Char)
  | [] => some (0, [])
  | c :: cs =>
    if c = 'e' ∨ c = 'E' then do
      let (negative, digits) := takeSign cs
      let (ds, rest) ← readDigits digits
      return (signed negative (ofDigits 10 ds), rest)
    else some (0, c :: cs)

/-- A whole text as a floating-point number. -/
def float? (cs : List Char) : Option Value :=
  let (negative, body) := takeSign cs
  if body = ['i', 'n', 'f'] then some (.float (.infinite negative))
  else if body = ['n', 'a', 'n'] then some (.float .nan)
  else do
    let (whole, rest) ← readWhole body
    if rest.isEmpty then none
    else
      let (fraction, rest) ← readFraction rest
      let (exponent, rest) ← readExponent rest
      if rest.isEmpty && underscoresFit Char.isDigit cs then
        some (.float (.finite negative (ofDigits 10 (whole ++ fraction))
          (exponent - fraction.length)))
      else none

/-! ## dates and times -/

/-- Reads two digits as a number between two bounds. -/
def readTwo (least most : Nat) : List Char → Option (Nat × List Char)
  | a :: b :: cs =>
    if a.isDigit ∧ b.isDigit then
      let n := ofDigits 10 [a, b]
      if least ≤ n ∧ n ≤ most then some (n, cs) else none
    else none
  | _ => none

/-- The days of a month. -/
def daysIn (year month : Nat) : Nat :=
  if month = 2 then
    if year % 4 = 0 ∧ (year % 100 ≠ 0 ∨ year % 400 = 0) then 29 else 28
  else if month ∈ [4, 6, 9, 11] then 30
  else 31

/-- Reads a date. -/
def readDate (cs : List Char) : Option (List Char) := do
  let (century, cs) ← readTwo 0 99 cs
  let (year, cs) ← readTwo 0 99 cs
  let (month, cs) ← readTwo 1 12 (← readMark '-' cs)
  let (_, cs) ← readTwo 1 (daysIn (century * 100 + year) month) (← readMark '-' cs)
  return cs

/-- Reads the seconds of a time, if there are any, with any number of places. -/
def readSeconds : List Char → Option (List Char)
  | ':' :: cs => do
    let (_, cs) ← readTwo 0 60 cs
    match cs with
    | '.' :: c :: cs => if c.isDigit then some (cs.dropWhile Char.isDigit) else none
    | '.' :: [] => none
    | cs => some cs
  | cs => some cs

/-- Reads a time. -/
def readTime (cs : List Char) : Option (List Char) := do
  let (_, cs) ← readTwo 0 23 cs
  let (_, cs) ← readTwo 0 59 (← readMark ':' cs)
  readSeconds cs

/-- Whether a whole text is a time zone, or nothing. -/
def isZone : List Char → Bool
  | [] => true
  | c :: cs =>
    if c = 'Z' ∨ c = 'z' then cs.isEmpty
    else if c = '+' ∨ c = '-' then
      (do
        let (_, cs) ← readTwo 0 23 cs
        let (_, cs) ← readTwo 0 59 (← readMark ':' cs)
        return cs) == some []
    else false

/-- Whether a whole text is a date, a time, or a date and a time with or without
a time zone. Between date and time stands a letter or a blank. -/
def isMoment (cs : List Char) : Bool :=
  match readDate cs with
  | some [] => true
  | some (c :: rest) => (c == 'T' || c == 't' || c == ' ') && (readTime rest).any isZone
  | none => readTime cs == some []

/-! ## scalars -/

/-- A whole text as a value that has no marks around it. -/
def scalar? (cs : List Char) : Option Value :=
  if cs = ['t', 'r', 'u', 'e'] then some (.boolean true)
  else if cs = ['f', 'a', 'l', 's', 'e'] then some (.boolean false)
  else if isMoment cs then some .moment
  else (integer? cs).or (float? cs)

end PoolEnum.Toml
