import PoolEnum.Toml.Text

/-!
# PoolEnum.Toml.Line

The lines of a TOML document as they are written, before it is asked what they
mean.

A line is a header, which says where the following keys go, or keys with an item.
Whether a document has lines at all is decided by its marks alone: brackets,
braces, commas, equals signs, quotes and line ends. What stands between them is
only taken down; that a key or a string cannot be read is no fault yet, nor is a
key that is bound twice, or that there is no key or no item where the marks leave
room for one.
-/

namespace PoolEnum.Toml

/-- A key as it is written. -/
inductive Key
  | name (s : String)
  /-- What stands in place of a key, but is none. -/
  | unreadable
  /-- Nothing where a key has to stand. -/
  | missing
  deriving DecidableEq, Repr

/-- The name that a key is, if it can be read. -/
def Key.name? : Key → Option String
  | name s => some s
  | unreadable => none
  | missing => none

/-- Keys with dots between them, at least one. -/
abbrev Keys := List Key

/-- A value as it is written. -/
inductive Item
  /-- A string, if it can be read. -/
  | text (s : Option String)
  /-- Characters without marks around them. -/
  | bare (cs : List Char)
  /-- Items in brackets. -/
  | array (items : List Item)
  /-- Keys and their items in braces. -/
  | inline (bindings : List (Keys × Item))

/-- Nothing where an item has to stand. -/
def Item.missing : Item := .bare []

/-- A line. -/
inductive Line
  /-- A header, in double brackets if `isArray` says so. -/
  | header (isArray : Bool) (keys : Keys)
  /-- Keys and the item that they are bound to. -/
  | binding (keys : Keys) (item : Item)

/-! ## keys -/

/-- Whether `c` may stand in a key that has no marks around it. -/
def isKeyChar (c : Char) : Bool :=
  c.isAlphanum || c == '_' || c == '-'

/-- Whether `c` may stand in an item that has no marks around it. -/
def isBare (c : Char) : Bool :=
  !"=,[]\x7b\x7d#\r\n".toList.contains c

/-- Reads one key. It is as long as it can be, but only some characters and strings
on one line make one that can be read. -/
def readKey (cs : List Char) : Key × List Char :=
  match cs with
  | [] => (.missing, [])
  | c :: rest =>
    if isQuote c then
      let (s, after) := takeString cs
      (if rest.take 2 = [c, c] then .unreadable else s.elim .unreadable .name, after)
    else
      let inside (c : Char) : Bool := isBare c && !isSpace c && c ≠ '.'
      let key := cs.takeWhile inside
      (if key = [] then .missing
        else if key.all isKeyChar then .name (String.ofList key)
        else .unreadable,
        cs.dropWhile inside)

/-- Reads keys with dots between them, and the blanks after the last. `fuel` is at
least the number of keys. -/
def readKeyPath : (fuel : Nat) → List Char → Keys × List Char
  | 0, cs => ([], cs)
  | fuel + 1, cs =>
    let (key, cs) := readKey cs
    match skipSpace cs with
    | '.' :: cs =>
      let (keys, cs) := readKeyPath fuel (skipSpace cs)
      (key :: keys, cs)
    | cs => ([key], cs)

/-- Reads keys with dots between them, and the blanks after the last. -/
def readKeys (cs : List Char) : Keys × List Char :=
  readKeyPath (cs.length + 1) cs

/-! ## items -/

/-- Takes the characters of an item that has no marks around it. A quote ends it
only behind a blank or a point, which `fresh` tells of the character before. -/
def takeBare (fresh : Bool) : List Char → List Char × List Char
  | [] => ([], [])
  | c :: cs =>
    if !isBare c || (fresh && isQuote c) then ([], c :: cs)
    else
      let (bare, rest) := takeBare (isSpace c || c == '.') cs
      (c :: bare, rest)

/-- Reads an item that has no marks around it. There may be blanks in it, but not
at its end. -/
def readBare (cs : List Char) : Option (Item × List Char) :=
  let (bare, rest) := takeBare false cs
  if bare = [] then none
  else some (.bare (bare.reverse.dropWhile isSpace).reverse, rest)

/-- Reads the items of an array and its end. `fuel` is at least the number of
items. -/
def readItems (readItem : List Char → Option (Item × List Char)) :
    (fuel : Nat) → List Char → Option (List Item × List Char)
  | 0, _ => none
  | fuel + 1, cs => do
    match ← skipTrivia false cs with
    | ']' :: cs => return ([], cs)
    | cs =>
      let (item, cs) ← readItem cs
      match ← skipTrivia false cs with
      | ',' :: cs =>
        let (items, cs) ← readItems readItem fuel cs
        return (item :: items, cs)
      | ']' :: cs => return ([item], cs)
      | _ => none

/-- Reads an equals sign and an item in braces. Before the closing brace both may be
missing, or the item alone. -/
def readBound (readItem : List Char → Option (Item × List Char)) (cs : List Char) :
    Option (Item × List Char) := do
  match ← skipTrivia false cs with
  | '}' :: cs => return (.missing, '}' :: cs)
  | cs =>
    match ← skipTrivia false (← readMark '=' cs) with
    | '}' :: cs => return (.missing, '}' :: cs)
    | cs => readItem cs

/-- Reads the bindings of a table in braces and its end. `fuel` is at least the
number of bindings. -/
def readInline (readItem : List Char → Option (Item × List Char)) :
    (fuel : Nat) → List Char → Option (List (Keys × Item) × List Char)
  | 0, _ => none
  | fuel + 1, cs => do
    match ← skipTrivia false cs with
    | '}' :: cs => return ([], cs)
    | cs =>
      let (keys, cs) := readKeys cs
      let (item, cs) ← readBound readItem cs
      match ← skipTrivia false cs with
      | ',' :: cs =>
        let (bindings, cs) ← readInline readItem fuel cs
        return ((keys, item) :: bindings, cs)
      | '}' :: cs => return ([(keys, item)], cs)
      | _ => none

/-- How many brackets and braces may be open at a time. -/
def maxDepth : Nat := 80

/-- Reads an item in which at most `depth` brackets and braces are open at a
time. -/
def readItem (depth : Nat) (cs : List Char) : Option (Item × List Char) :=
  match cs, depth with
  | '[' :: _, 0 => none
  | '{' :: _, 0 => none
  | '[' :: rest, depth + 1 => do
    let (items, rest) ← readItems (readItem depth) cs.length rest
    return (.array items, rest)
  | '{' :: rest, depth + 1 => do
    let (bindings, rest) ← readInline (readItem depth) cs.length rest
    return (.inline bindings, rest)
  | c :: _, _ =>
    if isQuote c then
      let (s, rest) := takeString cs
      some (.text s, rest)
    else readBare cs
  | [], _ => none

/-! ## lines -/

/-- Passes over the rest of a line, whatever it is. Strings over several lines count
as one. `fresh` tells whether a quote would start a string here, and `fuel` is more
than the number of characters. -/
def skipLine : (fuel : Nat) → (fresh : Bool) → List Char → Option (List Char)
  | 0, _, _ => none
  | _ + 1, _, [] => some []
  | fuel + 1, fresh, c :: cs =>
    if c = '#' ∨ c = '\n' ∨ c = '\r' then readLineEnd (c :: cs)
    else if fresh && isQuote c then skipLine fuel true (skipString (c :: cs))
    else skipLine fuel (!isBare c || isSpace c || c == '.') cs

/-- Reads a header from behind its opening brackets. The closing ones may be missing
as well if the last key is. -/
def readHeader (isArray : Bool) (cs : List Char) : Option (Line × List Char) := do
  let (keys, cs) := readKeys (skipSpace cs)
  let header : Line := .header isArray keys
  match cs with
  | ']' :: cs =>
    let cs ← if isArray then readMark ']' cs else some cs
    return (header, ← readLineEnd cs)
  | cs =>
    if keys.getLast? = some .missing then
      return (header, ← skipLine (cs.length + 1) true cs)
    else none

/-- Reads the item at the end of a line, which may be missing. -/
def readLastItem (cs : List Char) : Option (Item × List Char) :=
  match skipSpace cs with
  | [] => some (.missing, [])
  | c :: cs =>
    if c = '#' ∨ c = '\n' ∨ c = '\r' then some (.missing, c :: cs)
    else readItem maxDepth (c :: cs)

/-- Reads a line that is not empty, and its end. -/
def readLine : List Char → Option (Line × List Char)
  | '[' :: '[' :: cs => readHeader true cs
  | '[' :: cs => readHeader false cs
  | cs => do
    let (keys, cs) := readKeys cs
    let (item, cs) ← readLastItem (← readMark '=' cs)
    return (.binding keys item, ← readLineEnd cs)

/-- Reads all lines. `fuel` is more than their number. -/
def readLines : (fuel : Nat) → List Char → Option (List Line)
  | 0, _ => none
  | fuel + 1, cs =>
    match skipSpace cs with
    | [] => some []
    | c :: rest =>
      if c = '#' ∨ c = '\n' ∨ c = '\r' then do
        readLines fuel (← readLineEnd (c :: rest))
      else do
        let (line, rest) ← readLine (c :: rest)
        return line :: (← readLines fuel rest)

/-- The mark that may stand at the front of a text to tell its encoding. -/
def byteOrderMark : Char := '\ufeff'

/-- The lines of a text, without those that are empty. -/
def linesOf (text : String) : Option (List Line) :=
  let cs := text.toList
  let cs := if cs.head? = some byteOrderMark then cs.tail else cs
  readLines (cs.length + 1) cs

end PoolEnum.Toml
