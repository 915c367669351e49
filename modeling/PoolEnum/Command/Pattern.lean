import PoolEnum.Command.Pattern.Set
import PoolEnum.Text.Alphanumeric

/-!
# PoolEnum.Command.Pattern

Which texts are patterns: regular expressions with groups, sets in brackets,
alternatives and the three repetitions.

A log request may ask for values that match a pattern. No value that a run logs is
ever compared with one, so all that counts is whether the request can be read. The
readers here give no more than that and how deep a pattern is, for which there is a
limit.
-/

namespace PoolEnum.Command.Pattern

/-! ## groups -/

/-- What follows an opening parenthesis. -/
inductive Opening
  /-- A group with flags of its own, and its name if it has one. -/
  | group (f : Flags) (name : Option String)
  /-- Flags for the rest of the group around, and the closing parenthesis. -/
  | flags (f : Flags)
  deriving DecidableEq, Repr

/-- Whether a text is the name of a group. -/
def isName : List Char → Bool
  | [] => false
  | c :: cs =>
    (isAlphabetic c || c == '_') &&
      cs.all fun c => isAlphanumeric c || "_.[]".toList.contains c

/-- Reads the name of a group and the mark behind it. -/
def readName (f : Flags) (cs : List Char) : Option (Opening × List Char) :=
  let name := cs.takeWhile (· ≠ '>')
  match cs.dropWhile (· ≠ '>') with
  | '>' :: cs => if isName name then some (.group f (some (String.ofList name)), cs) else none
  | _ => none

/-- Reads flags up to a colon, behind which they are those of a group, or to a
closing parenthesis, in front of which there has to be one. -/
def readFlags (f : Flags) (cs : List Char) : Option (Opening × List Char) :=
  let inside (c : Char) : Bool := c ≠ ':' && c ≠ ')'
  let letters := cs.takeWhile inside
  match cs.dropWhile inside with
  | ':' :: cs => (f.setAll? letters).map fun f => (.group f none, cs)
  | ')' :: cs => if letters = [] then none else (f.setAll? letters).map fun f => (.flags f, cs)
  | _ => none

/-- Reads what follows an opening parenthesis. -/
def readOpening (f : Flags) (cs : List Char) : Option (Opening × List Char) :=
  match f.skip cs with
  | '?' :: 'P' :: '<' :: cs => readName f cs
  | '?' :: '<' :: cs => readName f cs
  | '?' :: cs => readFlags f cs
  | cs => some (.group f none, cs)

/-! ## alternatives -/

/-- A part of a pattern. -/
structure Piece where
  depth : Nat
  /-- Whether it may be repeated, which flags may not. -/
  repeatable : Bool := true
  deriving DecidableEq, Repr

/-- What there is of a group up to some place: its flags there, the names of all
groups so far, the depths of the alternatives that are complete, and the parts of the
one that is not, the last of them first. -/
structure Body where
  flags : Flags
  names : List String
  branches : List Nat := []
  pieces : List Piece := []
  deriving DecidableEq, Repr

namespace Body

/-- The depth of the alternative that is not complete. -/
def branchDepth (b : Body) : Nat :=
  joinedDepth (b.pieces.map Piece.depth)

/-- The depth of all that is in the group. -/
def depth (b : Body) : Nat :=
  joinedDepth (b.branchDepth :: b.branches)

/-- The group with one more part. -/
def add (b : Body) (p : Piece) : Body :=
  { b with pieces := p :: b.pieces }

/-- The group with the last alternative complete. -/
def turn (b : Body) : Body :=
  { b with branches := b.branchDepth :: b.branches, pieces := [] }

/-- The group with its last part repeated, if it has one that may be. -/
def repeatLast? (b : Body) : Option Body :=
  match b.pieces with
  | p :: pieces =>
    if p.repeatable then some { b with pieces := { depth := p.depth + 1 } :: pieces } else none
  | [] => none

/-- The body of a group in this one. All groups have different names. -/
def inner? (b : Body) (f : Flags) (name : Option String) : Option Body :=
  if name.any b.names.contains then none
  else some { flags := f, names := name.toList ++ b.names }

end Body

/-- Reads what is in a group, up to a closing parenthesis or the end. `fuel` is more
than the number of characters. -/
def readBody : (fuel : Nat) → Body → List Char → Option (Body × List Char)
  | 0, _, _ => none
  | fuel + 1, b, cs =>
    match b.flags.skip cs with
    | [] => some (b, [])
    | ')' :: cs => some (b, ')' :: cs)
    | '|' :: cs => readBody fuel b.turn cs
    | '(' :: cs => do
      match ← readOpening b.flags cs with
      | (.flags flags, cs) =>
        readBody fuel { b.add { depth := 0, repeatable := false } with flags } cs
      | (.group f name, cs) =>
        match ← readBody fuel (← b.inner? f name) cs with
        | (inner, ')' :: cs) =>
          readBody fuel { b.add { depth := inner.depth + 1 } with names := inner.names } cs
        | _ => none
    | '[' :: cs => do
      let (depth, cs) ← readSet b.flags cs
      readBody fuel (b.add { depth }) cs
    | c :: cs =>
      if c = '?' ∨ c = '*' ∨ c = '+' then do
        readBody fuel (← b.repeatLast?) (if cs.head? = some '?' then cs.tail else cs)
      else if c = '{' then none
      else if c = '.' then
        if b.flags.bytes then none else readBody fuel (b.add { depth := 0 }) cs
      else if c = '^' ∨ c = '$' then readBody fuel (b.add { depth := 0 }) cs
      else do
        let (atom, cs) ← readAtom b.flags (c :: cs)
        if b.flags.admits atom then readBody fuel (b.add { depth := 0 }) cs else none

/-- How deep a pattern may be. -/
def maxDepth : Nat := 250

/-- Whether a text is a pattern. -/
def isPattern (cs : List Char) : Bool :=
  match readBody (cs.length + 1) { flags := {}, names := [] } cs with
  | some (b, []) => b.depth ≤ maxDepth
  | _ => false

end PoolEnum.Command.Pattern
