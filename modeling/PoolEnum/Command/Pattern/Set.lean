import PoolEnum.Command.Pattern.Atom

/-!
# PoolEnum.Command.Pattern.Set

Sets of characters in brackets.

In a set stand characters, ranges of them and further sets, and between those there
may be three operators. A reader gives how deep a set is, counting brackets,
operators and lists of two or more members around one another.
-/

namespace PoolEnum.Command.Pattern

/-- The depth of parts one after another: a list of them is one deeper than its
deepest part, unless that is the only one. -/
def joinedDepth : List Nat → Nat
  | [] => 0
  | [depth] => depth
  | depths => depths.foldr max 0 + 1

/-- The depth of the members in front of an operator or a closing bracket. `left` is
that of all before the last operator, if there was one. -/
def operandDepth (left : Option Nat) (members : List Nat) : Nat :=
  match left with
  | none => joinedDepth members
  | some depth => max depth (joinedDepth members) + 1

/-- The names of sets that are known by name. -/
def setNames : List String :=
  ["alnum", "alpha", "ascii", "blank", "cntrl", "digit", "graph", "lower", "print", "punct",
    "space", "upper", "word", "xdigit"]

/-- Reads the name of a set from behind its opening bracket, between two colons and
with a caret in front for all but the set; with the closing bracket. -/
def readNamed : List Char → Option (Bool × List Char)
  | ':' :: cs =>
    let (negated, cs) :=
      match cs with
      | '^' :: cs => (true, cs)
      | cs => (false, cs)
    match cs.dropWhile (· ≠ ':') with
    | ':' :: ']' :: rest =>
      if setNames.contains (String.ofList (cs.takeWhile (· ≠ ':'))) then some (negated, rest)
      else none
    | _ => none
  | _ => none

/-- Whether a set, or all but a set, may be asked for. -/
def Flags.admitsSet (f : Flags) (negated : Bool) : Bool :=
  !(f.bytes && negated)

/-- Whether a set that is known by name may be asked for. -/
def Flags.admitsNamed (f : Flags) (negated : Bool) : Bool :=
  if f.bytes then !negated else !f.caseless

/-- Reads a character, or two with a dash between them, of which the second one is
not smaller. -/
def readRange (f : Flags) (cs : List Char) : Option (List Char) := do
  let (first, cs) ← readAtom f cs
  if !f.admitsInSet first then none
  else
    match f.skip cs with
    | [] => none
    | '-' :: rest =>
      if f.peek rest = some ']' ∨ f.peek rest = some '-' then some ('-' :: rest)
      else
        let (last, cs) ← readAtom f (f.skip rest)
        match first, last with
        | .character a _, .character b _ =>
          if a ≤ b ∧ f.admitsInSet last then some cs else none
        | _, _ => none
    | cs => some cs

/-- Reads the caret at the start of a set for all characters but those in it. -/
def readCaret (f : Flags) (cs : List Char) : Bool × List Char :=
  match f.skip cs with
  | '^' :: cs => (true, cs)
  | cs => (false, cs)

/-- Reads the members of a set and its closing bracket. At its start, dashes stand
for themselves, and so does a closing bracket that comes first. `fuel` is more than
the number of characters. -/
def readMembers (f : Flags) : (fuel : Nat) → (atStart : Bool) → (left : Option Nat) →
    (members : List Nat) → List Char → Option (Nat × List Char)
  | 0, _, _, _, _ => none
  | fuel + 1, atStart, left, members, cs =>
    let itself (atStart : Bool) (c : Char) (cs : List Char) : Option (Nat × List Char) :=
      if f.admitsInSet (.character c false) then readMembers f fuel atStart left (0 :: members) cs
      else none
    let operator (cs : List Char) : Option (Nat × List Char) :=
      readMembers f fuel false (some (operandDepth left members)) [] cs
    match f.skip cs, atStart with
    | [], _ => none
    | '-' :: cs, true => itself true '-' cs
    | ']' :: cs, _ =>
      if atStart ∧ members = [] then itself false ']' cs
      else some (operandDepth left members + 1, cs)
    | '&' :: '&' :: cs, _ => operator cs
    | '-' :: '-' :: cs, _ => operator cs
    | '~' :: '~' :: cs, _ => operator cs
    | '[' :: cs, _ =>
      match readNamed cs with
      | some (negated, cs) =>
        if f.admitsNamed negated then readMembers f fuel false left (0 :: members) cs else none
      | none =>
        let (negated, cs) := readCaret f cs
        if f.admitsSet negated then do
          let (depth, cs) ← readMembers f fuel true none [] cs
          readMembers f fuel false left (depth :: members) cs
        else none
    | cs, _ => do readMembers f fuel false left (0 :: members) (← readRange f cs)

/-- Reads a set from behind its opening bracket. -/
def readSet (f : Flags) (cs : List Char) : Option (Nat × List Char) :=
  let (negated, cs) := readCaret f cs
  if f.admitsSet negated then readMembers f (cs.length + 1) true none [] cs else none

end PoolEnum.Command.Pattern
