import PoolEnum.Command.Pattern
import PoolEnum.Event
import PoolEnum.Text.Alphanumeric
import PoolEnum.Text.Blank
import PoolEnum.Text.ByteSlice
import PoolEnum.Text.Pieces

/-!
# PoolEnum.Command.Directive

One part of a choice of events: the least important level that is shown, and of
which events.

A directive is for all events, for those of the parts of the program whose name
starts with its target, or, with a name in braces within brackets, for those that
have a field of that name: `part[{field}]=level`. What else may stand there asks
for something that no event of a run has.
-/

namespace PoolEnum.Command

/-- What is let through: `none` is nothing at all. -/
abbrev Threshold := Option Level

/-- Whether events of a level pass. -/
def Threshold.passes (threshold : Threshold) (level : Level) : Bool :=
  threshold.any fun least => level.rank ≤ least.rank

/-- A threshold and the events that it is for. -/
structure Directive where
  /-- The beginning of the names of some parts of the program; `none` stands for
  all parts. -/
  target : Option String := none
  /-- Whether it is for events within a span of the program, or with a certain
  value of a field within one. The events of a run are in no spans. -/
  inSpan : Bool := false
  /-- A field that the events have. -/
  field : Option String := none
  threshold : Threshold
  deriving DecidableEq, Repr

namespace Directive

/-- The part of the program that all events come from. -/
def source : String := "strpool_codegen::generate"

/-- Whether a directive is for an event. -/
def fits (d : Directive) (e : Event) : Bool :=
  d.target.all (fun target => target.toList.isPrefixOf source.toList) && !d.inSpan &&
    d.field.all e.hasField

/-- How narrow the target of a directive is. -/
def width (d : Directive) : Nat :=
  match d.target with
  | none => 0
  | some target => target.length + 1

/-- Whether the second of two directives, both for one event, is no wider than the
first: it has a longer target, or the same one and a field, or the same one and a
field that is not listed before the other's. -/
def notNarrower (a b : Directive) : Bool :=
  if a.width = b.width then
    match a.field, b.field with
    | none, _ => true
    | some _, none => false
    | some f, some g => f ≤ g
  else a.width < b.width

/-! ## reading thresholds -/

/-- The words for thresholds, in any case. -/
def thresholdNames : List (String × Threshold) :=
  [("off", none), ("error", some .error), ("warn", some .warn), ("info", some .info),
    ("debug", some .debug), ("trace", some .trace)]

/-- A threshold by its number, from `0` for nothing to `5` for all. -/
def numbered? : Nat → Option Threshold
  | 0 => some none
  | 1 => some (some .error)
  | 2 => some (some .warn)
  | 3 => some (some .info)
  | 4 => some (some .debug)
  | 5 => some (some .trace)
  | _ => none

/-- A number that may have a plus sign in front. -/
def number? (text : List Char) : Option Nat :=
  let digits :=
    match text with
    | '+' :: rest => rest
    | _ => text
  if digits ≠ [] ∧ digits.all Char.isDigit then
    some (digits.foldl (fun n c => 10 * n + (c.toNat - '0'.toNat)) 0)
  else none

/-- A threshold by name or number. -/
def threshold? (text : List Char) : Option Threshold :=
  match number? text with
  | some n => numbered? n
  | none => thresholdNames.lookup (String.ofList (text.map Char.toLower))

/-- The threshold behind an equals sign. Everything is shown if there is none. -/
def thresholdOrAll? (text : List Char) : Option Threshold :=
  if text = [] then some (some .trace) else threshold? text

/-! ## reading directives -/

/-- Whether a directive without brackets can start with a character. -/
def isStart (c : Char) : Bool :=
  isAlphanumeric c || c = '-' || c = ':' || c = '_'

/-- A text without the sign at its front. -/
def dropSign (text : List Char) : List Char :=
  if text.head? = some '+' ∨ text.head? = some '-' then text.tail else text

/-- Whether a text is an exponent, or nothing at all. -/
def isExponent : List Char → Bool
  | [] => true
  | c :: cs => (c == 'e' || c == 'E') && dropSign cs ≠ [] && (dropSign cs).all Char.isDigit

/-- Whether a text is a number, with or without a sign, a point and an exponent. -/
def isNumber (text : List Char) : Bool :=
  let body := dropSign text
  let whole := body.takeWhile Char.isDigit
  ["inf", "infinity", "nan"].contains (String.ofList (body.map Char.toLower)) ||
    match body.dropWhile Char.isDigit with
    | '.' :: rest =>
      (whole ≠ [] || rest.head?.any Char.isDigit) && isExponent (rest.dropWhile Char.isDigit)
    | rest => whole ≠ [] && isExponent rest

/-- Whether a text asks for a value that a field can have. -/
def isValue (text : List Char) : Bool :=
  isNumber text || Pattern.isPattern text

/-- What stands in braces: the name of a field, and whether there is a value for it,
which spans alone are asked for. -/
def field? (text : List Char) : Option (String × Bool) :=
  match pieces '=' text with
  | name :: value :: _ => if isValue value then some (String.ofList name, true) else none
  | _ => if text = [] then none else some (String.ofList text, false)

/-- What stands in brackets, as a directive with all else open, and the place behind
them with what follows there. `seen` is what follows the opening bracket, and `place`
is where that is in the text that names are cut from. -/
def ofBrackets? (text : List Char) (place : Nat) (seen : List Char) :
    Option (Directive × Nat × List Char) := do
  let inside (c : Char) : Bool := c ≠ ']' && c ≠ '{'
  let span ← slice? place (byteSize (seen.takeWhile inside)) text
  let place := place + byteSize span + 1
  match seen.dropWhile inside with
  | ']' :: seen => return ({ inSpan := true, threshold := none }, place, seen)
  | '{' :: seen =>
    let field ← slice? place (byteSize (seen.takeWhile (· ≠ '}'))) text
    let (name, hasValue) ← field? field
    let place := place + byteSize field + 1
    match seen.dropWhile (· ≠ '}') with
    | '}' :: ']' :: seen =>
      return ({ inSpan := span ≠ [] || hasValue, field := some name, threshold := none },
        place + 1, seen)
    | _ => none
  | _ => none

/-- The threshold at the end of a directive, behind an equals sign. -/
def ending? (text : List Char) (place : Nat) (seen : List Char) : Option Threshold :=
  match seen with
  | [] => some (some .trace)
  | '=' :: _ => (dropBytes? (place + 1) text).bind thresholdOrAll?
  | _ => none

/-- A text without marks: a threshold, or a target for which everything is shown. -/
def ofWord (text : List Char) : Directive :=
  match threshold? text with
  | some threshold => { threshold }
  | none => { target := some (String.ofList text), threshold := some .trace }

/-- A directive: a threshold, or a target, brackets or both, with a threshold
behind an equals sign; where that is missing, everything is shown.

Blanks at either end are passed over to find the marks, but they count when the
parts are cut out: the bytes of blanks in front shift all parts, and blanks at the end
belong to the last one. A part cannot start or end inside a character: a directive with
such a part cannot be read. -/
def ofText? (text : List Char) : Option Directive := do
  let seen := trim text
  let inside (c : Char) : Bool := c ≠ '=' && c ≠ '['
  let lead := seen.takeWhile inside
  let place := byteSize lead
  if !seen.head?.any (fun c => isStart c || c = '[') then none
  else
    match seen.dropWhile inside with
    | [] => return ofWord text
    | rest =>
      let target ← if lead = [] then pure none
        else (slice? 0 place text).map fun target => some (String.ofList target)
      match rest with
      | '[' :: seen =>
        let (d, place, seen) ← ofBrackets? text (place + 1) seen
        return { d with target, threshold := ← ending? text place seen }
      | seen => return { target, threshold := ← ending? text place seen }

end Directive

end PoolEnum.Command
