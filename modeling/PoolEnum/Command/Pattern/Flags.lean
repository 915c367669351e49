import PoolEnum.Text.Blank

/-!
# PoolEnum.Command.Pattern.Flags

What flags say about the rest of a group of a pattern.

Letters may be the same in both cases, blanks and comments may stand between the
parts, and the pattern may be about bytes instead of characters. There are no
tables of letters behind it, so no character can be read where cases are the same,
unless it is about bytes; and a text is made of characters, so a part that is about
bytes can be read only if it stays within ASCII.
-/

namespace PoolEnum.Command.Pattern

/-- The flags that count for reading. -/
structure Flags where
  /-- Whether small and capital letters are the same. -/
  caseless : Bool := false
  /-- Whether the pattern is about bytes. -/
  bytes : Bool := false
  /-- Whether blanks and comments may stand between the parts. -/
  spaced : Bool := false
  deriving DecidableEq, Repr

namespace Flags

/-! ## setting flags -/

/-- The flags with one of them set, by its letter. -/
def set? (f : Flags) (on : Bool) : Char → Option Flags
  | 'i' => some { f with caseless := on }
  | 'u' => some { f with bytes := !on }
  | 'x' => some { f with spaced := on }
  | 'm' | 's' | 'U' | 'R' => some f
  | _ => none

/-- The flags with several of them set. Behind a dash they are turned off; there is
one at most, and not at the end. No letter stands twice. -/
def setAll? (f : Flags) (letters : List Char) : Option Flags :=
  if letters.getLast? = some '-' ∨ ¬letters.Nodup then none
  else do
    let f ← (letters.takeWhile (· ≠ '-')).foldlM (fun f c => f.set? true c) f
    ((letters.dropWhile (· ≠ '-')).drop 1).foldlM (fun f c => f.set? false c) f

/-! ## blanks and comments -/

/-- The text without the blanks and comments at its front. `inComment` tells that
the characters before are those of a comment. -/
def dropGap (inComment : Bool) : List Char → List Char
  | [] => []
  | c :: cs =>
    if inComment then dropGap (c ≠ '\n') cs
    else if isBlank c then dropGap false cs
    else if c = '#' then dropGap true cs
    else c :: cs

/-- The text without what does not count at its front. -/
def skip (f : Flags) (cs : List Char) : List Char :=
  if f.spaced then dropGap false cs else cs

/-- The character that counts next. Of a comment it is the first character that is
not blank, and of blanks alone the first of them. -/
def peek (f : Flags) (cs : List Char) : Option Char :=
  if f.spaced then
    let next :=
      match cs.dropWhile isBlank with
      | '#' :: cs => cs.dropWhile isBlank
      | cs => cs
    next.head?.or cs.head?
  else cs.head?

end Flags

end PoolEnum.Command.Pattern
