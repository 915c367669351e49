/-!
# PoolEnum.Text.ByteSlice

Parts of a text that are told by their places in its UTF-8 encoding.

A place inside the encoding of a character is none where the text can be cut.
-/

namespace PoolEnum

/-- The size of a text in bytes. -/
def byteSize (cs : List Char) : Nat :=
  cs.foldr (fun c size => c.utf8Size + size) 0

/-- The text behind so many bytes. -/
def dropBytes? : (count : Nat) → List Char → Option (List Char)
  | 0, cs => some cs
  | _ + 1, [] => none
  | count + 1, c :: cs =>
    if c.utf8Size ≤ count + 1 then dropBytes? (count + 1 - c.utf8Size) cs else none

/-- The text of so many bytes at the front of a text. -/
def takeBytes? : (count : Nat) → List Char → Option (List Char)
  | 0, _ => some []
  | _ + 1, [] => none
  | count + 1, c :: cs =>
    if c.utf8Size ≤ count + 1 then
      (takeBytes? (count + 1 - c.utf8Size) cs).map (c :: ·)
    else none

/-- The part of a text that starts at a place and has so many bytes. -/
def slice? (first count : Nat) (cs : List Char) : Option (List Char) := do
  takeBytes? count (← dropBytes? first cs)

end PoolEnum
