/-!
# PoolEnum.Text.Ranges

Sets of characters as closed ranges of code points: the form in which the
properties of characters are tabled.
-/

namespace PoolEnum

/-- The first and the last code point of each range. -/
abbrev CharRanges := Array (Nat × Nat)

/-- Whether `c` is in one of the ranges. -/
def CharRanges.holds (ranges : CharRanges) (c : Char) : Bool :=
  ranges.any fun (first, last) => first ≤ c.toNat && c.toNat ≤ last

end PoolEnum
