/-!
# PoolEnum.Decimal.Shortest

The shortest decimal that reads back as a given binary fraction.

The reals that round to `m · 2^q` form an interval whose ends are halfway to its
neighbours; the ends belong to it iff `m` is even. For one digit, two digits and
so on, `shortest` looks at the two multiples of that power of ten next to the
value. The first grid with a multiple in the interval wins, and of two on it the
nearer; which of two equally near ones wins is a matter of style (`Tie`). All
comparisons are between natural numbers.
-/

namespace PoolEnum

/-- The number `digits · 10^exponent`. -/
structure Decimal where
  digits : Nat
  exponent : Int
  deriving DecidableEq, Repr

/-- Which of the two multiples wins that a value is halfway between. -/
inductive Tie
  /-- The one with an even last digit. -/
  | even
  /-- The larger one. -/
  | up
  deriving DecidableEq, Repr

/-- Whether the multiple above wins, if the one below is the `c`-th. -/
def Tie.goesUp (tie : Tie) (c : Nat) : Bool :=
  match tie with
  | even => c % 2 == 1
  | up => true

/-- The number of decimal digits of `n`. -/
def digitCount (n : Nat) : Nat :=
  (Nat.toDigits 10 n).length

/-- The exponent of the leading digit of `num / den`, both positive. -/
def magnitude (num den : Nat) : Int :=
  let p : Int := (digitCount num : Int) - digitCount den
  if den * Nat.pow 10 p.toNat ≤ num * Nat.pow 10 (-p).toNat then p else p - 1

/-- The decimal `digits · 10^exponent` without zeros at the end of its digits,
as far as `fuel` goes. -/
def Decimal.strip (d : Decimal) : (fuel : Nat) → Decimal
  | 0 => d
  | fuel + 1 =>
    if d.digits ≠ 0 ∧ d.digits % 10 = 0 then
      Decimal.strip { digits := d.digits / 10, exponent := d.exponent + 1 } fuel
    else d

/-- The reals that round to one binary fraction, over a common denominator. -/
structure RoundingInterval where
  value : Nat
  low : Nat
  high : Nat
  den : Nat
  closed : Bool

namespace RoundingInterval

/-- The interval of `m · 2^q`. The neighbour below is half as far away as the
one above when `narrow` says so. -/
def of (m : Nat) (q : Int) (narrow : Bool) : RoundingInterval :=
  let unit := Nat.pow 2 (q - 2).toNat
  let value := 4 * m * unit
  { value
    low := value - (if narrow then 1 else 2) * unit
    high := value + 2 * unit
    den := Nat.pow 2 (2 - q).toNat
    closed := m % 2 == 0 }

/-- Whether `c · 10^k` rounds to the value. -/
def holds (i : RoundingInterval) (c : Nat) (k : Int) : Bool :=
  let x := c * Nat.pow 10 k.toNat * i.den
  let low := i.low * Nat.pow 10 (-k).toNat
  let high := i.high * Nat.pow 10 (-k).toNat
  if i.closed then low ≤ x && x ≤ high else low < x && x < high

/-- The multiple of `10^k` that rounds to the value, the nearer one if there are
two. -/
def onGrid (i : RoundingInterval) (tie : Tie) (k : Int) : Option Decimal :=
  let num := i.value * Nat.pow 10 (-k).toNat
  let den := i.den * Nat.pow 10 k.toNat
  let c := num / den
  match i.holds c k, i.holds (c + 1) k with
  | true, true =>
    let middle := (2 * c + 1) * den
    let up := middle < 2 * num || (middle == 2 * num && tie.goesUp c)
    some { digits := if up then c + 1 else c, exponent := k }
  | true, false => some { digits := c, exponent := k }
  | false, true => some { digits := c + 1, exponent := k }
  | false, false => none

end RoundingInterval

/-- The shortest decimal in the interval of `m · 2^q`, for a positive `m` of at
most 53 bits: seventeen digits are enough to tell those apart. -/
def shortest (tie : Tie) (m : Nat) (q : Int) (narrow : Bool) : Decimal :=
  let i := RoundingInterval.of m q narrow
  let p := magnitude i.value i.den
  let found := (List.range 17).findSome? fun (n : Nat) => i.onGrid tie (p - n)
  (found.getD { digits := 0, exponent := 0 }).strip 17

end PoolEnum
