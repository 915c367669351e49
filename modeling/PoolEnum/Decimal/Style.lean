import PoolEnum.Decimal.Shortest

/-!
# PoolEnum.Decimal.Style

Floating-point numbers as text: the shortest digits that read back, with a
point in their middle or an exponent behind them.

A `DecimalStyle` says which numbers are written with all their places, and which
digits are written where two choices are equally short and near. A number with
all its places always shows a point, so a whole one ends in `.0`; one with an
exponent shows the sign of the exponent and no more digits of it than it has.
-/

namespace PoolEnum

/-- How numbers are written. -/
structure DecimalStyle where
  /-- The least exponent that the leading digit of a number with all its places
  may have, if there is a bound. -/
  least : Option Int
  /-- The greatest such exponent. -/
  most : Option Int
  /-- Which of two equally near choices of digits is written. -/
  tie : Tie
  deriving DecidableEq, Repr

/-- Whether a leading digit with exponent `p` is written with all places. -/
def DecimalStyle.positional (style : DecimalStyle) (p : Int) : Bool :=
  style.least.all (· ≤ p) && style.most.all (p ≤ ·)

/-- Digits, a point and as many zeros as it takes. -/
def Decimal.positional (d : Decimal) : String :=
  let ds := Nat.toDigits 10 d.digits
  let p : Int := ds.length - 1 + d.exponent
  let zeros (n : Int) : List Char := List.replicate n.toNat '0'
  String.ofList <|
    if 0 ≤ d.exponent then ds ++ zeros d.exponent ++ ['.', '0']
    else if 0 ≤ p then ds.take (p.toNat + 1) ++ '.' :: ds.drop (p.toNat + 1)
    else ['0', '.'] ++ zeros (-p - 1) ++ ds

/-- An exponent with its sign. -/
def exponentText (p : Int) : String :=
  (if p < 0 then "e-" else "e+") ++ toString p.natAbs

/-- One digit before the point, and an exponent. -/
def Decimal.scientific (d : Decimal) : String :=
  let ds := Nat.toDigits 10 d.digits
  let p : Int := ds.length - 1 + d.exponent
  let fraction := match ds.drop 1 with
    | [] => []
    | rest => '.' :: rest
  String.ofList (ds.take 1 ++ fraction) ++ exponentText p

/-- A positive decimal as text. -/
def Decimal.text (style : DecimalStyle) (d : Decimal) : String :=
  if style.positional ((digitCount d.digits : Int) - 1 + d.exponent) then d.positional
  else d.scientific

/-- The text of a double that is neither infinite nor no number. -/
def finiteText (style : DecimalStyle) (x : Float) : String :=
  let bits : Nat := x.toBits.toNat
  let sign := if bits / Nat.pow 2 63 = 1 then "-" else ""
  let exponent : Nat := bits / Nat.pow 2 52 % Nat.pow 2 11
  let fraction : Nat := bits % Nat.pow 2 52
  if exponent = 0 ∧ fraction = 0 then sign ++ "0.0"
  else if exponent = 0 then sign ++ (shortest style.tie fraction (-1074) false).text style
  else
    let m := Nat.pow 2 52 + fraction
    let q : Int := (exponent : Int) - 1075
    sign ++ (shortest style.tie m q (fraction == 0 && 1 < exponent)).text style

end PoolEnum
