import PoolEnum.Name.Basic

/-!
# PoolEnum.Name.Suffix

The numbered forms of a name, tried one after another when the name itself is
taken. The base is shortened first, so that a numbered form of a name is never
longer than `maxNameLength`.
-/

namespace PoolEnum

/-- The highest number that is tried. -/
def maxSuffix : Nat := 999

/-- An underscore and `n` in decimal. -/
def suffixTail (n : Nat) : List Char :=
  '_' :: (toString n).toList

/-- The form of `base` with number `n`: as much of the base as leaves room for
the tail, then the tail. -/
def suffixed (base : String) (n : Nat) : String :=
  let tail := suffixTail n
  String.ofList (base.toList.take (maxNameLength - tail.length) ++ tail)

/-- The numbers in the order in which they are tried. -/
def suffixNumbers : List Nat :=
  List.range' 1 maxSuffix

end PoolEnum
