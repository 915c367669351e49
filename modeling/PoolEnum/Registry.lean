import PoolEnum.Name.Suffix
import Std.Data.HashSet

/-!
# PoolEnum.Registry

The names handed out so far in one run, and the one way to obtain a name:
`claim` gives the candidate itself while it is free, else its first free
numbered form, else it refuses.

Names are only ever added. A refused claim leaves the registry as it was.
-/

namespace PoolEnum

/-- The names that are taken. -/
structure Registry where
  taken : Std.HashSet String := {}

/-- A name that was handed out, and the number it carries if the candidate
itself was taken. -/
structure Claim where
  name : String
  suffix : Option Nat
  deriving DecidableEq, Repr

/-- A candidate of which every form, from the plain one to number `maxSuffix`,
is taken. -/
structure Exhausted where
  base : String
  deriving DecidableEq, Repr

namespace Registry

/-- The registry of a run that has not claimed anything. -/
def empty : Registry := {}

/-- Whether `name` is taken. -/
def holds (r : Registry) (name : String) : Bool :=
  r.taken.contains name

/-- The registry with `name` taken as well. -/
def add (r : Registry) (name : String) : Registry :=
  { taken := r.taken.insert name }

/-- Nothing is taken at first. -/
@[simp] theorem holds_empty (name : String) : empty.holds name = false := by
  simp [empty, holds]

/-- Taking a name takes it, and no other. -/
@[simp] theorem holds_add (r : Registry) (taken name : String) :
    (r.add taken).holds name = (taken == name || r.holds name) := by
  simp [add, holds]

/-- The least number whose form of `base` is free. -/
def firstFree (r : Registry) (base : String) : Option Nat :=
  suffixNumbers.find? fun n => !r.holds (suffixed base n)

/-- Hands out `candidate` or its first free numbered form. -/
def claim (r : Registry) (candidate : String) : Except Exhausted Claim × Registry :=
  if r.holds candidate then
    match r.firstFree candidate with
    | some n =>
      let name := suffixed candidate n
      (.ok { name, suffix := some n }, r.add name)
    | none => (.error { base := candidate }, r)
  else (.ok { name := candidate, suffix := none }, r.add candidate)

/-- The results of claims made one after another, and the registry they leave. -/
def claimAll (r : Registry) : List String → List (Except Exhausted Claim) × Registry
  | [] => ([], r)
  | c :: cs =>
    let (result, r) := r.claim c
    let (results, r) := r.claimAll cs
    (result :: results, r)

end Registry

end PoolEnum
