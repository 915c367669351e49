import PoolEnum.Entry
import PoolEnum.Header
import PoolEnum.Name.Derive
import PoolEnum.Registry

/-!
# PoolEnum.Assignment

Naming the entries of a table one after another, in table order.

`assignNames` walks the entries with a registry. It keeps, for each entry that
got a name, what was derived from its text and what was claimed for it; the
records, the counters and the log of a run are all read off that list. The walk
ends early at the first entry whose candidate has no free form, and tells which
entry that was.
-/

namespace PoolEnum

/-- What one entry was given. -/
structure Assignment where
  id : UInt64
  derived : Derived
  claim : Claim
  deriving DecidableEq, Repr

/-- The entry at which naming gave up, and the candidate it had. -/
structure Refusal where
  id : UInt64
  derived : Derived
  deriving DecidableEq, Repr

/-- The record of an entry that has its name. -/
def Assignment.record (a : Assignment) : Record :=
  { name := a.claim.name, id := a.id }

/-- Names `entries` from the first to the last, as far as that goes. -/
def assignNames (r : Registry) : List Entry → List Assignment × Option Refusal
  | [] => ([], none)
  | e :: es =>
    let derived := derive e.value
    match r.claim derived.name with
    | (.ok claim, r) =>
      let (assigned, refusal) := assignNames r es
      ({ id := e.id, derived, claim } :: assigned, refusal)
    | (.error _, _) => ([], some { id := e.id, derived })

end PoolEnum
