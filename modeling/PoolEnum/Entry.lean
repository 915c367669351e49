/-!
# PoolEnum.Entry

One row of a string table: an id and the text stored under it.
-/

namespace PoolEnum

/-- A pool string and its id. Several entries may share an id. -/
structure Entry where
  id : UInt64
  value : String
  deriving DecidableEq, Repr

/-- Ids from `limit` on are reserved: they get no enum record. -/
def Entry.isReserved (limit : UInt64) (e : Entry) : Bool :=
  limit ≤ e.id

/-- The entries below `limit`, in table order. -/
def retained (limit : UInt64) (entries : List Entry) : List Entry :=
  entries.filter fun e => !e.isReserved limit

end PoolEnum
