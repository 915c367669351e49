import PoolEnum.Proofs.Generation

/-!
# PoolEnum.Proofs.Reserved

What a table has to do with its reserved entries: nothing but two counts.

A build looks at the retained entries only (`uncounted_build_congr`,
`trace_congr`), and dropping the reserved ones beforehand retains the same
(`retained_retained`). Hence `build_reserved`: whatever the reserved entries are,
wherever they stand and however many there are, the enum, the log and the fault
are the same.
-/

namespace PoolEnum

/-! ## dropping reserved entries twice -/

/-- What is `retained` below a limit is so below every greater one. -/
theorem retained_retained {limit limit' : UInt64} (h : limit ≤ limit') (entries : List Entry) :
    retained limit' (retained limit entries) = retained limit entries := by
  rw [retained_eq_filter limit', List.filter_eq_self]
  intro e he
  rw [retained_eq_filter, List.mem_filter, decide_eq_true_eq] at he
  exact decide_eq_true (UInt64.lt_of_lt_of_le he.2 h)

/-! ## what a build looks at -/

/-- A generation without its two counts of entries that are in no record: all
that are read, and those that are skipped. -/
def Generation.uncounted (made : Generation) : Generation :=
  { made with report := { made.report with entriesRead := 0, reservedSkipped := 0 } }

namespace Generator

variable {g g' : Generator} {entries entries' : List Entry}

/-- But for the two counts, `build` only sees the `retained` entries. -/
theorem uncounted_build_congr (hname : g.settings.enumName = g'.settings.enumName)
    (h : retained g.settings.idLimit entries = retained g'.settings.idLimit entries') :
    (g.build entries).map Generation.uncounted = (g'.build entries').map Generation.uncounted := by
  simp only [build, h, hname]
  split
  · rfl
  · rfl

/-- So does `trace`. -/
theorem trace_congr
    (h : retained g.settings.idLimit entries = retained g'.settings.idLimit entries') :
    g.trace entries = g'.trace entries' := by
  rw [trace, trace, h]

end Generator

/-! ## reserved entries -/

/-- Reserved entries make no difference. A table and what remains of it below the limit, built with
that limit or a greater one and the same enum name, give the same enum with the same report but for
the two counts of entries (`uncounted`), or the same fault, and the same `trace`. So do any two
tables that agree below the limit. -/
theorem build_reserved (g g' : Generator) (entries : List Entry)
    (hname : g.settings.enumName = g'.settings.enumName)
    (hlimit : g.settings.idLimit ≤ g'.settings.idLimit) :
    let kept := entries.filter fun e => e.id < g.settings.idLimit
    (g.build entries).map Generation.uncounted = (g'.build kept).map Generation.uncounted ∧
    g.trace entries = g'.trace kept ∧
    ∀ others : List Entry, (others.filter fun e => e.id < g.settings.idLimit) = kept →
      (g.build others).map Generation.uncounted = (g.build entries).map Generation.uncounted ∧
      g.trace others = g.trace entries := by
  intro kept
  have hkept : retained g.settings.idLimit entries = kept := retained_eq_filter _ _
  have hsame : retained g.settings.idLimit entries = retained g'.settings.idLimit kept := by
    rw [← hkept, retained_retained hlimit]
  refine ⟨Generator.uncounted_build_congr hname hsame, Generator.trace_congr hsame, ?_⟩
  intro others hothers
  have hagree : retained g.settings.idLimit others = retained g.settings.idLimit entries := by
    rw [hkept, retained_eq_filter, hothers]
  exact ⟨Generator.uncounted_build_congr rfl hagree, Generator.trace_congr hagree⟩

/-- The generator that reserves the greatest id only. -/
def Generator.widest : Generator :=
  { settings := { idLimit := 0xFFFFFFFFFFFFFFFF }, accepted := by decide }

/-- The entries of `mixedTable` that the usual limit retains. -/
def mixedRetained : List Entry :=
  [{ id := 5, value := "a" }, { id := 2, value := "x/a_1" }, { id := 5, value := "a" },
    { id := 2, value := "abcdefghijklmnopqrstuvwxyz" },
    { id := 1, value := "abcdefghijklmnopqrst!" }]

/-- `mixedTable` without its reserved entry under a greater limit, and with
another one in front. -/
theorem mixedTable_reserved :
    Generator.usual.settings.enumName = Generator.widest.settings.enumName ∧
    Generator.usual.settings.idLimit ≤ Generator.widest.settings.idLimit ∧
    (Generator.widest.build mixedRetained).map Generation.uncounted =
      .ok mixedGeneration.uncounted ∧
    (Generator.usual.build ({ id := 70000, value := "a_2" } :: mixedRetained)).map
      Generation.uncounted = .ok mixedGeneration.uncounted := by
  have h := build_reserved .usual .widest mixedTable rfl (by decide)
  rw [build_mixedTable] at h
  exact ⟨rfl, by decide, h.1.symm, (h.2.2 _ (by rfl)).1⟩

end PoolEnum
