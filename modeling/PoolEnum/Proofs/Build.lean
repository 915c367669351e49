import PoolEnum.Generation

/-!
# PoolEnum.Proofs.Build

All that a build can do.

Naming gives the first entry what is claimed for it and goes on with the others
(`assignNames_cons_ok`), or it ends there (`assignNames_cons_error`). A build names
the retained entries and makes its generation of their assignments, or it fails
with the candidate that naming gave up at: `build_eq_ok_iff` and
`build_eq_error_iff`. What is shown of a build elsewhere is shown of the
assignments.
-/

namespace PoolEnum

/-! ## naming, step by step -/

section

variable {r next : Registry} {e : Entry}

/-- `assignNames` with a name for the first entry goes on with the others. -/
theorem assignNames_cons_ok {c : Claim} (es : List Entry)
    (h : r.claim (derive e.value).name = (.ok c, next)) :
    assignNames r (e :: es) =
      ({ id := e.id, derived := derive e.value, claim := c } :: (assignNames next es).1,
        (assignNames next es).2) := by
  simp only [assignNames, h]

/-- `assignNames` without a name for the first entry stops there. -/
theorem assignNames_cons_error {fault : Exhausted} (es : List Entry)
    (h : r.claim (derive e.value).name = (.error fault, next)) :
    assignNames r (e :: es) = ([], some { id := e.id, derived := derive e.value }) := by
  simp only [assignNames, h]

end

/-! ## the outcome of a build -/

/-- The generation that a build makes of the assignments of its retained entries,
which are all named. -/
structure Generator.Makes (g : Generator) (entries : List Entry) (assigned : List Assignment)
    (made : Generation) : Prop where
  named : assignNames .empty (retained g.settings.idLimit entries) = (assigned, none)
  name : made.header.name = g.settings.enumName
  records : made.header.records = Generator.records assigned
  entriesRead : made.report.entriesRead = entries.length
  reservedSkipped : made.report.reservedSkipped =
    entries.length - (retained g.settings.idLimit entries).length
  namesSuffixed : made.report.namesSuffixed = assigned.countP fun a => a.claim.suffix.isSome
  namesTruncated : made.report.namesTruncated = assigned.countP fun a => a.derived.truncated
  duplicateIds : made.report.duplicateIds = Generator.duplicateIds (Generator.records assigned)

namespace Generator

variable {g : Generator} {entries : List Entry} {made : Generation} {fault : Exhausted}

/-- `build` succeeds with the generation that the generator `Makes`. -/
theorem build_eq_ok_iff :
    g.build entries = .ok made ↔ ∃ assigned, g.Makes entries assigned made := by
  unfold build
  dsimp only
  constructor
  · intro h
    split at h
    · contradiction
    · next assigned hnamed =>
      rw [Except.ok.injEq] at h
      subst h
      exact ⟨assigned, hnamed, rfl, rfl, rfl, rfl, rfl, rfl, rfl⟩
  · intro h
    obtain ⟨⟨name, records⟩, ⟨read, skipped, suffixed, truncated, duplicate⟩⟩ := made
    obtain ⟨assigned, hnamed, rfl, rfl, rfl, rfl, rfl, rfl, rfl⟩ := h
    simp only [hnamed]

/-- A build that names all retained entries succeeds. -/
theorem exists_makes {assigned : List Assignment}
    (h : assignNames .empty (retained g.settings.idLimit entries) = (assigned, none)) :
    ∃ made, g.build entries = .ok made ∧ g.Makes entries assigned made := by
  simp only [build, h, Except.ok.injEq, exists_eq_left']
  exact ⟨h, rfl, rfl, rfl, rfl, rfl, rfl, rfl⟩

/-- `build` fails with the name that `assignNames` has no form for. -/
theorem build_eq_error_iff :
    g.build entries = .error fault ↔
      ∃ assigned refusal, assignNames .empty (retained g.settings.idLimit entries) =
        (assigned, some refusal) ∧ fault = { base := refusal.derived.name } := by
  unfold build
  dsimp only
  split
  · next assigned refusal hnamed =>
    constructor
    · intro h
      exact ⟨assigned, refusal, hnamed, (Except.error.inj h).symm⟩
    · intro h
      obtain ⟨assigned', refusal', heq, rfl⟩ := h
      rw [hnamed, Prod.mk.injEq, Option.some.injEq] at heq
      rw [heq.2]
  · next assigned hnamed => simp [hnamed]

end Generator

end PoolEnum
