import PoolEnum.Proofs.Generation
import PoolEnum.Proofs.Build

/-!
# PoolEnum.Proofs.RowOrder

Tables whose candidates all differ.

Each candidate is still free when its turn comes, whatever it looks like, so it is
given as it is (`granted_plain`) and no entry has to do with another. If the ids
differ as well, the order of the rows does not matter at all (`build_of_distinct`).
-/

namespace PoolEnum

/-! ## candidates that are all different -/

/-- A candidate given as it is. -/
def Claim.plain (candidate : String) : Claim :=
  { name := candidate, suffix := none }

/-- Candidates that all differ, from each other and from the names `given` before, are `Granted` as
they are. -/
theorem granted_plain {given candidates : List String} (hnodup : candidates.Nodup)
    (hfree : ∀ c ∈ candidates, c ∉ given) :
    Granted given candidates (candidates.map Claim.plain) := by
  induction candidates generalizing given with
  | nil => exact .nil
  | cons candidate candidates ih =>
      obtain ⟨hnot, hnodup⟩ := List.nodup_cons.mp hnodup
      refine .cons (.plain (hfree candidate List.mem_cons_self)) (ih hnodup ?_)
      -- the one name given meanwhile is this candidate, and it does not come again
      intro c hc hmem
      cases List.mem_append.mp hmem with
      | inl h => exact hfree c (List.mem_cons_of_mem _ hc) h
      | inr h =>
          obtain rfl : c = candidate := List.mem_singleton.mp h
          exact hnot hc

/-- What an entry is assigned if nobody has its candidate. -/
def Entry.assignment (e : Entry) : Assignment :=
  { id := e.id, derived := derive e.value, claim := .plain (deriveName e.value) }

/-- `assignments` with nothing but plain claims give each entry its derived name. -/
theorem assignments_plain (entries : List Entry) :
    assignments entries ((candidates entries).map Claim.plain) = entries.map Entry.assignment := by
  rw [assignments, candidates, List.map_map, List.zipWith_map_right, List.zipWith_self]
  rfl

/-- Entries whose candidates all differ do not get in each other's way. -/
theorem assignNames_of_nodup {entries : List Entry} (h : (candidates entries).Nodup) :
    assignNames .empty entries = (entries.map Entry.assignment, none) := by
  rw [assignNames_of_granted (granted_plain h (by simp)), assignments_plain]

/-! ## the order of rows -/

/-- `retained` entries are the same in any order of the table. -/
theorem retained_perm (limit : UInt64) {xs ys : List Entry} (h : xs.Perm ys) :
    (retained limit xs).Perm (retained limit ys) :=
  h.filter _

/-- The record of an entry whose name is its candidate. -/
def Entry.record (e : Entry) : Record :=
  { name := deriveName e.value, id := e.id }

/-- `records` of entries with their derived names are those names in the order of ids. -/
theorem records_assignment (entries : List Entry) :
    Generator.records (entries.map Entry.assignment) = sortById (entries.map Entry.record) := by
  rw [Generator.records, List.map_map]
  rfl

/-- Rows whose candidates and ids all differ make the same generation in any order. -/
theorem build_eq_of_perm {g : Generator} {entries others : List Entry} (hperm : others.Perm entries)
    (hnames : (candidates (retained g.settings.idLimit entries)).Nodup)
    (hids : ((retained g.settings.idLimit entries).map Entry.id).Nodup) :
    g.build others = g.build entries := by
  have hkept := retained_perm g.settings.idLimit hperm
  have hcandidates : (candidates (retained g.settings.idLimit others)).Perm
      (candidates (retained g.settings.idLimit entries)) := hkept.map _
  have hnames' := hcandidates.nodup_iff.mpr hnames
  have hrecords : Generator.records ((retained g.settings.idLimit others).map Entry.assignment) =
      Generator.records ((retained g.settings.idLimit entries).map Entry.assignment) := by
    rw [records_assignment, records_assignment]
    refine (sortById_eq_of_perm (hkept.symm.map Entry.record) ?_).symm
    rwa [List.map_map]
  have hcount (p : Assignment → Bool) := (hkept.map Entry.assignment).countP_eq p
  simp only [Generator.build, assignNames_of_nodup hnames, assignNames_of_nodup hnames', hrecords,
    hcount, hkept.length_eq, hperm.length_eq]

/-- Rows that do not collide are independent. If the `candidates` of the retained entries all
differ, `build` succeeds, each retained entry has a record with its candidate as name, and no name
carries a number. If their ids differ as well, the rows give the same enum and the same report in
any order. -/
theorem build_of_distinct (g : Generator) (entries : List Entry)
    (h : ((entries.filter fun e => e.id < g.settings.idLimit).map
      fun e => deriveName e.value).Nodup) :
    let kept := entries.filter fun e => e.id < g.settings.idLimit
    ∃ made, g.build entries = .ok made ∧
      made.header.records.Perm
        (kept.map fun e => { name := deriveName e.value, id := e.id }) ∧
      made.report.namesSuffixed = 0 ∧
      ((kept.map Entry.id).Nodup → ∀ others : List Entry, others.Perm entries →
        g.build others = .ok made) := by
  intro kept
  have hkept : retained g.settings.idLimit entries = kept := retained_eq_filter _ _
  have hnames : (candidates (retained g.settings.idLimit entries)).Nodup := by
    rwa [hkept]
  obtain ⟨made, hbuild, hmakes⟩ := Generator.exists_makes (assignNames_of_nodup hnames)
  refine ⟨made, hbuild, ?_, ?_, ?_⟩
  · rw [hmakes.records, records_assignment, hkept]
    exact sortById_perm _
  · rw [hmakes.namesSuffixed, List.countP_map]
    exact List.countP_eq_zero.mpr (by simp [Entry.assignment, Claim.plain])
  · intro hids others hperm
    rw [build_eq_of_perm hperm hnames (by rwa [hkept]), hbuild]

/-- Rows of which two look like numbered forms of another, and a reserved one with
a candidate that stands there already. -/
def lookalikeTable : List Entry :=
  [{ id := 5, value := "a" }, { id := 2, value := "x/a_1" }, { id := 10000, value := "a" },
    { id := 1, value := "a_2" }]

/-- `lookalikeTable` from either end. -/
theorem lookalikeTable_rows :
    ((lookalikeTable.filter fun e => e.id < 10000).map fun e => deriveName e.value) =
      ["a", "a_1", "a_2"] ∧
    ["a", "a_1", "a_2"].Nodup ∧
    ((lookalikeTable.filter fun e => e.id < 10000).map Entry.id).Nodup ∧
    ∃ made, Generator.usual.build lookalikeTable = .ok made ∧
      made.header.records.Perm
        [{ name := "a", id := 5 }, { name := "a_1", id := 2 }, { name := "a_2", id := 1 }] ∧
      made.report.namesSuffixed = 0 ∧
      Generator.usual.build lookalikeTable.reverse = .ok made := by
  have hnames : ((lookalikeTable.filter fun e => e.id < 10000).map fun e => deriveName e.value) =
      ["a", "a_1", "a_2"] := by cbv
  have hdistinct : ["a", "a_1", "a_2"].Nodup := by decide
  have hids : ((lookalikeTable.filter fun e => e.id < 10000).map Entry.id).Nodup := by decide
  have hrecords : ((lookalikeTable.filter fun e => e.id < 10000).map fun e =>
      ({ name := deriveName e.value, id := e.id } : Record)) =
      [{ name := "a", id := 5 }, { name := "a_1", id := 2 }, { name := "a_2", id := 1 }] := by cbv
  obtain ⟨made, hbuild, hperm, hsuffixed, horder⟩ :=
    build_of_distinct .usual lookalikeTable (hnames ▸ hdistinct)
  exact ⟨hnames, hdistinct, hids, made, hbuild, hrecords ▸ hperm, hsuffixed,
    horder hids _ (List.reverse_perm _)⟩

end PoolEnum
