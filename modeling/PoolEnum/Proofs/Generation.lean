import Mathlib
import PoolEnum.Failure
import PoolEnum.Proofs.Assignment
import PoolEnum.Proofs.Order

/-!
# PoolEnum.Proofs.Generation

What a build makes of a table.

Whether it succeeds and which names it gives is decided by the candidates of the
retained entries alone (`build_of_granted`, `build_of_stuckAt`). The main results
are read off these two:

* `build_names` — when a build succeeds, what every entry is then called, and
  what is wrong when it fails;
* `build_valid_distinct` — names are valid and no two records share one;
* `build_stable` — the records are the retained entries, by id and stably so.
-/

namespace PoolEnum

/-! ## the retained entries -/

/-- `retained` entries are those with ids below the limit. -/
theorem retained_eq_filter (limit : UInt64) (entries : List Entry) :
    retained limit entries = entries.filter fun e => e.id < limit := by
  rw [retained]
  congr 1
  funext e
  rw [Entry.isReserved, ← decide_not, decide_eq_decide, UInt64.not_le]

/-- The entries with the names they were given, as records in table order. -/
def boundRecords (entries : List Entry) (claims : List Claim) : List Record :=
  entries.zipWith (fun e c => { name := c.name, id := e.id }) claims

/-- The records of `assignments` are `boundRecords`. -/
theorem map_record_assignments (entries : List Entry) (claims : List Claim) :
    (assignments entries claims).map Assignment.record = boundRecords entries claims := by
  rw [assignments, List.map_zipWith]
  rfl

/-- There are as many `boundRecords` as entries. -/
theorem length_boundRecords {entries : List Entry} {claims : List Claim}
    (h : claims.length = entries.length) :
    (boundRecords entries claims).length = entries.length := by
  rw [boundRecords, List.length_zipWith, h, Nat.min_self]

/-- `boundRecords` have the ids of the entries, in their order. -/
theorem map_id_boundRecords {entries : List Entry} {claims : List Claim}
    (h : claims.length = entries.length) :
    (boundRecords entries claims).map Record.id = entries.map Entry.id := by
  apply List.ext_getElem
  · rw [List.length_map, List.length_map, length_boundRecords h]
  · intro k hk hk'
    simp [boundRecords]

theorem map_name_boundRecords {entries : List Entry} {claims : List Claim}
    (h : claims.length = entries.length) :
    (boundRecords entries claims).map Record.name = claims.map Claim.name := by
  apply List.ext_getElem
  · rw [List.length_map, List.length_map, length_boundRecords h, h]
  · intro k hk hk'
    simp [boundRecords]

/-! ## the outcome of a build -/

section

variable {g : Generator} {entries : List Entry}

/-- `build` makes the `boundRecords` of the retained entries if all of these are `Granted` their
claims. -/
theorem build_of_granted {claims : List Claim}
    (h : Granted [] (candidates (retained g.settings.idLimit entries)) claims) :
    ∃ made, g.build entries = .ok made ∧
      made.header.records = sortById (boundRecords (retained g.settings.idLimit entries) claims) := by
  simp only [Generator.build, assignNames_of_granted h, Except.ok.injEq, Generator.records,
    map_record_assignments, exists_eq_left']

/-- `build` fails with the candidate that the retained entries are `StuckAt`. -/
theorem build_of_stuckAt {k : Nat}
    (h : StuckAt (candidates (retained g.settings.idLimit entries)) k) :
    ∃ fault, g.build entries = .error fault ∧
      (candidates (retained g.settings.idLimit entries))[k]? = some fault.base := by
  obtain ⟨before, e, after, claims, hkept, rfl, -, hnames⟩ := assignNames_of_stuckAt h
  refine ⟨{ base := deriveName e.value }, ?_, ?_⟩
  · simp only [Generator.build, hnames, deriveName]
  · simp [hkept, candidates]

/-- A `build` that succeeds has `Granted` every retained entry a name. -/
theorem granted_of_build {made : Generation} (h : g.build entries = .ok made) :
    ∃ claims, Granted [] (candidates (retained g.settings.idLimit entries)) claims ∧
      made.header.records = sortById (boundRecords (retained g.settings.idLimit entries) claims) := by
  rcases granted_or_stuckAt (retained g.settings.idLimit entries) with
    ⟨claims, hgranted⟩ | ⟨k, hstuck⟩
  · obtain ⟨made', hbuild, hrecords⟩ := build_of_granted hgranted
    rw [h, Except.ok.injEq] at hbuild
    exact ⟨claims, hgranted, hbuild ▸ hrecords⟩
  · obtain ⟨fault, hbuild, -⟩ := build_of_stuckAt hstuck
    rw [h] at hbuild
    contradiction

/-- A `build` that fails is `StuckAt` its candidate. -/
theorem stuckAt_of_build {fault : Exhausted} (h : g.build entries = .error fault) :
    ∃ k, StuckAt (candidates (retained g.settings.idLimit entries)) k ∧
      (candidates (retained g.settings.idLimit entries))[k]? = some fault.base := by
  rcases granted_or_stuckAt (retained g.settings.idLimit entries) with
    ⟨claims, hgranted⟩ | ⟨k, hstuck⟩
  · obtain ⟨made, hbuild, -⟩ := build_of_granted hgranted
    rw [h] at hbuild
    contradiction
  · obtain ⟨fault', hbuild, hbase⟩ := build_of_stuckAt hstuck
    rw [h, Except.error.injEq] at hbuild
    exact ⟨k, hstuck, hbuild ▸ hbase⟩

end

/-! ## a table with everything in it -/

/-- The generator of the settings that hold by default. -/
def Generator.usual : Generator :=
  { settings := {}, accepted := by decide }

/-- A table with a name that is taken, one that looks numbered, two that are cut
to the same length, two ids given twice and a reserved id. -/
def mixedTable : List Entry :=
  [{ id := 5, value := "a" }, { id := 2, value := "x/a_1" }, { id := 5, value := "a" },
    { id := 10000, value := "a" }, { id := 2, value := "abcdefghijklmnopqrstuvwxyz" },
    { id := 1, value := "abcdefghijklmnopqrst!" }]

/-- The enum of `mixedTable` and the report on it. -/
def mixedGeneration : Generation where
  header := {
    name := "StrPoolCodes"
    records := [{ name := "abcdefghijklmnopqr_1", id := 1 }, { name := "a_1", id := 2 },
      { name := "abcdefghijklmnopqrst", id := 2 }, { name := "a", id := 5 },
      { name := "a_2", id := 5 }] }
  report := {
    entriesRead := 6
    reservedSkipped := 1
    namesSuffixed := 2
    namesTruncated := 2
    duplicateIds := [2, 5] }

set_option maxRecDepth 10000 in
/-- `build` of `mixedTable` makes `mixedGeneration`. -/
theorem build_mixedTable : Generator.usual.build mixedTable = .ok mixedGeneration := by
  cbv

/-! ## names -/

/-- The words for a candidate that is used up. -/
theorem message_exhausted (fault : Exhausted) :
    (Failure.exhausted fault).message =
      "No free name for '" ++ fault.base ++ "': suffixes _1 to _999 are all taken" := by
  have htail : "': suffixes _1 to _" ++ (toString maxSuffix ++ " are all taken") =
      "': suffixes _1 to _999 are all taken" := by cbv
  unfold Failure.message
  simp only [String.append_assoc, htail]

/-- Which entries get which names. `build` succeeds iff the candidates are `StuckAt` no place. Then
every entry has what is due to its candidate after the names of the entries before it, and for each
id the `records` list the names of its entries in table order. A `build` that fails names the first
candidate, in table order, that is used up. The `suffixed` names are the candidate, cut to leave
room for the tail in 20 characters, and the tail. -/
theorem build_names (g : Generator) (entries : List Entry) :
    let kept := entries.filter fun e => e.id < g.settings.idLimit
    ((∃ made, g.build entries = .ok made) ↔ ¬ ∃ k, StuckAt (candidates kept) k) ∧
    (∀ made, g.build entries = .ok made →
      ∃ claims : List Claim, claims.length = kept.length ∧
        (∀ k (he : k < kept.length) (hc : k < claims.length),
          Grants ((claims.take k).map Claim.name) (deriveName kept[k].value) claims[k]) ∧
        ∀ id, (made.header.records.filter fun r => r.id = id) =
          (boundRecords kept claims).filter fun r => r.id = id) ∧
    (∀ fault, g.build entries = .error fault →
      (∃ k, StuckAt (candidates kept) k ∧ (∀ j, StuckAt (candidates kept) j → k ≤ j) ∧
        (candidates kept)[k]? = some fault.base) ∧
      (Failure.exhausted fault).message =
        "No free name for '" ++ fault.base ++ "': suffixes _1 to _999 are all taken") ∧
    ∀ d n, suffixed d n =
      String.ofList (d.toList.take (min d.length (20 - ("_" ++ toString n).length)) ++
        ("_" ++ toString n).toList) := by
  intro kept
  have hkept : retained g.settings.idLimit entries = kept := retained_eq_filter _ _
  refine ⟨⟨?_, ?_⟩, ?_, ?_, suffixed_eq⟩
  · intro hmade hblocked
    obtain ⟨made, hbuild⟩ := hmade
    obtain ⟨k, hstuck⟩ := hblocked
    obtain ⟨claims, hgranted, -⟩ := granted_of_build hbuild
    rw [hkept] at hgranted
    exact hgranted.not_stuckAt k hstuck
  · intro hfree
    rcases granted_or_stuckAt kept with ⟨claims, hgranted⟩ | hstuck
    · rw [← hkept] at hgranted
      obtain ⟨made, hbuild, -⟩ := build_of_granted hgranted
      exact ⟨made, hbuild⟩
    · exact absurd hstuck hfree
  · intro made hbuild
    obtain ⟨claims, hgranted, hrecords⟩ := granted_of_build hbuild
    rw [hkept] at hgranted hrecords
    refine ⟨claims, hgranted.length_eq.trans (length_candidates kept), ?_, ?_⟩
    · intro k he hc
      have hgrant := hgranted.grants_getElem k (by rwa [length_candidates]) hc
      simpa [candidates] using hgrant
    · intro id
      rw [hrecords, filter_sortById]
  · intro fault hbuild
    obtain ⟨k, hstuck, hbase⟩ := stuckAt_of_build hbuild
    rw [hkept] at hstuck hbase
    exact ⟨⟨k, hstuck, fun j hj => hstuck.le hj, hbase⟩, message_exhausted fault⟩

/-! ## validity and distinctness -/

/-- Whatever the table, every name that `build` makes is `isValidName`: an identifier of at most 20
characters. No two `records` have the same one. -/
theorem build_valid_distinct (g : Generator) (entries : List Entry) (made : Generation)
    (h : g.build entries = .ok made) :
    (∀ r ∈ made.header.records, isValidName r.name = true ∧ r.name.length ≤ 20 ∧
      ∃ c cs, r.name.toList = c :: cs ∧ (c.isAlpha = true ∨ c = '_') ∧
        ∀ d ∈ cs, d.isAlpha = true ∨ d.isDigit = true ∨ d = '_') ∧
    made.header.records.Pairwise fun a b => a.name ≠ b.name := by
  obtain ⟨claims, hgranted, hrecords⟩ := granted_of_build h
  let kept := retained g.settings.idLimit entries
  have hlength : claims.length = kept.length := hgranted.length_eq.trans (length_candidates kept)
  have hnames : (made.header.records.map Record.name).Perm (claims.map Claim.name) := by
    rw [hrecords, ← map_name_boundRecords hlength]
    exact (sortById_perm _).map Record.name
  constructor
  · intro r hr
    obtain ⟨c, hc, hname⟩ := List.mem_map.mp (hnames.mem_iff.mp (List.mem_map_of_mem hr))
    have hvalid : isValidName r.name = true := by
      rw [← hname]
      refine hgranted.isValidName_name ?_ c hc
      intro candidate hcandidate
      obtain ⟨e, -, rfl⟩ := List.mem_map.mp hcandidate
      exact isValidName_derive e.value
    obtain ⟨hidentifier, hlength⟩ := isValidName_iff.mp hvalid
    obtain ⟨c, cs, hlist, hstart, hword⟩ := isIdentifier_iff.mp hidentifier
    refine ⟨hvalid, hlength, c, cs, hlist, by simpa [isWordStart] using hstart, ?_⟩
    intro d hd
    simpa [isWordChar, Char.isAlphanum, or_assoc] using hword d hd
  · exact List.pairwise_map.mp (hnames.nodup_iff.mpr hgranted.nodup.1)

/-- The five names of `mixedTable` are valid and distinct. -/
theorem mixedTable_valid_distinct :
    Generator.usual.build mixedTable = .ok mixedGeneration ∧
      (∀ r ∈ mixedGeneration.header.records, isValidName r.name = true) ∧
      mixedGeneration.header.records.Pairwise fun a b => a.name ≠ b.name := by
  have h := build_valid_distinct Generator.usual mixedTable mixedGeneration build_mixedTable
  exact ⟨build_mixedTable, fun r hr => (h.1 r hr).1, h.2⟩

/-! ## order -/

/-- Where the record of each entry goes when the records are sorted. -/
theorem exists_place_boundRecords {kept : List Entry} {claim : Fin kept.length → Claim}
    {records : List Record} (h : records = sortById (boundRecords kept (List.ofFn claim))) :
    ∃ place : Fin kept.length ≃ Fin records.length,
      (∀ k, records.get (place k) = { name := (claim k).name, id := (kept.get k).id }) ∧
        ∀ j k, (kept.get j).id = (kept.get k).id → (place j < place k ↔ j < k) := by
  subst h
  -- the records in table order are as many as the entries, so their numbers are the entries'
  let number := finCongr (length_boundRecords (List.length_ofFn (f := claim))).symm
  have hbound : ∀ k, (boundRecords kept (List.ofFn claim)).get (number k) =
      { name := (claim k).name, id := (kept.get k).id } := by
    intro k
    simp only [List.get_eq_getElem, boundRecords, List.getElem_zipWith, List.getElem_ofFn]
    rfl
  obtain ⟨place, hplace, hstable⟩ := exists_place (boundRecords kept (List.ofFn claim))
  refine ⟨number.trans place, ?_, ?_⟩
  · intro k
    rw [← hbound k]
    exact hplace (number k)
  · intro j k hid
    exact hstable (number j) (number k) (by rw [hbound, hbound]; exact hid)

/-- The records are the retained entries with their names, by id and stably so:
`place` takes each entry to its record, every record is taken to once, the ids
never go down, and entries of one id keep their order. No record has a reserved
id. -/
theorem build_stable (g : Generator) (entries : List Entry) (made : Generation)
    (h : g.build entries = .ok made) :
    let kept := entries.filter fun e => e.id < g.settings.idLimit
    let records := made.header.records
    ∃ (claim : Fin kept.length → Claim) (place : Fin kept.length ≃ Fin records.length),
      Granted [] (candidates kept) (List.ofFn claim) ∧
      (∀ k, records.get (place k) = { name := (claim k).name, id := (kept.get k).id }) ∧
      (records.Pairwise fun a b => a.id ≤ b.id) ∧
      (∀ j k, (kept.get j).id = (kept.get k).id → (place j < place k ↔ j < k)) ∧
      ∀ r ∈ records, r.id < g.settings.idLimit := by
  intro kept records
  have hkept : retained g.settings.idLimit entries = kept := retained_eq_filter _ _
  obtain ⟨claims, hgranted, hrecords⟩ := granted_of_build h
  rw [hkept] at hgranted hrecords
  have hlength : kept.length = claims.length :=
    (hgranted.length_eq.trans (length_candidates kept)).symm
  let claim : Fin kept.length → Claim := fun k => claims[finCongr hlength k]
  have hofFn : List.ofFn claim = claims := by
    apply List.ext_getElem
    · rw [List.length_ofFn, hlength]
    · intro k hk hk'
      simp [claim]
  rw [← hofFn] at hgranted hrecords
  obtain ⟨place, hplace, hstable⟩ := exists_place_boundRecords hrecords
  refine ⟨claim, place, hgranted, hplace, ?_, hstable, ?_⟩
  · change made.header.records.Pairwise _
    rw [hrecords]
    exact pairwise_sortById _
  · intro r hr
    obtain ⟨i, rfl⟩ := List.get_of_mem hr
    have hrecord := hplace (place.symm i)
    rw [Equiv.apply_symm_apply] at hrecord
    change (made.header.records.get i).id < _
    rw [hrecord]
    simpa [kept] using (List.mem_filter.mp (kept.get_mem (place.symm i))).2

/-- The five retained entries of `mixedTable` each have one record. -/
theorem mixedTable_stable :
    Generator.usual.build mixedTable = .ok mixedGeneration ∧
      ∃ (claim : Fin 5 → Claim) (place : Fin 5 ≃ Fin mixedGeneration.header.records.length),
        Granted [] ["a", "a_1", "a", "abcdefghijklmnopqrst", "abcdefghijklmnopqrst"]
          (List.ofFn claim) ∧
        (∀ k, (mixedGeneration.header.records.get (place k)).name = (claim k).name) ∧
        (mixedGeneration.header.records.Pairwise fun a b => a.id ≤ b.id) ∧
        place 0 < place 2 ∧ place 1 < place 3 := by
  obtain ⟨claim, place, hgranted, hplace, hsorted, hstable, -⟩ :=
    build_stable Generator.usual mixedTable mixedGeneration build_mixedTable
  exact ⟨build_mixedTable, claim, place, hgranted, fun k => congrArg Record.name (hplace k),
    hsorted, (hstable (0 : Fin 5) (2 : Fin 5) rfl).mpr (show (0 : Fin 5) < 2 by decide),
    (hstable (1 : Fin 5) (3 : Fin 5) rfl).mpr (show (1 : Fin 5) < 3 by decide)⟩

end PoolEnum
