import PoolEnum.Proofs.Log
import PoolEnum.Proofs.Name.Rewriting
import PoolEnum.Proofs.RowOrder

/-!
# PoolEnum.Proofs.Report

What the counts of a report count, and which ids it lists.

A build counts the claims that carry a number. These are the names that differ from
their candidates (`Granted.countP_zip`), and the claims without a number have the
names of as many different candidates. So the numbered ones make up for every
candidate that was there before (`Granted.length_le`), and there are none iff the
candidates all differ (`Granted.countP_eq_zero_iff`). `build_report` puts this
together with the counts of entries and of names that were cut.

The ids that are listed are found among the sorted records (`Makes.mem_duplicateIds_iff`).
The records have the ids of the retained entries, so an entry counts wherever it stands
in the table: `build_duplicateIds`.
-/

namespace PoolEnum

/-! ## numbered and plain claims -/

/-- Whether a claim carries a number. -/
def Claim.isNumbered (c : Claim) : Bool :=
  c.suffix.isSome

section

variable {given candidates : List String} {candidate : String} {c : Claim} {claims : List Claim}

/-- A claim carries a number iff its name is not its candidate. -/
theorem Grants.isNumbered_iff (h : Grants given candidate c) :
    c.isNumbered = true ↔ c.name ≠ candidate := by
  rw [Claim.isNumbered, Option.isSome_iff_ne_none, ne_eq, h.suffix_eq_none_iff]

/-- Without a number the name is the candidate. -/
theorem Grants.name_eq_of_plain (h : Grants given candidate c) (hplain : c.isNumbered = false) :
    c.name = candidate := by
  rw [Claim.isNumbered, Option.isSome_eq_false_iff, Option.isNone_iff_eq_none] at hplain
  exact h.suffix_eq_none_iff.mp hplain

namespace Granted

/-- The claims that carry a number are those whose names are not their candidates. -/
theorem countP_zip (h : Granted given candidates claims) :
    (candidates.zip claims).countP (fun row => row.2.name ≠ row.1) =
      claims.countP Claim.isNumbered := by
  induction h with
  | nil => rfl
  | cons hgrant _ ih =>
      rw [List.zip_cons_cons, List.countP_cons, List.countP_cons, ih]
      congr 1
      simp only [decide_eq_true_eq, ← hgrant.isNumbered_iff]

/-- If no claim carries a number the names are the candidates. -/
theorem map_name_of_plain (h : Granted given candidates claims)
    (hplain : ∀ c ∈ claims, c.isNumbered = false) : claims.map Claim.name = candidates := by
  induction h with
  | nil => rfl
  | cons hgrant _ ih =>
      rw [List.map_cons, hgrant.name_eq_of_plain (hplain _ List.mem_cons_self),
        ih fun d hd => hplain d (List.mem_cons_of_mem _ hd)]

/-- The claims without a number have different names, and these are candidates. So
there are no more of them than there are different candidates. -/
theorem length_le (h : Granted given candidates claims) :
    candidates.length ≤ claims.countP Claim.isNumbered + candidates.dedup.length := by
  have hnodup : ((claims.filter fun c => !c.isNumbered).map Claim.name).Nodup :=
    (List.filter_sublist.map Claim.name).nodup h.nodup.1
  have hsub : (claims.filter fun c => !c.isNumbered).map Claim.name ⊆ candidates.dedup := by
    intro name hname
    obtain ⟨c, hc, rfl⟩ := List.mem_map.mp hname
    obtain ⟨hmem, hplain⟩ := List.mem_filter.mp hc
    obtain ⟨candidate, hcandidate, before, hgrant⟩ := h.exists_grants c hmem
    rw [List.mem_dedup, hgrant.name_eq_of_plain (by simpa using hplain)]
    exact hcandidate
  -- what is not numbered fits into the candidates, each counted once
  have hplain := (hnodup.subperm hsub).length_le
  have hall := List.length_eq_length_filter_add (l := claims) Claim.isNumbered
  rw [List.length_map] at hplain
  rw [List.countP_eq_length_filter, ← h.length_eq]
  omega

/-- No claim carries a number iff the candidates all differ. -/
theorem countP_eq_zero_iff (h : Granted [] candidates claims) :
    claims.countP Claim.isNumbered = 0 ↔ candidates.Nodup := by
  constructor
  · intro hnone
    have hplain : ∀ c ∈ claims, c.isNumbered = false := by
      simpa using List.countP_eq_zero.mp hnone
    rw [← h.map_name_of_plain hplain]
    exact h.nodup.1
  · intro hnodup
    rw [h.unique (granted_plain hnodup (by simp)), List.countP_map]
    exact List.countP_eq_zero.mpr (by simp [Claim.isNumbered, Claim.plain])

end Granted

end

/-! ## assignments -/

section

variable {entries : List Entry} {claims : List Claim}

/-- The claims of `assignments` are those that they were made with. -/
theorem map_claim_assignments (h : claims.length = entries.length) :
    (assignments entries claims).map Assignment.claim = claims := by
  rw [assignments, List.map_zipWith]
  exact List.ext_getElem (by simp [h]) (by simp)

theorem map_derived_assignments (h : claims.length = entries.length) :
    (assignments entries claims).map Assignment.derived = entries.map fun e => derive e.value := by
  rw [assignments, List.map_zipWith]
  exact List.ext_getElem (by simp [h]) (by simp)

end

/-! ## reports -/

/-- The entries that are not retained are the reserved ones. -/
theorem length_sub_length_retained (limit : UInt64) (entries : List Entry) :
    entries.length - (retained limit entries).length = entries.countP fun e => limit ≤ e.id := by
  have hall := List.length_eq_countP_add_countP (fun e : Entry => decide (limit ≤ e.id)) (l := entries)
  have hkept : (retained limit entries).length =
      entries.countP fun e => !decide (limit ≤ e.id) := List.countP_eq_length_filter.symm
  simp only [Bool.not_eq_true, Bool.decide_eq_false] at hall
  omega

namespace Generator.Makes

variable {g : Generator} {entries : List Entry} {made : Generation} {assigned : List Assignment}

/-- A header has as many records as there are assignments. -/
theorem length_records (h : g.Makes entries assigned made) :
    made.header.records.length = assigned.length := by
  rw [h.records, Generator.records, (sortById_perm _).length_eq, List.length_map]

variable {claims : List Claim}

/-- `namesSuffixed` counts the claims that are numbered. -/
theorem namesSuffixed_eq
    (h : g.Makes entries (assignments (retained g.settings.idLimit entries) claims) made)
    (hlength : claims.length = (retained g.settings.idLimit entries).length) :
    made.report.namesSuffixed = claims.countP Claim.isNumbered := by
  have hcount := congrArg (List.countP Claim.isNumbered) (map_claim_assignments hlength)
  rw [List.countP_map] at hcount
  exact h.namesSuffixed.trans hcount

/-- `namesTruncated` counts the entries whose name `derive` cut. -/
theorem namesTruncated_eq
    (h : g.Makes entries (assignments (retained g.settings.idLimit entries) claims) made)
    (hlength : claims.length = (retained g.settings.idLimit entries).length) :
    made.report.namesTruncated =
      (retained g.settings.idLimit entries).countP fun e => (derive e.value).truncated := by
  have hcount := congrArg (List.countP Derived.truncated) (map_derived_assignments hlength)
  rw [List.countP_map, List.countP_map] at hcount
  exact h.namesTruncated.trans hcount

end Generator.Makes

/-- What the counts of a `report` count. The entries read are all entries of the table, and each of
them has a record or is reserved. The names cut are those of the retained entries whose last segment
has more than 20 characters once it is spelled (`spell`): per cent signs written out, a leading
digit guarded and runs of other characters replaced. The names with a number are those of the
retained entries that are not called by their derived names. These are at least as many as there are
records beyond the first of each derived name, and there are none iff the derived names all
differ. -/
theorem build_report (g : Generator) (entries : List Entry) (made : Generation)
    (h : g.build entries = .ok made) :
    let kept := entries.filter fun e => e.id < g.settings.idLimit
    let derived := kept.map fun e => deriveName e.value
    made.report.entriesRead = entries.length ∧
    made.report.entriesRead = made.header.records.length + made.report.reservedSkipped ∧
    (made.report.reservedSkipped = entries.countP fun e => g.settings.idLimit ≤ e.id) ∧
    ((∀ text written, RunsWritten (substituted text) written ↔ written = spell text) ∧
      made.report.namesTruncated =
        kept.countP fun e => 20 < (spell (lastSegment (trim e.value.toList))).length) ∧
    (∃ claims, made.Calls kept claims ∧
      made.report.namesSuffixed =
        (kept.zip claims).countP fun row => row.2.name ≠ deriveName row.1.value) ∧
    made.header.records.length - derived.dedup.length ≤ made.report.namesSuffixed ∧
    (made.report.namesSuffixed = 0 ↔ derived.Nodup) := by
  intro kept derived
  have hkept : retained g.settings.idLimit entries = kept := retained_eq_filter _ _
  obtain ⟨claims, hgranted, hmakes⟩ := Generator.exists_granted_makes h
  have hcalls := hmakes.calls hgranted
  have hsuffixed := hmakes.namesSuffixed_eq hcalls.length_eq
  have htruncated := hmakes.namesTruncated_eq hcalls.length_eq
  have hskipped := hmakes.reservedSkipped
  have hrecords : made.header.records.length = kept.length := by
    rw [hmakes.length_records, assignments, List.length_zipWith, hcalls.length_eq, Nat.min_self,
      hkept]
  have hle : kept.length ≤ entries.length := List.length_filter_le _ _
  have hmade := hgranted.length_le
  have hnone := hgranted.countP_eq_zero_iff
  rw [hkept] at hcalls hskipped htruncated hgranted hmade hnone
  rw [length_candidates] at hmade
  refine ⟨hmakes.entriesRead, ?read, ?reserved, ⟨?written, ?cut⟩, ⟨claims, hcalls, ?numbered⟩,
    ?least, ?none⟩
  case read =>
    rw [hmakes.entriesRead, hskipped, hrecords]
    omega
  case reserved => rw [hskipped, ← hkept, length_sub_length_retained]
  case written =>
    intro text written
    rw [spell_eq, runsWritten_iff]
  case cut =>
    rw [htruncated]
    refine List.countP_congr ?_
    intro e _
    rw [decide_eq_true_eq, derive]
    exact truncated_normalizeTracked_iff
  case numbered =>
    rw [hsuffixed, ← hgranted.countP_zip, candidates, List.zip_map_left, List.countP_map]
    simp only [Function.comp_def, Prod.map_fst, Prod.map_snd, id_eq]
  case least =>
    rw [hsuffixed, hrecords]
    exact Nat.sub_le_of_le_add hmade
  case none =>
    rw [hsuffixed]
    exact hnone

/-- `mixedTable` by its counts. Its five records do not all have names of their own to
begin with, and two of them are called otherwise. -/
theorem mixedTable_report :
    let kept := mixedTable.filter fun e => e.id < 10000
    let derived := kept.map fun e => deriveName e.value
    Generator.usual.build mixedTable = .ok mixedGeneration ∧
    6 = mixedGeneration.header.records.length + 1 ∧
    1 = mixedTable.countP (fun e => 10000 ≤ e.id) ∧
    2 = kept.countP (fun e => 20 < (spell (lastSegment (trim e.value.toList))).length) ∧
    (∃ claims, mixedGeneration.Calls kept claims ∧
      2 = (kept.zip claims).countP fun row => row.2.name ≠ deriveName row.1.value) ∧
    5 - derived.dedup.length ≤ 2 ∧
    ¬ derived.Nodup := by
  obtain ⟨-, hread, hreserved, ⟨-, hcut⟩, hnumbered, hleast, hnone⟩ :=
    build_report .usual mixedTable mixedGeneration build_mixedTable
  exact ⟨build_mixedTable, hread, hreserved, hcut, hnumbered, hleast, fun h => nomatch hnone.mpr h⟩

/-! ## ids of several records -/

/-- The ids of `retained` entries are those below the limit. -/
theorem map_id_retained (limit : UInt64) (entries : List Entry) :
    (retained limit entries).map Entry.id = (entries.map Entry.id).filter fun id => id < limit := by
  rw [retained_eq_filter, List.filter_map]
  rfl

/-- An id stands twice or more among those of the retained entries iff it is not reserved
and that many entries of the whole table have it. -/
theorem two_le_count_retained_iff {limit id : UInt64} {entries : List Entry} :
    2 ≤ ((retained limit entries).map Entry.id).count id ↔
      id < limit ∧ 2 ≤ entries.countP fun e => e.id = id := by
  have hall : (entries.map Entry.id).count id = entries.countP fun e => e.id = id := by
    rw [List.count, List.countP_map]
    exact List.countP_congr fun e _ => by simp
  rw [map_id_retained]
  by_cases hid : id < limit
  · rw [List.count_filter (by simpa using hid), hall]
    simp [hid]
  · have hnot : id ∉ (entries.map Entry.id).filter fun id => id < limit := by simp [hid]
    simp [List.count_eq_zero_of_not_mem hnot, hid]

namespace Generator.Makes

variable {g : Generator} {entries : List Entry} {made : Generation} {claims : List Claim}

/-- The `duplicateIds`, told by the entries: their records have the same ids. -/
theorem mem_duplicateIds_iff
    (h : g.Makes entries (assignments (retained g.settings.idLimit entries) claims) made)
    (hlength : claims.length = (retained g.settings.idLimit entries).length) {id : UInt64} :
    id ∈ made.report.duplicateIds ↔
      id < g.settings.idLimit ∧ 2 ≤ entries.countP fun e => e.id = id := by
  rw [h.duplicateIds, Generator.records, Generator.mem_duplicateIds_iff, map_record_assignments,
    map_id_boundRecords hlength, two_le_count_retained_iff]

end Generator.Makes

/-- Which `duplicateIds` a report lists. They ascend, so each is listed once, and they are the ids
that are not reserved and that two entries of the table or more have, however many these are and
wherever they stand. -/
theorem build_duplicateIds (g : Generator) (entries : List Entry) (made : Generation)
    (h : g.build entries = .ok made) :
    made.report.duplicateIds.Pairwise (· < ·) ∧
    ∀ id, id ∈ made.report.duplicateIds ↔
      id < g.settings.idLimit ∧ 2 ≤ entries.countP fun e => e.id = id := by
  obtain ⟨claims, hgranted, hmakes⟩ := Generator.exists_granted_makes h
  refine ⟨?ascending, fun id => hmakes.mem_duplicateIds_iff ?length⟩
  case ascending =>
    rw [hmakes.duplicateIds]
    exact Generator.pairwise_duplicateIds _
  case length => exact hgranted.length_eq.trans (length_candidates _)

/-- A table in which one id stands three times and another twice, with other entries
between them, and a reserved id twice. -/
def scatteredTable : List Entry :=
  [{ id := 7, value := "a" }, { id := 3, value := "b" }, { id := 10000, value := "c" },
    { id := 7, value := "d" }, { id := 1, value := "e" }, { id := 10000, value := "f" },
    { id := 3, value := "g" }, { id := 7, value := "h" }]

/-- Of the ids in `scatteredTable`, two are listed. -/
theorem scatteredTable_duplicateIds :
    ∃ made, Generator.usual.build scatteredTable = .ok made ∧
      made.report.duplicateIds.Pairwise (· < ·) ∧
      3 ∈ made.report.duplicateIds ∧ 7 ∈ made.report.duplicateIds ∧
      1 ∉ made.report.duplicateIds ∧ 10000 ∉ made.report.duplicateIds := by
  have hnames : (candidates (retained 10000 scatteredTable)).Nodup := by
    have hcandidates : candidates (retained 10000 scatteredTable) =
        ["a", "b", "d", "e", "g", "h"] := by cbv
    rw [hcandidates]
    decide
  obtain ⟨made, hbuild, -⟩ := Generator.exists_makes (g := .usual) (assignNames_of_nodup hnames)
  obtain ⟨hascending, hmem⟩ := build_duplicateIds .usual scatteredTable made hbuild
  exact ⟨made, hbuild, hascending, (hmem 3).mpr (by decide), (hmem 7).mpr (by decide),
    mt (hmem 1).mp (by decide), mt (hmem 10000).mp (by decide)⟩

end PoolEnum
