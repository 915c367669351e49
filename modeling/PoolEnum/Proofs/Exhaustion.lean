import PoolEnum.Proofs.Generation
import PoolEnum.Proofs.Pool

/-!
# PoolEnum.Proofs.Exhaustion

How many names it takes until a candidate is used up.

The forms of a candidate all differ, so there are as many names as numbers at least
before it is used up (`UsedUp.le_length`): shorter tables are named in full
(`exists_granted_of_length_le`), and shorter runs refuse nobody
(`Answers.le_of_error`). It takes no more than that if the candidate is one of its own
forms, since its pool has no other names then (`Granted.length_le_of_ownForm`).
Both together make `Generator.build_bound`.
-/

namespace PoolEnum

/-! ## names that use a candidate up -/

/-- It takes as many names as there are numbers for a candidate to be `UsedUp`. -/
theorem UsedUp.le_length {given : List String} {candidate : String}
    (h : UsedUp given candidate) : maxSuffix ≤ given.length := by
  have hsub : forms candidate ⊆ given := by
    intro name hname
    obtain ⟨n, hone, hmax, rfl⟩ := mem_forms_iff.mp hname
    exact h.2 n hone hmax
  rw [← length_forms candidate]
  exact ((nodup_forms candidate).subperm hsub).length_le

/-- So candidates are not `StuckAt` a place before `maxSuffix` of them have their names. -/
theorem StuckAt.maxSuffix_le {candidates : List String} {k : Nat} (h : StuckAt candidates k) :
    maxSuffix ≤ k := by
  obtain ⟨claims, hgranted, _, hused⟩ := h
  have hle := hused.le_length
  rw [List.length_map, hgranted.length_eq, List.length_take] at hle
  omega

/-- A table with no more than `maxSuffix` entries is named in full. -/
theorem exists_granted_of_length_le {entries : List Entry} (h : entries.length ≤ maxSuffix) :
    ∃ claims, Granted [] (candidates entries) claims := by
  rcases granted_or_stuckAt entries with hgranted | ⟨k, hstuck⟩
  · exact hgranted
  · have hle := hstuck.maxSuffix_le
    obtain ⟨-, -, hk, -⟩ := hstuck
    rw [length_candidates] at hk
    omega

theorem length_givenNames (results : List (Except Exhausted Claim)) :
    (givenNames results).length = results.countP isGranted := by
  rw [givenNames, List.length_filterMap_eq_countP]
  congr 1
  funext result
  cases result <;> rfl

/-- A claim that is refused comes after `maxSuffix` granted ones, but for the names that were
`given` before. -/
theorem Answers.le_of_error {given candidates : List String}
    {results : List (Except Exhausted Claim)} {k : Nat} {fault : Exhausted}
    (h : Answers given candidates results) (hk : results[k]? = some (.error fault)) :
    maxSuffix ≤ given.length + (results.take k).countP isGranted := by
  obtain ⟨hr, hresult⟩ := List.getElem?_eq_some_iff.mp hk
  have hanswer := h.answer_getElem k (h.length_eq ▸ hr) hr
  rw [hresult] at hanswer
  cases hanswer with
  | refused hused =>
      have hle := hused.le_length
      rwa [List.length_append, length_givenNames] at hle

/-! ## a candidate that is one of its own forms -/

/-- A candidate that is its `OwnForm` has no names in its `pool` but its `forms`. -/
theorem mem_forms_of_ownForm {candidate name : String} {n : Nat} (hone : 1 ≤ n)
    (hmax : n ≤ maxSuffix) (hown : OwnForm candidate n) (h : name ∈ pool candidate) :
    name ∈ forms candidate := by
  cases List.mem_cons.mp h with
  | inl heq =>
      rw [heq, mem_forms_iff]
      exact ⟨n, hone, hmax, ((suffixed_eq_self_iff hmax).mpr hown).symm⟩
  | inr hmem => exact hmem

/-- Such a candidate cannot be `Granted` more than `maxSuffix` names. -/
theorem Granted.length_le_of_ownForm {given : List String} {candidate : String} {n k : Nat}
    {claims : List Claim} (hone : 1 ≤ n) (hmax : n ≤ maxSuffix) (hown : OwnForm candidate n)
    (h : Granted given (List.replicate k candidate) claims) : k ≤ maxSuffix := by
  have hsub : claims.map Claim.name ⊆ forms candidate := by
    intro name hname
    obtain ⟨c, hc, rfl⟩ := List.mem_map.mp hname
    obtain ⟨other, hother, before, hgrant⟩ := h.exists_grants c hc
    obtain rfl : other = candidate := List.eq_of_mem_replicate hother
    exact mem_forms_of_ownForm hone hmax hown hgrant.name_mem_pool
  have hle := (h.nodup.1.subperm hsub).length_le
  rwa [length_forms, List.length_map, h.length_eq, List.length_replicate] at hle

/-! ## tables -/

/-- An entry with the lowest id, and a name of 20 characters that ends in `_1`. -/
def ownFormEntry : Entry :=
  { id := 0, value := "abcdefghijklmnopqr_1" }

namespace Generator

/-- No generator reserves the lowest id. -/
theorem retained_replicate_ownFormEntry (g : Generator) (k : Nat) :
    retained g.settings.idLimit (List.replicate k ownFormEntry) = List.replicate k ownFormEntry := by
  obtain ⟨-, hlimit⟩ := Settings.fault?_eq_none_iff.mp g.accepted
  rw [retained_eq_filter, List.filter_replicate]
  exact if_pos (decide_eq_true (UInt64.pos_iff_ne_zero.mpr hlimit))

/-- More than `maxSuffix` entries with that name cannot be built. -/
theorem build_replicate_ownFormEntry (g : Generator) {k : Nat} (hk : maxSuffix < k) :
    g.build (List.replicate k ownFormEntry) = .error { base := "abcdefghijklmnopqr_1" } := by
  have hname : deriveName ownFormEntry.value = "abcdefghijklmnopqr_1" := by cbv
  have hown : OwnForm "abcdefghijklmnopqr_1" 1 := ⟨by decide, "abcdefghijklmnopqr", by decide⟩
  have hcandidates : candidates (List.replicate k ownFormEntry) =
      List.replicate k "abcdefghijklmnopqr_1" := by
    rw [candidates, List.map_replicate, hname]
  rcases granted_or_stuckAt (List.replicate k ownFormEntry) with ⟨claims, hgranted⟩ | ⟨j, hstuck⟩
  · -- that many names would be of a pool that has fewer
    rw [hcandidates] at hgranted
    exact absurd (hgranted.length_le_of_ownForm (by decide) (by decide) hown) (by omega)
  · -- wherever naming is stuck, the candidate is the same
    rw [← g.retained_replicate_ownFormEntry] at hstuck
    obtain ⟨⟨base⟩, hbuild, hbase⟩ := build_of_stuckAt hstuck
    rw [g.retained_replicate_ownFormEntry, hcandidates] at hbase
    obtain rfl : base = "abcdefghijklmnopqr_1" :=
      List.eq_of_mem_replicate (List.mem_of_getElem? hbase)
    exact hbuild

/-- How large a table may be if `build` is to make it whatever its values are: up to 999 entries
that are not reserved always get their names, and there are 1000 that do not. By `claimAll` on a
fresh registry no claim is refused before 999 were granted. -/
theorem build_bound (g : Generator) :
    (∀ bound : Nat,
      (∀ entries : List Entry, (entries.filter fun e => e.id < g.settings.idLimit).length ≤ bound →
        ∃ made, g.build entries = .ok made) ↔ bound ≤ 999) ∧
    (let table : List Entry := List.replicate 1000 { id := 0, value := "abcdefghijklmnopqr_1" };
      (table.filter fun e => e.id < g.settings.idLimit).length = 1000 ∧
      g.build table = .error { base := "abcdefghijklmnopqr_1" }) ∧
    ∀ (candidates : List String) (k : Nat) (fault : Exhausted),
      (Registry.empty.claimAll candidates).1[k]? = some (.error fault) →
        999 ≤ ((Registry.empty.claimAll candidates).1.take k).countP isGranted := by
  have hfails := g.build_replicate_ownFormEntry (k := 1000) (by decide)
  have hlength : ((List.replicate 1000 ownFormEntry).filter
      fun e => e.id < g.settings.idLimit).length = 1000 := by
    rw [← retained_eq_filter, g.retained_replicate_ownFormEntry, List.length_replicate]
  refine ⟨?bound, ⟨hlength, hfails⟩, ?claims⟩
  case bound =>
    intro bound
    constructor
    · intro h
      apply Nat.le_of_not_lt
      intro hlt
      obtain ⟨made, hbuild⟩ := h _ (hlength.trans_le hlt)
      rw [hfails] at hbuild
      contradiction
    · intro hbound entries hentries
      rw [← retained_eq_filter] at hentries
      obtain ⟨claims, hgranted⟩ := exists_granted_of_length_le (hentries.trans hbound)
      obtain ⟨made, hbuild, -⟩ := build_of_granted hgranted
      exact ⟨made, hbuild⟩
  case claims =>
    intro candidates k fault hk
    have hanswers := (Registry.claimAll_answers Registry.holdsExactly_empty candidates).1
    have hle := hanswers.le_of_error hk
    rwa [List.length_nil, Nat.zero_add] at hle

/-- A thousand entries with that name of which one is reserved can be built. -/
theorem build_bound_reserved :
    let table := List.replicate 999 ownFormEntry ++ [{ ownFormEntry with id := 10000 }]
    table.length = 1000 ∧ (table.filter fun e => e.id < 10000).length = 999 ∧
      ∃ made, usual.build table = .ok made := by
  intro table
  have hkept : (table.filter fun e => e.id < 10000).length = 999 := by
    have hreserved : [{ ownFormEntry with id := 10000 }].filter (fun e => e.id < 10000) = [] := by
      decide
    have hfirst := usual.retained_replicate_ownFormEntry 999
    rw [retained_eq_filter] at hfirst
    rw [List.filter_append, hreserved, List.append_nil]
    exact (congrArg List.length hfirst).trans (List.length_replicate ..)
  have hlength : table.length = 1000 := by
    rw [List.length_append, List.length_replicate]
    rfl
  exact ⟨hlength, hkept, ((build_bound usual).1 999).mpr (Nat.le_refl 999) table hkept.le⟩

end Generator

end PoolEnum
