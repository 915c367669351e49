import PoolEnum.Proofs.Generation
import PoolEnum.Proofs.Build

/-!
# PoolEnum.Proofs.Relabel

Ids matter by their order only.

Two tables of one shape (`SameShape`) have the same values row by row, are reserved
in the same rows, and put their retained rows in the same order. Their claims are
the same, since ids have no part in them. Sorting moves their records in the same
way (`exists_sortById_map`), and the same places of the sorted records repeat an id
(`exists_repeatedIds_map`). Hence `build_relabel`: the names are the same, place by
place.
-/

namespace PoolEnum

/-! ## sorting by keys of one order -/

section

variable {α : Type} {l : List α}

/-- `sortById` moves records alike whose ids are ordered alike. -/
theorem exists_sortById_map {f f' : α → Record}
    (h : ∀ a ∈ l, ∀ b ∈ l, ((f a).id < (f b).id ↔ (f' a).id < (f' b).id)) :
    ∃ m : List α, m.Perm l ∧ sortById (l.map f) = m.map f ∧ sortById (l.map f') = m.map f' := by
  refine ⟨l.mergeSort fun a b => (f a).id ≤ (f b).id, List.mergeSort_perm _ _, ?_, ?_⟩
  · rw [sortById]
    refine (List.map_mergeSort ?_).symm
    intro a _ b _
    rfl
  · rw [sortById]
    refine (List.map_mergeSort ?_).symm
    intro a ha b hb
    rw [decide_eq_decide, ← UInt64.not_lt, ← UInt64.not_lt, h b hb a ha]

/-- Ids that are ordered alike are equal alike. -/
theorem id_eq_iff_of_lt_iff {a b a' b' : UInt64} (hab : a < b ↔ a' < b') (hba : b < a ↔ b' < a') :
    a = b ↔ a' = b' := by
  constructor
  · intro h
    subst h
    exact UInt64.le_antisymm (by simpa using hba) (by simpa using hab)
  · intro h
    subst h
    exact UInt64.le_antisymm (by simpa using hba) (by simpa using hab)

/-- `repeatedIds` finds the same places where keys are equal in the same places. -/
theorem exists_repeatedIds_map (key key' : α → UInt64) (reported : Option α)
    (h : ∀ a ∈ reported.toList ++ l, ∀ b ∈ reported.toList ++ l,
      (key a = key b ↔ key' a = key' b)) :
    ∃ m : List α, repeatedIds (reported.map key) (l.map key) = m.map key ∧
      repeatedIds (reported.map key') (l.map key') = m.map key' := by
  induction l generalizing reported with
  | nil => exact ⟨[], rfl, rfl⟩
  | cons a l ih =>
      cases l with
      | nil => exact ⟨[], rfl, rfl⟩
      | cons b l =>
          have hab := h a (by simp) b (by simp)
          have hnew : reported.map key ≠ some (key b) ↔ reported.map key' ≠ some (key' b) := by
            cases reported with
            | none => simp
            | some r => simpa using not_congr (h r (by simp) b (by simp))
          simp only [List.map_cons] at ih ⊢
          rw [repeatedIds, repeatedIds]
          by_cases hrepeats : key a = key b ∧ reported.map key ≠ some (key b)
          · rw [if_pos hrepeats, if_pos ((and_congr hab hnew).mp hrepeats)]
            have hsub : ∀ c ∈ b :: b :: l, c ∈ reported.toList ++ a :: b :: l :=
              fun c hc => List.mem_append_right _ (List.mem_cons_of_mem a (by simpa using hc))
            obtain ⟨m, hm, hm'⟩ := ih (some b) fun c hc d hd => h c (hsub c hc) d (hsub d hd)
            exact ⟨b :: m, by rw [List.map_cons, ← hm]; rfl, by rw [List.map_cons, ← hm']; rfl⟩
          · rw [if_neg hrepeats, if_neg (mt (and_congr hab hnew).mpr hrepeats)]
            have hsub := ((List.sublist_cons_self a (b :: l)).append_left reported.toList).subset
            exact ih reported fun c hc d hd => h c (hsub hc) d (hsub hd)

/-- `duplicateIds` finds as many ids among records whose ids are ordered alike. -/
theorem length_duplicateIds_map {f f' : α → Record}
    (h : ∀ a ∈ l, ∀ b ∈ l, ((f a).id < (f b).id ↔ (f' a).id < (f' b).id)) :
    (Generator.duplicateIds (l.map f)).length = (Generator.duplicateIds (l.map f')).length := by
  have hequal : ∀ a ∈ l, ∀ b ∈ l, ((f a).id = (f b).id ↔ (f' a).id = (f' b).id) :=
    fun a ha b hb => id_eq_iff_of_lt_iff (h a ha b hb) (h b hb a ha)
  obtain ⟨m, hm, hm'⟩ := exists_repeatedIds_map (fun a => (f a).id) (fun a => (f' a).id) none
    hequal
  rw [Option.map_none] at hm hm'
  rw [Generator.duplicateIds, Generator.duplicateIds, List.map_map, List.map_map]
  change (repeatedIds none (l.map fun a => (f a).id)).length =
    (repeatedIds none (l.map fun a => (f' a).id)).length
  rw [hm, hm', List.length_map, List.length_map]

end

/-! ## tables of one shape -/

/-- Two tables, each with its limit, have the same values row by row, are reserved
in the same rows, and their retained rows are in the same order by id. -/
structure SameShape (limit limit' : UInt64) (xs ys : List Entry) : Prop where
  length_eq : xs.length = ys.length
  value_eq : ∀ k (hx : k < xs.length) (hy : k < ys.length), xs[k].value = ys[k].value
  reserved_iff : ∀ k (hx : k < xs.length) (hy : k < ys.length),
    limit ≤ xs[k].id ↔ limit' ≤ ys[k].id
  lt_iff : ∀ j (hjx : j < xs.length) (hjy : j < ys.length) k (hkx : k < xs.length)
    (hky : k < ys.length), xs[j].id < limit → xs[k].id < limit →
      (xs[j].id < xs[k].id ↔ ys[j].id < ys[k].id)

/-- The retained rows of both tables, side by side. -/
theorem SameShape.exists_rows {limit limit' : UInt64} {xs ys : List Entry}
    (h : SameShape limit limit' xs ys) :
    ∃ rows : List (Entry × Entry), retained limit xs = rows.map Prod.fst ∧
      retained limit' ys = rows.map Prod.snd ∧ (∀ r ∈ rows, r.1.value = r.2.value) ∧
      ∀ r ∈ rows, ∀ s ∈ rows, (r.1.id < s.1.id ↔ r.2.id < s.2.id) := by
  -- a pair of the zipped tables stands in one row of both
  have hrow : ∀ r ∈ xs.zip ys, ∃ k, ∃ (hx : k < xs.length) (hy : k < ys.length),
      r = (xs[k], ys[k]) := by
    intro r hr
    obtain ⟨k, hk, rfl⟩ := List.mem_iff_getElem.mp hr
    rw [List.length_zip] at hk
    exact ⟨k, by omega, by omega, List.getElem_zip⟩
  let rows := (xs.zip ys).filter fun r => r.1.id < limit
  have hrows : ∀ r ∈ rows, r ∈ xs.zip ys ∧ r.1.id < limit := by
    intro r hr
    simpa [rows] using hr
  refine ⟨rows, ?_, ?_, ?_, ?_⟩
  · have hfst : (xs.zip ys).map Prod.fst = xs := List.map_fst_zip (Nat.le_of_eq h.length_eq)
    rw [retained_eq_filter, ← congrArg (List.filter _) hfst, List.filter_map]
    rfl
  · have hsame : rows = (xs.zip ys).filter fun r => r.2.id < limit' := by
      apply List.filter_congr
      intro r hr
      obtain ⟨k, hx, hy, rfl⟩ := hrow r hr
      rw [decide_eq_decide, ← UInt64.not_le, ← UInt64.not_le, h.reserved_iff k hx hy]
    have hsnd : (xs.zip ys).map Prod.snd = ys := List.map_snd_zip (Nat.le_of_eq h.length_eq.symm)
    rw [retained_eq_filter, hsame, ← congrArg (List.filter _) hsnd, List.filter_map]
    rfl
  · intro r hr
    obtain ⟨k, hx, hy, rfl⟩ := hrow r (hrows r hr).1
    exact h.value_eq k hx hy
  · intro r hr s hs
    obtain ⟨hr, hrlimit⟩ := hrows r hr
    obtain ⟨hs, hslimit⟩ := hrows s hs
    obtain ⟨j, hjx, hjy, rfl⟩ := hrow r hr
    obtain ⟨k, hkx, hky, rfl⟩ := hrow s hs
    exact h.lt_iff j hjx hjy k hkx hky hrlimit hslimit

/-! ## their builds -/

section

variable {rows : List (Entry × Entry)} {claims : List Claim}

/-- The record that the entry of a row gets with its claim. `side` picks the table. -/
def rowRecord (side : Entry × Entry → Entry) (row : (Entry × Entry) × Claim) : Record :=
  { name := row.2.name, id := (side row.1).id }

theorem boundRecords_map (side : Entry × Entry → Entry) :
    boundRecords (rows.map side) claims = (rows.zip claims).map (rowRecord side) := by
  rw [boundRecords, List.zipWith_map_left, List.zip, List.map_zipWith]
  rfl

/-- Rows with the same values have the same candidates. -/
theorem candidates_map_eq (hvalue : ∀ r ∈ rows, r.1.value = r.2.value) :
    candidates (rows.map Prod.fst) = candidates (rows.map Prod.snd) := by
  rw [candidates, candidates, List.map_map, List.map_map]
  apply List.map_congr_left
  intro r hr
  exact congrArg deriveName (hvalue r hr)

/-- What is counted by derived name and claim does not depend on the ids. -/
theorem countP_assignments_map (hvalue : ∀ r ∈ rows, r.1.value = r.2.value)
    (p : Derived → Claim → Bool) :
    (assignments (rows.map Prod.fst) claims).countP (fun a => p a.derived a.claim) =
      (assignments (rows.map Prod.snd) claims).countP fun a => p a.derived a.claim := by
  have hcount (side : Entry × Entry → Entry) :
      (assignments (rows.map side) claims).countP (fun a => p a.derived a.claim) =
        (rows.zip claims).countP fun row => p (derive (side row.1).value) row.2 := by
    rw [assignments, List.zipWith_map_left, List.zip, ← List.map_uncurry_zip_eq_zipWith,
      List.countP_map, ← List.zip]
    rfl
  rw [hcount, hcount]
  apply List.countP_congr
  intro row hrow
  rw [hvalue row.1 (List.of_mem_zip hrow).1]

end

/-- Names depend on the values and the order of the ids. Two tables of the `SameShape` fail with the
same fault, or `build` makes both: then their `records` have the same names, place by place, the
same numbers of entries are skipped, numbered and cut, and as many ids are reported twice. -/
theorem build_relabel (g g' : Generator) (xs ys : List Entry)
    (h : SameShape g.settings.idLimit g'.settings.idLimit xs ys) :
    (∃ fault, g.build xs = .error fault ∧ g'.build ys = .error fault) ∨
    ∃ made made', g.build xs = .ok made ∧ g'.build ys = .ok made' ∧
      made.header.records.map Record.name = made'.header.records.map Record.name ∧
      made.report.reservedSkipped = made'.report.reservedSkipped ∧
      made.report.namesSuffixed = made'.report.namesSuffixed ∧
      made.report.namesTruncated = made'.report.namesTruncated ∧
      made.report.duplicateIds.length = made'.report.duplicateIds.length := by
  obtain ⟨rows, hxs, hys, hvalue, horder⟩ := h.exists_rows
  have hcandidates := candidates_map_eq hvalue
  rcases granted_or_stuckAt (rows.map Prod.fst) with ⟨claims, hgranted⟩ | ⟨k, hstuck⟩
  · have hgranted' := hcandidates ▸ hgranted
    have hnamed := assignNames_of_granted hgranted
    have hnamed' := assignNames_of_granted hgranted'
    rw [← hxs] at hnamed
    rw [← hys] at hnamed'
    obtain ⟨made, hbuild, hmakes⟩ := Generator.exists_makes hnamed
    obtain ⟨made', hbuild', hmakes'⟩ := Generator.exists_makes hnamed'
    have hzip : ∀ a ∈ rows.zip claims, ∀ b ∈ rows.zip claims,
        ((rowRecord Prod.fst a).id < (rowRecord Prod.fst b).id ↔
          (rowRecord Prod.snd a).id < (rowRecord Prod.snd b).id) :=
      fun a ha b hb => horder a.1 (List.of_mem_zip ha).1 b.1 (List.of_mem_zip hb).1
    obtain ⟨m, hperm, hsort, hsort'⟩ := exists_sortById_map hzip
    have hrecords : made.header.records = m.map (rowRecord Prod.fst) := by
      rw [hmakes.records, Generator.records, map_record_assignments, hxs, boundRecords_map, hsort]
    have hrecords' : made'.header.records = m.map (rowRecord Prod.snd) := by
      rw [hmakes'.records, Generator.records, map_record_assignments, hys, boundRecords_map, hsort']
    refine .inr ⟨made, made', hbuild, hbuild', ?_, ?_, ?_, ?_, ?_⟩
    · rw [hrecords, hrecords', List.map_map, List.map_map]
      rfl
    · rw [hmakes.reservedSkipped, hmakes'.reservedSkipped, hxs, hys, h.length_eq, List.length_map,
        List.length_map]
    · rw [hmakes.namesSuffixed, hmakes'.namesSuffixed, hxs, hys]
      exact countP_assignments_map hvalue fun _ c => c.suffix.isSome
    · rw [hmakes.namesTruncated, hmakes'.namesTruncated, hxs, hys]
      exact countP_assignments_map hvalue fun d _ => d.truncated
    · rw [hmakes.duplicateIds, ← hmakes.records, hrecords, hmakes'.duplicateIds, ← hmakes'.records,
        hrecords']
      apply length_duplicateIds_map
      intro a ha b hb
      rw [hperm.mem_iff] at ha hb
      exact hzip a ha b hb
  · have hstuck' := hcandidates ▸ hstuck
    rw [← hxs] at hstuck
    rw [← hys] at hstuck'
    obtain ⟨⟨base⟩, hbuild, hbase⟩ := build_of_stuckAt hstuck
    obtain ⟨⟨base'⟩, hbuild', hbase'⟩ := build_of_stuckAt hstuck'
    rw [hxs, hcandidates, ← hys, hbase', Option.some.injEq] at hbase
    obtain rfl : base' = base := hbase
    exact .inl ⟨_, hbuild, hbuild'⟩

/-- A generator with a low limit. -/
def Generator.narrow : Generator :=
  { settings := { enumName := "Codes", idLimit := 50 }, accepted := by decide }

/-- `mixedTable` with other ids in the same order. -/
def relabelledTable : List Entry :=
  [{ id := 40, value := "a" }, { id := 7, value := "x/a_1" }, { id := 40, value := "a" },
    { id := 99, value := "a" }, { id := 7, value := "abcdefghijklmnopqrstuvwxyz" },
    { id := 3, value := "abcdefghijklmnopqrst!" }]

/-- Both tables give the five names of `mixedGeneration`, in its order. -/
theorem relabelledTable_names :
    SameShape Generator.usual.settings.idLimit Generator.narrow.settings.idLimit mixedTable
      relabelledTable ∧
    ∃ made, Generator.narrow.build relabelledTable = .ok made ∧
      made.header.records.map Record.name =
        ["abcdefghijklmnopqr_1", "a_1", "abcdefghijklmnopqrst", "a", "a_2"] ∧
      made.report.namesSuffixed = 2 ∧ made.report.duplicateIds.length = 2 := by
  have hshape : SameShape Generator.usual.settings.idLimit Generator.narrow.settings.idLimit
      mixedTable relabelledTable := by
    constructor <;> decide
  refine ⟨hshape, ?_⟩
  rcases build_relabel .usual .narrow mixedTable relabelledTable hshape with
    ⟨fault, hbuild, -⟩ | ⟨made, made', hbuild, hbuild', hnames, -, hsuffixed, -, hduplicates⟩
  · rw [build_mixedTable] at hbuild
    contradiction
  · rw [build_mixedTable, Except.ok.injEq] at hbuild
    subst hbuild
    exact ⟨made', hbuild', hnames.symm, hsuffixed.symm, hduplicates.symm⟩

end PoolEnum
