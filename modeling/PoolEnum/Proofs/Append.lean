import PoolEnum.Proofs.Build
import PoolEnum.Proofs.Order

/-!
# PoolEnum.Proofs.Append

What a table has to do with its first entries.

Naming goes through a table from the front, so the first entries are named as if
the others were not there (`assignNames_append`). Their records are sorted in
among the others but keep their order (`sortById_sublist`), hence `build_append`:
a longer table never renames what was there.
-/

namespace PoolEnum

/-- `assignNames` names the first entries of a table as if they were all of it. If that gets stuck
it is all that is done; else the others are named after them. -/
theorem assignNames_append (r : Registry) (es fs : List Entry) :
    (∃ assigned refusal, assignNames r es = (assigned, some refusal) ∧
      assignNames r (es ++ fs) = (assigned, some refusal)) ∨
    ∃ assigned more refusal, assignNames r es = (assigned, none) ∧
      assignNames r (es ++ fs) = (assigned ++ more, refusal) := by
  induction es generalizing r with
  | nil => exact .inr ⟨[], _, _, rfl, rfl⟩
  | cons e es ih =>
      cases hclaim : r.claim (derive e.value).name with
      | mk result next =>
          cases result with
          | ok c =>
              rw [List.cons_append, assignNames_cons_ok es hclaim,
                assignNames_cons_ok (es ++ fs) hclaim]
              rcases ih next with ⟨assigned, refusal, hes, hall⟩ |
                ⟨assigned, more, refusal, hes, hall⟩
              · exact .inl ⟨_ :: assigned, refusal, by rw [hes], by rw [hall]⟩
              · exact .inr ⟨_ :: assigned, more, refusal, by rw [hes], by rw [hall]; rfl⟩
          | error fault =>
              exact .inl ⟨[], _, assignNames_cons_error es hclaim,
                assignNames_cons_error (es ++ fs) hclaim⟩

/-- `retained` entries of two tables are those of each. -/
theorem retained_append (limit : UInt64) (xs ys : List Entry) :
    retained limit (xs ++ ys) = retained limit xs ++ retained limit ys :=
  List.filter_append ..

/-- No more entries are `retained` than there are. -/
theorem length_retained_le (limit : UInt64) (entries : List Entry) :
    (retained limit entries).length ≤ entries.length :=
  List.length_filter_le _ _

/-- Appending entries to a table keeps all that was made of it. If `build` makes the longer table it
makes the shorter one as well, whose `records` are among the others with the same names, ids and
order, and so are its `duplicateIds`; no count of the `report` goes down. If the shorter one fails,
the longer one fails in the same way. -/
theorem build_append (g : Generator) (xs ys : List Entry) :
    (∀ made, g.build (xs ++ ys) = .ok made →
      ∃ first, g.build xs = .ok first ∧
        first.header.records.Sublist made.header.records ∧
        first.report.entriesRead ≤ made.report.entriesRead ∧
        first.report.reservedSkipped ≤ made.report.reservedSkipped ∧
        first.report.namesSuffixed ≤ made.report.namesSuffixed ∧
        first.report.namesTruncated ≤ made.report.namesTruncated ∧
        first.report.duplicateIds.Sublist made.report.duplicateIds) ∧
    ∀ fault, g.build xs = .error fault → g.build (xs ++ ys) = .error fault := by
  have hcases := assignNames_append .empty (retained g.settings.idLimit xs)
    (retained g.settings.idLimit ys)
  rw [← retained_append] at hcases
  constructor
  · intro made hbuild
    obtain ⟨all, hmakes⟩ := Generator.build_eq_ok_iff.mp hbuild
    rcases hcases with ⟨assigned, refusal, -, hall⟩ | ⟨assigned, more, refusal, hxs, hall⟩
    · rw [hmakes.named] at hall
      simp at hall
    · obtain ⟨first, hbuild', hmakes'⟩ := Generator.exists_makes hxs
      have hsub : assigned.Sublist all := by
        rw [hmakes.named, Prod.mk.injEq] at hall
        rw [hall.1]
        exact List.sublist_append_left assigned more
      have hskipped : xs.length - (retained g.settings.idLimit xs).length ≤
          (xs ++ ys).length - (retained g.settings.idLimit (xs ++ ys)).length := by
        have hx := length_retained_le g.settings.idLimit xs
        have hy := length_retained_le g.settings.idLimit ys
        rw [retained_append, List.length_append, List.length_append]
        omega
      have hrecords := hsub.map Assignment.record
      refine ⟨first, hbuild', ?_, ?_, ?_, ?_, ?_, ?_⟩
      · rw [hmakes'.records, hmakes.records]
        exact sortById_sublist hrecords
      · rw [hmakes'.entriesRead, hmakes.entriesRead, List.length_append]
        exact Nat.le_add_right _ _
      · rw [hmakes'.reservedSkipped, hmakes.reservedSkipped]
        exact hskipped
      · rw [hmakes'.namesSuffixed, hmakes.namesSuffixed]
        exact hsub.countP_le
      · rw [hmakes'.namesTruncated, hmakes.namesTruncated]
        exact hsub.countP_le
      · rw [hmakes'.duplicateIds, hmakes.duplicateIds]
        exact Generator.duplicateIds_sublist hrecords
  · intro fault hbuild
    obtain ⟨assigned, refusal, hnamed, hfault⟩ := Generator.build_eq_error_iff.mp hbuild
    rcases hcases with ⟨assigned', refusal', hxs, hall⟩ | ⟨assigned', more, refusal', hxs, -⟩
    · rw [hnamed] at hxs
      exact Generator.build_eq_error_iff.mpr ⟨assigned, refusal, hxs ▸ hall, hfault⟩
    · rw [hnamed] at hxs
      simp at hxs

end PoolEnum
