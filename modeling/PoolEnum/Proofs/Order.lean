import Mathlib.Data.List.NodupEquivFin
import Mathlib.Data.List.Sort
import PoolEnum.Generation

/-!
# PoolEnum.Proofs.Order

The order of the records in a header.

`sortById` keeps the records it is given (`sortById_perm`), puts them in order
of their ids (`pairwise_sortById`), and leaves those of one id as they stood
(`filter_sortById`). These three fix it, and so it takes parts of a list to parts
of the sorted list (`sortById_sublist`). If the ids differ, it forgets the order the
records came in (`sortById_eq_of_perm`). `exists_place` follows every single
record: it says where each one goes.

Among sorted ids, `repeatedIds` finds those that stand twice or more
(`mem_repeatedIds_iff`), each once and in order (`pairwise_repeatedIds`).
-/

namespace PoolEnum

/-! ## comparing by a key -/

variable {α : Type}

/-- Ordering by a `key` is transitive, as sorting wants it. -/
theorem key_le_trans (key : α → UInt64) (a b c : α) (hab : decide (key a ≤ key b) = true)
    (hbc : decide (key b ≤ key c) = true) : decide (key a ≤ key c) = true := by
  rw [decide_eq_true_eq] at *
  exact UInt64.le_trans hab hbc

theorem key_le_total (key : α → UInt64) (a b : α) :
    (decide (key a ≤ key b) || decide (key b ≤ key a)) = true := by
  rw [Bool.or_eq_true, decide_eq_true_eq, decide_eq_true_eq]
  exact UInt64.le_total _ _

/-! ## the sort as a whole -/

/-- Every record is kept, and none is made up. -/
theorem sortById_perm (records : List Record) : (sortById records).Perm records :=
  List.mergeSort_perm records _

/-- The ids never go down. -/
theorem pairwise_sortById (records : List Record) :
    (sortById records).Pairwise fun a b => a.id ≤ b.id := by
  have h := List.pairwise_mergeSort (key_le_trans Record.id) (key_le_total Record.id) records
  simpa only [decide_eq_true_eq, sortById] using h

/-- The records of one id are those that had it, in the order they had. -/
theorem filter_sortById (records : List Record) (id : UInt64) :
    (sortById records).filter (fun r => r.id = id) = records.filter fun r => r.id = id := by
  have hsame : (records.filter fun r => r.id = id).Pairwise
      fun a b => decide (a.id ≤ b.id) = true := by
    apply List.pairwise_of_forall_mem_list
    intro a ha b hb
    simp only [List.mem_filter, decide_eq_true_eq] at ha hb ⊢
    rw [ha.2, hb.2]
    exact UInt64.le_refl id
  have hsub : (records.filter fun r => r.id = id).Sublist (sortById records) :=
    List.sublist_mergeSort (key_le_trans Record.id) (key_le_total Record.id) hsame
      List.filter_sublist
  have hfilter := hsub.filter fun r => r.id = id
  simp only [List.filter_filter, Bool.and_self] at hfilter
  exact (hfilter.eq_of_length ((sortById_perm records).filter _).length_eq.symm).symm

/-- Of two lists sorted by id, one is part of the other if it is for the records
of each single id. -/
theorem sublist_of_filter_sublist {l l' : List Record}
    (hl : l.Pairwise fun a b => a.id ≤ b.id) (hl' : l'.Pairwise fun a b => a.id ≤ b.id)
    (h : ∀ id, (l.filter fun r => r.id = id).Sublist (l'.filter fun r => r.id = id)) :
    l.Sublist l' := by
  induction l' generalizing l with
  | nil =>
      cases l with
      | nil => exact List.Sublist.slnil
      | cons a l => simpa using h a.id
  | cons b l' ih =>
      obtain ⟨hb, htail'⟩ := List.pairwise_cons.mp hl'
      have hself := h b.id
      rw [List.filter_cons_of_pos (by simp), List.sublist_cons_iff] at hself
      rcases hself with hself | ⟨rest, hclass, hrest⟩
      · refine (ih hl htail' ?_).cons b
        intro id
        by_cases hid : b.id = id
        · rwa [← hid]
        · simpa [hid] using h id
      · cases l with
        | nil => simp at hclass
        | cons a l =>
            obtain ⟨ha, htail⟩ := List.pairwise_cons.mp hl
            -- neither list begins with a greater id than the other
            have hid : a.id = b.id := by
              have hab : a ∈ b :: l' :=
                List.mem_of_mem_filter ((h a.id).subset (List.mem_filter.mpr ⟨by simp, by simp⟩))
              have hba : b ∈ a :: l := List.mem_of_mem_filter (hclass ▸ List.mem_cons_self)
              grind
            rw [List.filter_cons_of_pos (by simpa using hid), List.cons.injEq] at hclass
            obtain ⟨rfl, hclass⟩ := hclass
            refine (ih htail htail' ?_).cons_cons a
            intro id
            by_cases hid : a.id = id
            · rwa [← hid, hclass]
            · simpa [hid] using h id

/-- The records of a part of a list are part of its records. -/
theorem sortById_sublist {records records' : List Record} (h : records.Sublist records') :
    (sortById records).Sublist (sortById records') := by
  apply sublist_of_filter_sublist (pairwise_sortById _) (pairwise_sortById _)
  intro id
  rw [filter_sortById, filter_sortById]
  exact h.filter _

/-- If no two records have the same id, the order they come in does not matter. -/
theorem sortById_eq_of_perm {records records' : List Record} (h : records.Perm records')
    (hnodup : (records.map Record.id).Nodup) : sortById records = sortById records' := by
  have hperm : (sortById records).Perm (sortById records') :=
    (sortById_perm records).trans (h.trans (sortById_perm records').symm)
  refine hperm.eq_of_pairwise ?_ (pairwise_sortById records) (pairwise_sortById records')
  intro a b ha hb hab hba
  have hmem : b ∈ records := h.mem_iff.mpr ((sortById_perm records').mem_iff.mp hb)
  exact List.inj_on_of_nodup_map hnodup ((sortById_perm records).mem_iff.mp ha) hmem
    (UInt64.le_antisymm hab hba)

/-! ## the place of each record -/

/-- Sorting the numbers of the records by the ids they stand for sorts the
records. -/
def sortedNumbers (records : List Record) : List (Fin records.length) :=
  (List.finRange records.length).mergeSort fun j k => (records.get j).id ≤ (records.get k).id

/-- `sortedNumbers` tell where the records are that `sortById` puts in order. -/
theorem map_sortedNumbers (records : List Record) :
    (sortedNumbers records).map records.get = sortById records := by
  rw [sortedNumbers, List.map_mergeSort (s := fun a b : Record => decide (a.id ≤ b.id))
    (fun _ _ _ _ => rfl), sortById]
  congr 1
  apply List.ext_getElem <;> simp

/-- `sortedNumbers` are the numbers of all records, each once. -/
theorem sortedNumbers_perm (records : List Record) :
    (sortedNumbers records).Perm (List.finRange records.length) :=
  List.mergeSort_perm _ _

/-- Of two records with one id, the one that stood first comes first. -/
theorem pair_sublist_sortedNumbers {records : List Record} {j k : Fin records.length}
    (hlt : j < k) (hid : (records.get j).id = (records.get k).id) :
    [j, k].Sublist (sortedNumbers records) := by
  have hsub : [j, k].Sublist (List.finRange records.length) := by
    apply List.sublist_of_subperm_of_pairwise (r := (· < ·))
    · exact List.subperm_of_subset (by simp [Fin.ne_of_lt hlt]) (by simp)
    · simpa using hlt
    · exact List.pairwise_lt_finRange _
  have hle : decide ((records.get j).id ≤ (records.get k).id) = true := by
    rw [decide_eq_true_eq, hid]
    exact UInt64.le_refl _
  let key : Fin records.length → UInt64 := fun i => (records.get i).id
  exact List.pair_sublist_mergeSort (key_le_trans key) (key_le_total key) hle hsub

/-- Where each record goes when they are sorted: every place is taken by one
record, and records of one id keep their order. -/
theorem exists_place (records : List Record) :
    ∃ place : Fin records.length ≃ Fin (sortById records).length,
      (∀ k, (sortById records).get (place k) = records.get k) ∧
        ∀ j k, (records.get j).id = (records.get k).id → (place j < place k ↔ j < k) := by
  have hnodup : (sortedNumbers records).Nodup :=
    (sortedNumbers_perm records).nodup_iff.mpr (List.nodup_finRange _)
  have hmem : ∀ k, k ∈ sortedNumbers records :=
    fun k => (sortedNumbers_perm records).mem_iff.mpr (List.mem_finRange k)
  have hlength : (sortedNumbers records).length = (sortById records).length := by
    rw [← map_sortedNumbers, List.length_map]
  let number := hnodup.getEquivOfForallMemList _ hmem
  have hnumber : ∀ i, number i = (sortedNumbers records).get i := fun _ => rfl
  have hbefore : ∀ j k, (records.get j).id = (records.get k).id → j < k →
      number.symm j < number.symm k := by
    intro j k hid hlt
    obtain ⟨f, hf⟩ := List.sublist_iff_exists_fin_orderEmbedding_get_eq.mp
      (pair_sublist_sortedNumbers hlt hid)
    have hj : number.symm j = f ⟨0, by simp⟩ := by
      rw [Equiv.symm_apply_eq, hnumber, ← hf]
      rfl
    have hk : number.symm k = f ⟨1, by simp⟩ := by
      rw [Equiv.symm_apply_eq, hnumber, ← hf]
      rfl
    rw [hj, hk]
    exact f.strictMono (Fin.mk_lt_mk.mpr Nat.zero_lt_one)
  refine ⟨number.symm.trans (finCongr hlength), ?_, ?_⟩
  · intro k
    have hget : (sortedNumbers records).get (number.symm k) = k := by
      rw [← hnumber, Equiv.apply_symm_apply]
    have hrecord := congrArg records.get hget
    simpa [← map_sortedNumbers] using hrecord
  · intro j k hid
    rcases lt_trichotomy j k with hlt | heq | hgt
    · exact iff_of_true (hbefore j k hid hlt) hlt
    · rw [heq]
      exact iff_of_false (lt_irrefl _) (lt_irrefl _)
    · exact iff_of_false (lt_asymm (hbefore k j hid.symm hgt)) (lt_asymm hgt)

/-! ## the ids that repeat -/

section

variable {reported : Option UInt64} {ids : List UInt64}

/-- Among sorted ids, one that differs from the next differs from all behind it. -/
theorem not_mem_of_ne_next {a b : UInt64} (hsorted : (a :: b :: ids).Pairwise (· ≤ ·))
    (hne : a ≠ b) : a ∉ b :: ids := by
  obtain ⟨ha, htail⟩ := List.pairwise_cons.mp hsorted
  obtain ⟨hb, -⟩ := List.pairwise_cons.mp htail
  intro hmem
  cases List.mem_cons.mp hmem with
  | inl heq => exact hne heq
  | inr hmem => exact hne (UInt64.le_antisymm (ha b List.mem_cons_self) (hb a hmem))

/-- Among sorted ids, one behind the first that is not equal to it was not reported, since
none of them is less than what was. -/
theorem reported_ne_of_mem {a id : UInt64} (hsorted : (a :: ids).Pairwise (· ≤ ·))
    (hreported : ∀ r, reported = some r → ∀ c ∈ a :: ids, r ≤ c) (hmem : id ∈ ids)
    (hne : id ≠ a) : reported ≠ some id := by
  obtain ⟨ha, -⟩ := List.pairwise_cons.mp hsorted
  intro heq
  exact hne (UInt64.le_antisymm (hreported id heq a List.mem_cons_self) (ha id hmem))

/-- Among sorted ids, those are found that stand twice or more, but for the one
that was reported already. None of the ids is less than that one. -/
theorem mem_repeatedIds_iff (hsorted : ids.Pairwise (· ≤ ·))
    (hreported : ∀ r, reported = some r → ∀ a ∈ ids, r ≤ a) {id : UInt64} :
    id ∈ repeatedIds reported ids ↔ 2 ≤ ids.count id ∧ reported ≠ some id := by
  fun_induction repeatedIds reported ids with
  | case1 reported a b ids h ih =>
      obtain ⟨rfl, hnew⟩ := h
      obtain ⟨ha, htail⟩ := List.pairwise_cons.mp hsorted
      rw [List.mem_cons, ih htail (by rintro r ⟨⟩; exact ha)]
      by_cases hid : id = a
      · simp [hid, hnew]
      · have hpast : 2 ≤ (a :: ids).count id → reported ≠ some id := fun htwice =>
          reported_ne_of_mem hsorted hreported (List.count_pos_iff.mp (by omega)) hid
        have hne : some a ≠ some id := fun heq => hid (Option.some.inj heq).symm
        rw [List.count_cons_of_ne (Ne.symm hid) (l := a :: ids)]
        simp only [hid, hne, false_or, ne_eq, not_false_eq_true, and_true]
        exact ⟨fun htwice => ⟨htwice, hpast htwice⟩, And.left⟩
  | case2 reported a b ids h ih =>
      obtain ⟨-, htail⟩ := List.pairwise_cons.mp hsorted
      rw [ih htail fun r hr c hc => hreported r hr c (List.mem_cons_of_mem a hc)]
      by_cases hid : id = a
      · subst hid
        by_cases hb : id = b
        · subst hb
          simp [show reported = some id by simpa using h]
        · simp [List.count_eq_zero_of_not_mem (not_mem_of_ne_next hsorted hb)]
      · rw [List.count_cons_of_ne (Ne.symm hid)]
  | case3 ids reported h =>
      -- fewer than two ids: there is no pair of neighbours
      have honce : ids.count id ≤ 1 := by
        match ids with
        | [] => exact Nat.zero_le 1
        | [a] => exact List.count_le_length
        | a :: b :: ids => exact absurd rfl (h a b ids)
      exact iff_of_false List.not_mem_nil fun htwice => absurd htwice.1 (by omega)

/-- The ids that are found ascend, and each stands there once. -/
theorem pairwise_repeatedIds (hsorted : ids.Pairwise (· ≤ ·))
    (hreported : ∀ r, reported = some r → ∀ a ∈ ids, r ≤ a) :
    (repeatedIds reported ids).Pairwise (· < ·) := by
  fun_induction repeatedIds reported ids with
  | case1 reported a b ids h ih =>
      obtain ⟨rfl, -⟩ := h
      obtain ⟨ha, htail⟩ := List.pairwise_cons.mp hsorted
      have hleast : ∀ r, some a = some r → ∀ c ∈ a :: ids, r ≤ c := by
        rintro r ⟨⟩
        exact ha
      refine List.pairwise_cons.mpr ⟨?_, ih htail hleast⟩
      intro id hid
      obtain ⟨htwice, hne⟩ := (mem_repeatedIds_iff htail hleast).mp hid
      have hmem : id ∈ a :: ids := List.count_pos_iff.mp (by omega)
      exact UInt64.lt_of_le_of_ne (ha id hmem) fun h => hne (congrArg some h)
  | case2 reported a b ids h ih =>
      obtain ⟨-, htail⟩ := List.pairwise_cons.mp hsorted
      exact ih htail fun r hr c hc => hreported r hr c (List.mem_cons_of_mem a hc)
  | case3 => exact List.Pairwise.nil

end

namespace Generator

/-- `sortById` leaves ids in ascending order. -/
theorem pairwise_map_id_sortById (records : List Record) :
    ((sortById records).map Record.id).Pairwise (· ≤ ·) :=
  List.pairwise_map.mpr (pairwise_sortById records)

/-- The ids reported of sorted records are those of two records or more. -/
theorem mem_duplicateIds_iff {records : List Record} {id : UInt64} :
    id ∈ duplicateIds (sortById records) ↔ 2 ≤ (records.map Record.id).count id := by
  rw [duplicateIds, mem_repeatedIds_iff (pairwise_map_id_sortById records) (by simp),
    ((sortById_perm records).map Record.id).count_eq]
  simp

/-- `duplicateIds` ascend strictly. -/
theorem pairwise_duplicateIds (records : List Record) :
    (duplicateIds (sortById records)).Pairwise (· < ·) :=
  pairwise_repeatedIds (pairwise_map_id_sortById records) (by simp)

/-- What is reported of a part of the records is part of what is reported of them. -/
theorem duplicateIds_sublist {records records' : List Record} (h : records.Sublist records') :
    (duplicateIds (sortById records)).Sublist (duplicateIds (sortById records')) := by
  have hsub : duplicateIds (sortById records) ⊆ duplicateIds (sortById records') := by
    intro id hid
    rw [mem_duplicateIds_iff] at hid ⊢
    exact Nat.le_trans hid ((h.map Record.id).count_le id)
  have hnodup : (duplicateIds (sortById records)).Nodup :=
    (pairwise_duplicateIds records).imp fun hlt => UInt64.ne_of_lt hlt
  exact List.sublist_of_subperm_of_pairwise (List.subperm_of_subset hnodup hsub)
    (pairwise_duplicateIds records) (pairwise_duplicateIds records')

end Generator

end PoolEnum
