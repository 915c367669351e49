import PoolEnum.Proofs.Table.Members

/-!
# PoolEnum.Proofs.Table.Entries

The language of string tables: a text is read as the entries `es` iff it writes
them.

Both ways go by the list of entries. An entry shows by its brackets where it
begins and ends, so one equivalence tells how it is read, whatever follows.
-/

namespace PoolEnum.Table

variable {cs rest w : List Char} {isFirst : Bool} {e : Entry} {es : List Entry}

/-! ## between items -/

/-- `readListNext` ends a list at its closing bracket, whether items were read or not. -/
theorem readListNext_eq_end_iff :
    readListNext isFirst cs = .ok (false, rest) ↔ ∃ z, Gap z ∧ cs = z ++ ']' :: rest := by
  rw [exists_gap_cons_iff (by decide), readListNext]
  cases skipGap cs with
  | nil => simp
  | cons c u => grind

/-- The text begins with something that is neither a blank nor the end of a
list. -/
def BeginsItem (cs : List Char) : Prop :=
  ∃ c u, cs = c :: u ∧ isGap c = false ∧ c ≠ ']'

/-- `readListNext` reaches the next item iff it stands behind a `Separator`. -/
theorem readListNext_eq_item_iff :
    readListNext isFirst cs = .ok (true, rest) ↔
      ∃ z a, Separator isFirst z ∧ Gap a ∧ BeginsItem rest ∧ cs = z ++ a ++ rest := by
  have hnext : readListNext isFirst cs = .ok (true, rest) ↔
      ∃ c u, rest = c :: u ∧ c ≠ ']' ∧
        if isFirst then skipGap cs = c :: u else ∃ v, skipGap cs = ',' :: v ∧ skipGap v = c :: u := by
    rw [readListNext]
    cases skipGap cs with
    | nil => simp
    | cons d v =>
        cases isFirst with
        | true => grind
        | false => grind
  simp only [hnext, ← separated_iff]
  constructor
  · intro h
    obtain ⟨c, u, rfl, hend, hgap, z, a, hz, ha, hcs⟩ := h
    exact ⟨z, a, hz, ha, ⟨c, u, rfl, hgap, hend⟩, hcs⟩
  · intro h
    obtain ⟨z, a, hz, ha, ⟨c, u, rfl, hgap, hend⟩, hcs⟩ := h
    exact ⟨c, u, rfl, hend, hgap, z, a, hz, ha, hcs⟩

/-! ## entries that are lists -/

/-- `readPairEnd` reads a closing bracket, with any `Gap` in front. -/
theorem readPairEnd_eq_ok_iff :
    readPairEnd cs = .ok rest ↔ ∃ z, Gap z ∧ cs = z ++ ']' :: rest := by
  rw [exists_gap_cons_iff (by decide), readPairEnd]
  cases skipGap cs with
  | nil => simp
  | cons c u =>
      by_cases hc : c = ']'
      · simp [hc]
      · simp only [hc, if_false, List.cons.injEq, false_and, iff_false]
        split
        · split <;> simp
        · simp

/-- An `IdText` `BeginsItem`: it begins with a digit. -/
theorem beginsItem_of_idText {id : UInt64} (h : IdText w id) (rest : List Char) :
    BeginsItem (w ++ rest) := by
  obtain ⟨c, cs, rfl, hc⟩ := h.1.exists_cons
  refine ⟨c, cs ++ rest, rfl, isGap_of_isDigit hc, ?_⟩
  exact fun h => by simp [h] at hc

theorem beginsItem_of_stringText {s : String} (h : StringText w s) (rest : List Char) :
    BeginsItem (w ++ rest) := by
  obtain ⟨content, _, rfl⟩ := h
  exact ⟨'"', _, rfl, by decide, by decide⟩

/-- `readPair` gives an entry iff the list holds its id and its text. -/
theorem readPair_eq_ok_iff :
    readPair cs = .ok (e, rest) ↔
      ∃ a i m c s z, Gap a ∧ IdText i e.id ∧ Gap m ∧ Gap c ∧ StringText s e.value ∧ Gap z ∧
        cs = a ++ i ++ m ++ ',' :: c ++ s ++ z ++ ']' :: rest := by
  constructor
  · intro h
    unfold readPair at h
    split at h
    · contradiction
    · contradiction
    next u hfirst =>
    split at h
    · contradiction
    next id v hid =>
    split at h
    · contradiction
    · contradiction
    next x hsecond =>
    split at h
    · contradiction
    next value y hvalue =>
    split at h
    · contradiction
    next t hend =>
    simp only [Except.ok.injEq, Prod.mk.injEq] at h
    obtain ⟨rfl, rfl⟩ := h
    obtain ⟨_, a, rfl, ha, _, hcs⟩ := readListNext_eq_item_iff.mp hfirst
    obtain ⟨a', i, ha', hi, _, hu⟩ := readId_eq_ok_iff.mp hid
    obtain ⟨_, c, ⟨m, hm, rfl⟩, hc, _, hv⟩ := readListNext_eq_item_iff.mp hsecond
    obtain ⟨c', s, hc', hs, hx⟩ := readValue_eq_ok_iff.mp hvalue
    obtain ⟨z, hz, hy⟩ := readPairEnd_eq_ok_iff.mp hend
    refine ⟨a ++ a', i, m, c ++ c', s, z, ha.append ha', hi, hm, hc.append hc', hs, hz, ?_⟩
    rw [hcs, hu, hv, hx, hy]
    simp only [List.append_assoc, List.cons_append, List.nil_append]
  · intro h
    obtain ⟨a, i, m, c, s, z, ha, hi, hm, hc, hs, hz, rfl⟩ := h
    have hfirst : readListNext true (a ++ i ++ m ++ ',' :: c ++ s ++ z ++ ']' :: rest) =
        .ok (true, i ++ (m ++ ',' :: c ++ s ++ z ++ ']' :: rest)) := by
      refine readListNext_eq_item_iff.mpr ⟨[], a, rfl, ha, beginsItem_of_idText hi _, ?_⟩
      simp only [List.append_assoc, List.cons_append, List.nil_append]
    have hid : readId (i ++ (m ++ ',' :: c ++ s ++ z ++ ']' :: rest)) =
        .ok (e.id, m ++ ',' :: c ++ s ++ z ++ ']' :: rest) := by
      refine readId_eq_ok_iff.mpr ⟨[], i, gap_nil, hi, ?_, rfl⟩
      simp only [List.append_assoc, List.cons_append]
      exact hm.endsNumber_append endsNumber_comma
    have hsecond : readListNext false (m ++ ',' :: c ++ s ++ z ++ ']' :: rest) =
        .ok (true, s ++ (z ++ ']' :: rest)) := by
      refine readListNext_eq_item_iff.mpr
        ⟨m ++ [','], c, ⟨m, hm, rfl⟩, hc, beginsItem_of_stringText hs _, ?_⟩
      simp only [List.append_assoc, List.cons_append, List.nil_append]
    have hvalue : readValue (s ++ (z ++ ']' :: rest)) = .ok (e.value, z ++ ']' :: rest) :=
      readValue_eq_ok_iff.mpr ⟨[], s, gap_nil, hs, rfl⟩
    have hend : readPairEnd (z ++ ']' :: rest) = .ok rest :=
      readPairEnd_eq_ok_iff.mpr ⟨z, hz, rfl⟩
    simp only [readPair, hfirst, hid, hsecond, hvalue, hend]

/-! ## entries -/

/-- `readEntry` gives the entries that `EntryText` describes. -/
theorem readEntry_eq_ok_iff :
    readEntry cs = .ok (e, rest) ↔ ∃ w, Spaced EntryText w e ∧ cs = w ++ rest := by
  constructor
  · intro h
    unfold readEntry at h
    split at h
    · next u hskip =>
      obtain ⟨_, a, ha, hcs⟩ := skipGap_eq_cons_iff.mp hskip
      obtain ⟨w, ms, hw, hi, hs, hfits, hu⟩ := readMembers_eq_ok_iff.mp h
      refine ⟨a ++ '{' :: w, ⟨a, '{' :: w, ha, .object hw hi hs hfits, rfl⟩, ?_⟩
      rw [hcs, hu, List.append_assoc, List.cons_append]
    · next u hskip =>
      obtain ⟨_, a, ha, hcs⟩ := skipGap_eq_cons_iff.mp hskip
      obtain ⟨b, i, m, c, s, z, hb, hi, hm, hc, hs, hz, hu⟩ := readPair_eq_ok_iff.mp h
      refine ⟨_, ⟨a, _, ha, .pair hb hi hm hc hs hz, rfl⟩, ?_⟩
      rw [hcs, hu]
      simp only [List.append_assoc, List.cons_append, List.nil_append]
    · contradiction
  · intro h
    obtain ⟨_, ⟨a, w, ha, hw, rfl⟩, rfl⟩ := h
    cases hw with
    | @object w ms e hw hi hs hfits =>
        have hskip : skipGap (a ++ '{' :: w ++ rest) = '{' :: (w ++ rest) := by
          rw [List.append_assoc, List.cons_append, skipGap_append_cons ha (by decide)]
        rw [readEntry, hskip]
        exact readMembers_eq_ok_iff.mpr ⟨w, ms, hw, hi, hs, hfits, rfl⟩
    | @pair b i m c s z id value hb hi hm hc hs hz =>
        simp only [List.append_assoc, List.cons_append, List.nil_append]
        rw [readEntry, skipGap_append_cons ha (by decide)]
        refine readPair_eq_ok_iff.mpr ⟨b, i, m, c, s, z, hb, hi, hm, hc, hs, hz, ?_⟩
        simp only [List.append_assoc, List.cons_append]

/-- An entry whose text needs no escapes can be written without any blanks. -/
theorem entryText_of_plain (e : Entry) (h : ∀ c ∈ e.value.toList, ' ' ≤ c ∧ c ≠ '"' ∧ c ≠ '\\') :
    EntryText (['{', '"', 'i', '"', ':'] ++ Nat.toDigits 10 e.id.toNat ++
      [',', '"', 's', 't', 'r', '"', ':', '"'] ++ e.value.toList ++ ['"', '}']) e := by
  have hid : MemberText _ { key := "i", value := Nat.toDigits 10 e.id.toNat } :=
    .mk gap_nil (stringText_of_plain (s := "i") (by simp)) gap_nil gap_nil
  have hvalue : MemberText _ { key := "str", value := '"' :: e.value.toList ++ ['"'] } :=
    .mk gap_nil (stringText_of_plain (s := "str") (by simp)) gap_nil gap_nil
  have hfits : ∀ m ∈ [⟨"i", Nat.toDigits 10 e.id.toNat⟩, ⟨"str", '"' :: e.value.toList ++ ['"']⟩],
      Member.Fits e m := by
    rw [List.forall_mem_cons, List.forall_mem_singleton]
    exact ⟨idText_iff.mpr rfl, stringText_of_plain h⟩
  have hobject := EntryText.object (.items hid (.more gap_nil hvalue (.close gap_nil))) rfl rfl hfits
  simpa using hobject

/-- An `EntryText` `BeginsItem`: it begins with a bracket or a brace. -/
theorem EntryText.beginsItem (h : EntryText w e) (rest : List Char) : BeginsItem (w ++ rest) := by
  cases h with
  | object => exact ⟨'{', _, rfl, by decide, by decide⟩
  | pair =>
      simp only [List.append_assoc, List.cons_append]
      exact ⟨'[', _, rfl, by decide, by decide⟩

/-! ## tables -/

/-- `readEntries` reads entry by entry, with `readEntry`. -/
theorem readEntries_eq :
    readEntries isFirst cs =
      match readListNext isFirst cs with
      | .error stop => .error stop
      | .ok (false, rest) => .ok ([], rest)
      | .ok (true, rest) =>
        match readEntry rest with
        | .error stop => .error stop
        | .ok (e, rest) =>
          match readEntries false rest with
          | .error stop => .error stop
          | .ok (es, rest) => .ok (e :: es, rest) := by
  rw [readEntries]
  split
  · next h => simp only [h]
  · next h => simp only [h]
  · next h =>
    simp only [h]
    split
    · next h => simp only [h]
    · next rest' h =>
      rcases hr : readEntries false rest' with stop | ⟨es, rest''⟩ <;> simp only [h, hr]

/-- `readEntries` at the end of the list. -/
theorem readEntries_of_end (h : readListNext isFirst cs = .ok (false, rest)) :
    readEntries isFirst cs = .ok ([], rest) := by
  rw [readEntries_eq, h]

theorem readEntries_of_entry {u v : List Char} (h : readListNext isFirst cs = .ok (true, u))
    (he : readEntry u = .ok (e, v)) (hes : readEntries false v = .ok (es, rest)) :
    readEntries isFirst cs = .ok (e :: es, rest) := by
  rw [readEntries_eq, h]
  simp only [he, hes]

/-- What `readEntries` reads `ItemsFrom` describes. -/
theorem itemsFrom_of_readEntries (h : readEntries isFirst cs = .ok (es, rest)) :
    ∃ w, ItemsFrom (Spaced EntryText) ']' isFirst w es ∧ cs = w ++ rest := by
  fun_induction readEntries isFirst cs generalizing es with
  | case1 => contradiction
  | case2 isFirst cs u hnext =>
      simp only [Except.ok.injEq, Prod.mk.injEq] at h
      obtain ⟨rfl, rfl⟩ := h
      obtain ⟨z, hz, hcs⟩ := readListNext_eq_end_iff.mp hnext
      refine ⟨z ++ [']'], itemsFrom_nil_iff.mpr ⟨z, hz, rfl⟩, ?_⟩
      rw [hcs, List.append_assoc, List.singleton_append]
  | case3 => contradiction
  | case4 => contradiction
  | case5 isFirst cs u hnext _ e v he _ es' t hes ih =>
      simp only [Except.ok.injEq, Prod.mk.injEq] at h
      obtain ⟨rfl, rfl⟩ := h
      obtain ⟨z, a, hz, ha, _, hcs⟩ := readListNext_eq_item_iff.mp hnext
      obtain ⟨x, ⟨a', y, ha', hy, hx⟩, hu⟩ := readEntry_eq_ok_iff.mp he
      obtain ⟨w, hw, hv⟩ := ih hes
      have hitem : Spaced EntryText (a ++ x) e :=
        ⟨a ++ a', y, ha.append ha', hy, by rw [hx, List.append_assoc]⟩
      refine ⟨z ++ (a ++ x) ++ w, itemsFrom_cons_iff.mpr ⟨z, a ++ x, w, hz, hitem, hw, rfl⟩, ?_⟩
      rw [hcs, hu, hv]
      simp only [List.append_assoc]

/-- What `ItemsFrom` describes `readEntries` reads. -/
theorem readEntries_of_itemsFrom (h : ItemsFrom (Spaced EntryText) ']' isFirst w es)
    (rest : List Char) : readEntries isFirst (w ++ rest) = .ok (es, rest) := by
  induction es generalizing isFirst w with
  | nil =>
      obtain ⟨z, hz, rfl⟩ := itemsFrom_nil_iff.mp h
      exact readEntries_of_end (readListNext_eq_end_iff.mpr ⟨z, hz, List.append_assoc ..⟩)
  | cons e es ih =>
      obtain ⟨z, u, t, hz, ⟨a, v, ha, hv, rfl⟩, ht, rfl⟩ := itemsFrom_cons_iff.mp h
      have hnext : readListNext isFirst (z ++ (a ++ v) ++ t ++ rest) =
          .ok (true, v ++ (t ++ rest)) := by
        refine readListNext_eq_item_iff.mpr ⟨z, a, hz, ha, hv.beginsItem _, ?_⟩
        simp only [List.append_assoc]
      have hentry : readEntry (v ++ (t ++ rest)) = .ok (e, t ++ rest) :=
        readEntry_eq_ok_iff.mpr ⟨v, ⟨[], v, gap_nil, hv, rfl⟩, rfl⟩
      exact readEntries_of_entry hnext hentry (ih ht)

/-- `readTable` gives the entries that `TableText` says the text writes. -/
theorem readTable_eq_ok_iff : readTable cs = .ok es ↔ TableText cs es := by
  constructor
  · intro h
    unfold readTable at h
    split at h
    · next u hskip =>
      obtain ⟨_, a, ha, hcs⟩ := skipGap_eq_cons_iff.mp hskip
      split at h
      · contradiction
      · next es' v hread =>
        split at h
        · next hend =>
          obtain ⟨w, hw, hu⟩ := itemsFrom_of_readEntries hread
          rw [Except.ok.inj h] at hw
          refine ⟨a, w, v, ha, hw, skipGap_eq_nil_iff.mp hend, ?_⟩
          rw [hcs, hu, List.append_assoc, List.cons_append]
        · contradiction
    · contradiction
  · intro h
    obtain ⟨a, body, z, ha, hbody, hz, rfl⟩ := h
    have hskip : skipGap (a ++ '[' :: body ++ z) = '[' :: (body ++ z) := by
      rw [List.append_assoc, List.cons_append, skipGap_append_cons ha (by decide)]
    have hfrom : ItemsFrom (Spaced EntryText) ']' true body es := hbody
    have hread : readEntries true (body ++ z) = .ok (es, z) := readEntries_of_itemsFrom hfrom z
    simp only [readTable, hskip, hread, skipGap_eq_nil_iff.mpr hz]

/-- A text writes one table at most. -/
theorem TableText.unique {es' : List Entry} (h : TableText w es) (h' : TableText w es') :
    es = es' := by
  rw [← readTable_eq_ok_iff] at h h'
  rw [h] at h'
  exact Except.ok.inj h'

/-- A text is parsed iff its characters are read by `readTable`. -/
theorem parseEntries_iff_readTable {text : String} :
    parseEntries text = .ok es ↔ readTable text.toList = .ok es := by
  rw [parseEntries]
  cases readTable text.toList with
  | error stop => simp
  | ok es' => simp

/-- `parseEntries` gives entries iff the text is a table that writes them, as `TableText` says. -/
theorem parseEntries_eq_ok_iff {text : String} :
    parseEntries text = .ok es ↔ TableText text.toList es := by
  rw [parseEntries_iff_readTable, readTable_eq_ok_iff]

end PoolEnum.Table
