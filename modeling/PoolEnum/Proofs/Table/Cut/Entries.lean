import PoolEnum.Proofs.Table.Cut.Members
import PoolEnum.Proofs.Table.Entries

/-!
# PoolEnum.Proofs.Table.Cut.Entries

Tables of which only the front is there.

A table without its closing bracket is never read. Where it is cut decides what is
complained about: a number that is refused if the cut divides one behind a mark in
the value of a member that an entry does not have (`BreaksTable`), and else the end
of the text.
-/

namespace PoolEnum.Table

variable {P : Cause → Prop} {cs u v w front back rest : List Char} {isFirst : Bool} {e : Entry}
  {es : List Entry}

/-! ## between items -/

/-- A `Gap` where an item or the end of a list has to follow is `CutOff`. -/
theorem Gap.cutOff_readListNext (h : Gap cs) : CutOff (readListNext isFirst cs) := by
  rw [readListNext, skipGap_eq_nil_iff.mpr h]
  exact .of_error rfl

/-- The front of what `BeginsItem` does so too, if there is any. -/
theorem BeginsItem.of_append (h : BeginsItem (front ++ back)) (hfront : front ≠ []) :
    BeginsItem front := by
  obtain ⟨c, r, rfl⟩ := List.exists_cons_of_ne_nil hfront
  obtain ⟨d, t, heq, hgap, hd⟩ := h
  obtain ⟨rfl, -⟩ := List.cons.inj heq
  exact ⟨c, r, rfl, hgap, hd⟩

/-- In front of an item `readListNext` is `CutOff`, or the front of the item is reached. -/
theorem readListNext_front {z a t : List Char} (hz : Separator isFirst z) (ha : Gap a)
    (ht : BeginsItem t) (h : z ++ a ++ t = front ++ back) :
    CutOff (readListNext isFirst front) ∨
      ∃ r, front = z ++ a ++ r ∧ t = r ++ back ∧ readListNext isFirst front = .ok (true, r) := by
  have hend {x y : List Char} (hx : z ++ a = x ++ y) : CutOff (readListNext isFirst x) := by
    rcases separator_front hz ha hx with hgap | ⟨rfl, g, g', hg, hg', rfl⟩
    · exact hgap.cutOff_readListNext
    · rw [readListNext, skipGap_append_cons hg (by decide)]
      simp only [skipGap_eq_nil_iff.mpr hg']
      exact .of_error rfl
  rcases cut_cases h with ⟨r, rfl, rfl⟩ | ⟨y, -, hy, -⟩
  · by_cases hr : r = []
    · rw [hr]
      exact .inl (hend (y := []) (by simp))
    · refine .inr ⟨r, rfl, rfl, readListNext_eq_item_iff.mpr ⟨z, a, hz, ha, ?_, rfl⟩⟩
      exact ht.of_append hr
  · exact .inl (hend hy)

/-! ## entries that are lists -/

/-- A `Gap` where the end of a list has to follow is `CutOff`. -/
theorem Gap.cutOff_readPairEnd (h : Gap cs) : CutOff (readPairEnd cs) := by
  rw [readPairEnd, skipGap_eq_nil_iff.mpr h]
  exact .of_error rfl

section

variable {id : UInt64} {value : String}

/-- What stops `readListNext` in front of the id stops `readPair`. -/
theorem stopsFor_readPair_first (h : StopsFor P (readListNext true cs)) :
    StopsFor P (readPair cs) :=
  h.imp fun stop hstop => by simp only [readPair, hstop]

theorem stopsFor_readPair_id (hfirst : readListNext true cs = .ok (true, u))
    (h : StopsFor P (readId u)) : StopsFor P (readPair cs) :=
  h.imp fun stop hstop => by simp only [readPair, hfirst, hstop]

theorem stopsFor_readPair_second (hfirst : readListNext true cs = .ok (true, u))
    (hid : readId u = .ok (id, v)) (h : StopsFor P (readListNext false v)) :
    StopsFor P (readPair cs) :=
  h.imp fun stop hstop => by simp only [readPair, hfirst, hid, hstop]

theorem stopsFor_readPair_value (hfirst : readListNext true cs = .ok (true, u))
    (hid : readId u = .ok (id, v)) (hsecond : readListNext false v = .ok (true, w))
    (h : StopsFor P (readValue w)) : StopsFor P (readPair cs) :=
  h.imp fun stop hstop => by simp only [readPair, hfirst, hid, hsecond, hstop]

theorem stopsFor_readPair_end (hfirst : readListNext true cs = .ok (true, u))
    (hid : readId u = .ok (id, v)) (hsecond : readListNext false v = .ok (true, w))
    (hvalue : readValue w = .ok (value, rest)) (h : StopsFor P (readPairEnd rest)) :
    StopsFor P (readPair cs) :=
  h.imp fun stop hstop => by simp only [readPair, hfirst, hid, hsecond, hvalue, hstop]

/-- The front of a list of an id and a text is `CutOff`. -/
theorem cutOff_readPair {a i m c s z : List Char} (ha : Gap a) (hi : IdText i id) (hm : Gap m)
    (hc : Gap c) (hs : StringText s value) (hz : Gap z)
    (h : a ++ (i ++ (m ++ ',' :: (c ++ (s ++ (z ++ [']']))))) = front ++ back) (hback : back ≠ []) :
    CutOff (readPair front) := by
  have hfirst : Separator true [] := rfl
  have hbegins := beginsItem_of_idText hi (m ++ ',' :: (c ++ (s ++ (z ++ [']']))))
  rcases readListNext_front hfirst ha hbegins h with hend | ⟨x, rfl, hx, hfirst⟩
  · exact stopsFor_readPair_first hend
  rcases cut_cases hx with ⟨y, rfl, hy⟩ | ⟨v, -, rfl, -⟩
  · have hnumber : EndsNumber y := by
      have hwhole : EndsNumber (y ++ back) := hy ▸ hm.endsNumber_append endsNumber_comma
      exact hwhole.of_append
    have hid : readId (i ++ y) = .ok (id, y) :=
      readId_eq_ok_iff.mpr ⟨[], i, gap_nil, hi, hnumber, rfl⟩
    have hsep : Separator false (m ++ [',']) := ⟨m, hm, rfl⟩
    have hy : m ++ [','] ++ c ++ (s ++ (z ++ [']'])) = y ++ back := by simpa using hy
    have hbegins := beginsItem_of_stringText hs (z ++ [']'])
    rcases readListNext_front hsep hc hbegins hy with hend | ⟨t, -, ht, hsecond⟩
    · exact stopsFor_readPair_second hfirst hid hend
    rcases cut_cases ht with ⟨r, rfl, hr⟩ | ⟨v, hv, rfl, -⟩
    · have hvalue : readValue (s ++ r) = .ok (value, r) :=
        readValue_eq_ok_iff.mpr ⟨[], s, gap_nil, hs, rfl⟩
      obtain ⟨v, rfl⟩ := cut_before_last hr hback
      exact stopsFor_readPair_end hfirst hid hsecond hvalue hz.of_append_left.cutOff_readPairEnd
    · exact stopsFor_readPair_value hfirst hid hsecond (hs.cutOff gap_nil rfl hv)
  · rcases hi.cut gap_nil (List.nil_append (x ++ v)) with hend | ⟨id', hid⟩
    · exact stopsFor_readPair_id hfirst hend
    · exact stopsFor_readPair_second hfirst hid gap_nil.cutOff_readListNext

end

/-! ## entries -/

/-- An entry, with the blanks in front of it, that is cut behind a mark of a number
in the value of a member which entries do not have. -/
def BreaksEntry (front back : List Char) (e : Entry) : Prop :=
  ∃ a m ms, Gap a ∧ BreaksItem MemberText BreaksMember '}' true m back ms ∧ countKey "i" ms = 1 ∧
    countKey "str" ms = 1 ∧ (∀ m ∈ ms, m.Fits e) ∧ front = a ++ '{' :: m

/-- Where an entry is wanted, a `Gap` alone is `CutOff`. -/
theorem Gap.cutOff_readEntry (h : Gap cs) : CutOff (readEntry cs) := by
  rw [readEntry, skipGap_eq_nil_iff.mpr h]
  exact .of_error rfl

/-- What stops the members of an object stops `readEntry`. -/
theorem stopsFor_readEntry_object (h : skipGap cs = '{' :: u)
    (hstop : StopsFor P (readMembers true { id := none, value := none } u)) :
    StopsFor P (readEntry cs) :=
  hstop.imp fun stop hstop => by simp only [readEntry, h, hstop]

theorem stopsFor_readEntry_list (h : skipGap cs = '[' :: u) (hstop : StopsFor P (readPair u)) :
    StopsFor P (readEntry cs) :=
  hstop.imp fun stop hstop => by simp only [readEntry, h, hstop]

/-- Members with each field once, which all fit, make a whole entry by `Draft.Reads`. -/
theorem reads_of_counts {ms : List Member} (hi : countKey "i" ms = 1)
    (hs : countKey "str" ms = 1) (hfits : ∀ m ∈ ms, m.Fits e) :
    Draft.Reads { id := none, value := none } ms (.whole e) :=
  reads_whole_iff.mpr ⟨.inl ⟨rfl, hi⟩, .inl ⟨rfl, hs⟩, hfits⟩

/-- The front of an entry is `CutShort`, which a number of another member is only behind a mark. -/
theorem readEntry_cut (hw : EntryText w e) (h : w = front ++ back) (hback : back ≠ []) :
    CutShort (BreaksEntry front back e) (readEntry front) := by
  cases hw with
  | @object w ms e hw hi hs hfits =>
      rcases cut_cons h with rfl | ⟨r, rfl, hr⟩
      · exact gap_nil.cutOff_readEntry.cutShort
      · have hskip : skipGap ('{' :: r) = '{' :: r := skipGap_cons (by decide) r
        have hfrom : ItemsFrom MemberText '}' true w ms := hw
        have hcut := readMembers_cut hfrom (reads_of_counts hi hs hfits) hr hback
        refine hcut.imp (fun h => ?_) fun _ hstop => stopsFor_readEntry_object hskip hstop
        exact ⟨[], r, ms, gap_nil, h, hi, hs, hfits, rfl⟩
  | @pair a i m c s z id value ha hi hm hc hs hz =>
      simp only [List.append_assoc, List.cons_append] at h
      rcases cut_cons h with rfl | ⟨r, rfl, hr⟩
      · exact gap_nil.cutOff_readEntry.cutShort
      · have hskip : skipGap ('[' :: r) = '[' :: r := skipGap_cons (by decide) r
        have hpair : CutOff (readPair r) := cutOff_readPair ha hi hm hc hs hz hr hback
        exact CutOff.cutShort (stopsFor_readEntry_list hskip hpair)

/-- Where a cut `BreaksEntry`, `readEntry` is `NumberRefused`. -/
theorem BreaksEntry.refused (h : BreaksEntry front back e) : NumberRefused (readEntry front) := by
  obtain ⟨a, m, ms, ha, hbreaks, hi, hs, hfits, rfl⟩ := h
  refine stopsFor_readEntry_object (skipGap_append_cons ha (by decide) m) ?_
  exact hbreaks.refused_readMembers (reads_of_counts hi hs hfits)

/-! ## tables -/

/-- What stops `readListNext` stops `readEntries`. -/
theorem stopsFor_readEntries_next (h : StopsFor P (readListNext isFirst cs)) :
    StopsFor P (readEntries isFirst cs) :=
  h.imp fun stop hstop => by rw [readEntries_eq, hstop]

theorem stopsFor_readEntries_entry (hnext : readListNext isFirst cs = .ok (true, u))
    (h : StopsFor P (readEntry u)) : StopsFor P (readEntries isFirst cs) :=
  h.imp fun stop hstop => by
    rw [readEntries_eq, hnext]
    simp only [hstop]

theorem stopsFor_readEntries_rest (hnext : readListNext isFirst cs = .ok (true, u))
    (hentry : readEntry u = .ok (e, v)) (h : StopsFor P (readEntries false v)) :
    StopsFor P (readEntries isFirst cs) :=
  h.imp fun stop hstop => by
    rw [readEntries_eq, hnext]
    simp only [hentry, hstop]

/-- The front of the entries of a table is `CutShort`, which a number is only behind a mark in a
member that entries do not have. -/
theorem readEntries_cut (hw : ItemsFrom (Spaced EntryText) ']' isFirst w es)
    (h : w = front ++ back) (hback : back ≠ []) :
    CutShort (BreaksItem (Spaced EntryText) BreaksEntry ']' isFirst front back es)
      (readEntries isFirst front) := by
  induction es generalizing isFirst w front with
  | nil =>
      obtain ⟨z, hz, rfl⟩ := itemsFrom_nil_iff.mp hw
      obtain ⟨x, rfl⟩ := cut_before_last h hback
      exact CutOff.cutShort (stopsFor_readEntries_next hz.of_append_left.cutOff_readListNext)
  | cons e es ih =>
      obtain ⟨z, u, t, hz, ⟨a, v, ha, hv, rfl⟩, ht, rfl⟩ := itemsFrom_cons_iff.mp hw
      have h : z ++ a ++ (v ++ t) = front ++ back := by simpa using h
      rcases readListNext_front hz ha (hv.beginsItem t) h with hend | ⟨r, rfl, hr, hnext⟩
      · exact CutOff.cutShort (stopsFor_readEntries_next hend)
      rcases cut_cases hr with ⟨x, rfl, rfl⟩ | ⟨y, hy, rfl, rfl⟩
      · have hentry : readEntry (v ++ x) = .ok (e, x) :=
          readEntry_eq_ok_iff.mpr ⟨v, ⟨[], v, gap_nil, hv, rfl⟩, rfl⟩
        have hrest : ItemsFrom (Spaced EntryText) ']' false (x ++ back) es := ht
        refine (ih hrest rfl).imp (fun h => ?_) fun _ hstop =>
          stopsFor_readEntries_rest hnext hentry hstop
        have hspaced : Spaced EntryText (a ++ v) e := ⟨a, v, ha, hv, rfl⟩
        have hpast := BreaksItem.pastItem hz hspaced h
        simp only [List.append_assoc] at hpast ⊢
        exact hpast
      · have hcut := readEntry_cut hv rfl hy
        refine hcut.imp ?_ fun _ hstop => stopsFor_readEntries_entry hnext hstop
        rintro ⟨b, m, ms, hb, hbreaks, hi, hs, hfits, rfl⟩
        have hentry : BreaksEntry (a ++ (b ++ '{' :: m)) y e :=
          ⟨a ++ b, m, ms, ha.append hb, hbreaks, hi, hs, hfits, by simp⟩
        rw [List.append_assoc]
        exact .inItem hz hentry ht

/-- Where a cut `BreaksEntry`, `readEntries` is `NumberRefused`. -/
theorem BreaksItem.refused_readEntries
    (h : BreaksItem (Spaced EntryText) BreaksEntry ']' isFirst front back es) :
    NumberRefused (readEntries isFirst front) := by
  induction h with
  | @inItem isFirst z m v t e _ hz hentry _ =>
      obtain ⟨a, n, ms, ha, hbreaks, hi, hs, hfits, rfl⟩ := hentry
      have hbegins : BeginsItem ('{' :: n) := ⟨'{', n, rfl, by decide, by decide⟩
      have hnext : readListNext isFirst (z ++ (a ++ '{' :: n)) = .ok (true, '{' :: n) :=
        readListNext_eq_item_iff.mpr ⟨z, a, hz, ha, hbegins, (List.append_assoc ..).symm⟩
      have hentry : BreaksEntry ('{' :: n) v e := ⟨[], n, ms, gap_nil, hbreaks, hi, hs, hfits, rfl⟩
      exact stopsFor_readEntries_entry hnext hentry.refused
  | @pastItem isFirst z u m v e _ hz hu _ ih =>
      obtain ⟨a, x, ha, hx, rfl⟩ := hu
      have hnext : readListNext isFirst (z ++ (a ++ x) ++ m) = .ok (true, x ++ m) :=
        readListNext_eq_item_iff.mpr ⟨z, a, hz, ha, hx.beginsItem m, by simp⟩
      have hentry : readEntry (x ++ m) = .ok (e, m) :=
        readEntry_eq_ok_iff.mpr ⟨x, ⟨[], x, gap_nil, hx, rfl⟩, rfl⟩
      exact stopsFor_readEntries_rest hnext hentry ih

/-- A table that is cut behind a mark of a number in the value of a member which
entries do not have. -/
def BreaksTable (front back : List Char) : Prop :=
  ∃ a m v z es, Gap a ∧ BreaksItem (Spaced EntryText) BreaksEntry ']' true m v es ∧ Gap z ∧
    front = a ++ '[' :: m ∧ back = v ++ z

/-- A cut behind the closing bracket of a table, where only blanks are cut off. -/
def CutsBlanks (front back : List Char) : Prop :=
  Gap back ∧ ∃ u z, Gap z ∧ front = u ++ ']' :: z

/-- `ItemsAfter` end in the closing bracket. -/
theorem ItemsAfter.exists_last {α : Type} {Q : List Char → α → Prop} {close : Char} {xs : List α}
    (h : ItemsAfter Q close w xs) : ∃ u, w = u ++ [close] := by
  induction h with
  | close _ => exact ⟨_, rfl⟩
  | more _ _ _ ih =>
      obtain ⟨u, rfl⟩ := ih
      exact ⟨_, (List.append_assoc ..).symm⟩

theorem ItemsInside.exists_last {α : Type} {Q : List Char → α → Prop} {close : Char} {xs : List α}
    (h : ItemsInside Q close w xs) : ∃ u, w = u ++ [close] := by
  cases h with
  | empty _ => exact ⟨_, rfl⟩
  | items _ ht =>
      obtain ⟨u, rfl⟩ := ht.exists_last
      exact ⟨_, (List.append_assoc ..).symm⟩

/-- What stops `readEntries` stops `readTable`. -/
theorem stopsFor_readTable_entries (h : skipGap cs = '[' :: u)
    (hstop : StopsFor P (readEntries true u)) : StopsFor P (readTable cs) :=
  hstop.imp fun stop hstop => by simp only [readTable, h, hstop]

/-- A `Gap` alone is `CutOff` where a table is wanted. -/
theorem Gap.cutOff_readTable (h : Gap cs) : CutOff (readTable cs) := by
  rw [readTable, skipGap_eq_nil_iff.mpr h]
  exact .of_error rfl

/-- The front of a `TableText` is a table itself if only blanks are cut off, and else it is
`CutShort`. -/
theorem TableText.cut (h : TableText (front ++ back) es) :
    CutsBlanks front back ∧ TableText front es ∨
      ¬ CutsBlanks front back ∧ CutShort (BreaksTable front back) (readTable front) := by
  obtain ⟨a, body, z, ha, hbody, hz, h⟩ := h
  obtain ⟨u, hlast⟩ := hbody.exists_last
  rw [List.append_assoc, List.cons_append] at h
  rcases cut_at h.symm with ⟨x, rfl, hx⟩ | ⟨v, rfl, rfl⟩
  · rcases cut_cases hx with ⟨y, rfl, rfl⟩ | ⟨v, hv, rfl, rfl⟩
    · refine .inl ⟨⟨?_, a ++ '[' :: u, y, hz.of_append_left, by simp [hlast]⟩, ?_⟩
      · exact fun c hc => hz c (List.mem_append_right y hc)
      · exact ⟨a, body, y, ha, hbody, hz.of_append_left, by simp⟩
    · refine .inr ⟨fun hblanks => ?_, ?_⟩
      · obtain ⟨w, c, rfl⟩ : ∃ w c, v = w ++ [c] :=
          ⟨_, _, (List.dropLast_concat_getLast hv).symm⟩
        rw [← List.append_assoc, List.append_singleton_inj] at hlast
        have hblank := isGap_iff.mpr (hblanks.1 c (by simp))
        rw [hlast.2] at hblank
        exact absurd hblank (by decide)
      · have hskip : skipGap (a ++ '[' :: x) = '[' :: x := skipGap_append_cons ha (by decide) x
        have hfrom : ItemsFrom (Spaced EntryText) ']' true (x ++ v) es := hbody
        refine (readEntries_cut hfrom rfl hv).imp (fun h => ?_) fun _ hstop =>
          stopsFor_readTable_entries hskip hstop
        exact ⟨a, x, v, z, es, ha, h, hz, rfl, rfl⟩
  · refine .inr ⟨fun hblanks => ?_, ha.of_append_left.cutOff_readTable.cutShort⟩
    have hblank := isGap_iff.mpr (hblanks.1 '[' (by simp))
    exact absurd hblank (by decide)

/-- Where a cut `BreaksTable`, `readTable` is `NumberRefused`. -/
theorem BreaksTable.refused (h : BreaksTable front back) : NumberRefused (readTable front) := by
  obtain ⟨a, m, v, z, es, ha, hbreaks, -, rfl, -⟩ := h
  refine stopsFor_readTable_entries (skipGap_append_cons ha (by decide) m) ?_
  exact hbreaks.refused_readEntries

/-- The front of a table is the table if only blanks are cut off from behind its end (`CutsBlanks`).
Else `parseEntries` fails: at a number that a cut behind a mark leaves without digits if that stands
in the value of a member which entries do not have (`BreaksTable`), and everywhere else at the end
of the text. -/
theorem parseEntries_cut {front back : String} (h : parseEntries (front ++ back) = .ok es) :
    (∀ es', parseEntries front = .ok es' ↔
        CutsBlanks front.toList back.toList ∧ es' = es) ∧
      (¬ CutsBlanks front.toList back.toList → ∃ fault, parseEntries front = .error fault ∧
        (BreaksTable front.toList back.toList →
          fault.cause = .invalidNumber ∧ fault.cause.category = .malformed) ∧
        (¬ BreaksTable front.toList back.toList → fault.cause.category = .cutOff)) := by
  rw [parseEntries_iff_readTable, readTable_eq_ok_iff, String.toList_append] at h
  rcases h.cut with ⟨hblanks, htable⟩ | ⟨hblanks, hcut⟩
  · refine ⟨fun es' => ?_, fun hnot => absurd hblanks hnot⟩
    rw [parseEntries_iff_readTable, readTable_eq_ok_iff]
    constructor
    · exact fun htable' => ⟨hblanks, htable'.unique htable⟩
    · exact fun h => h.2 ▸ htable
  · obtain ⟨stop, hstop, hcause⟩ : ∃ stop, readTable front.toList = .error stop ∧
        (stop.cause.category = .cutOff ∨
          BreaksTable front.toList back.toList ∧ stop.cause = .invalidNumber) := by
      rcases hcut with ⟨stop, hstop, hcause⟩ | ⟨hbreaks, stop, hstop, hcause⟩
      · exact ⟨stop, hstop, .inl hcause⟩
      · exact ⟨stop, hstop, .inr ⟨hbreaks, hcause⟩⟩
    have hparse : parseEntries front = .error (stop.fault front.toList) := by
      rw [parseEntries, hstop]
    refine ⟨fun es' => ?_, fun _ => ⟨_, hparse, fun hbreaks => ?_, fun hnot => ?_⟩⟩
    · rw [hparse]
      simp [hblanks]
    · obtain ⟨stop', hstop', hcause'⟩ := hbreaks.refused
      obtain rfl := Except.error.inj (hstop.symm.trans hstop')
      exact ⟨hcause', by rw [Stop.fault, hcause']; rfl⟩
    · exact hcause.resolve_right fun h => hnot h.1

/-- The front of a table, up to the sign of a number that nobody asked for. -/
def signFront : String :=
  "[\x7b\"k\":-"

/-- The back of that table. -/
def signBack : String :=
  "1,\"i\":1,\"str\":\"\"\x7d]"

/-- Behind the sign of a number that nobody asked for, a table is refused. -/
theorem parseEntries_signFront :
    parseEntries (signFront ++ signBack) = .ok [{ id := 1, value := "" }] ∧
      ∃ fault, parseEntries signFront = .error fault ∧ fault.cause = .invalidNumber := by
  have hk : StringText ['"', 'k', '"'] "k" := stringText_of_plain (by simp)
  have hi : MemberText ['"', 'i', '"', ':', '1'] { key := "i", value := ['1'] } :=
    .mk gap_nil (stringText_of_plain (s := "i") (by simp)) gap_nil gap_nil
  have hs : MemberText ['"', 's', 't', 'r', '"', ':', '"', '"']
      { key := "str", value := ['"', '"'] } :=
    .mk gap_nil (stringText_of_plain (s := "str") (by simp)) gap_nil gap_nil
  have hafter : ItemsAfter MemberText '}' _ _ :=
    .more gap_nil hi (.more gap_nil hs (.close gap_nil))
  have hone : Whole ['1'] := .inr ⟨⟨by simp, by simp⟩, by simp⟩
  have hnumber : NumberText ['-', '1'] :=
    .inr ⟨['1'], ⟨['1'], [], [], hone, .inl rfl, .inl rfl, rfl⟩, rfl⟩
  have hfits : ∀ m ∈ [⟨"k", ['-', '1']⟩, ⟨"i", ['1']⟩, ⟨"str", ['"', '"']⟩],
      Member.Fits { id := 1, value := "" } m := by
    rw [List.forall_mem_cons, List.forall_mem_cons, List.forall_mem_singleton]
    refine ⟨?_, ?_, ?_⟩
    · exact .scalar hnumber.scalarText
    · exact ⟨hone, by decide⟩
    · exact stringText_of_plain (s := "") (by simp)
  have hparse : parseEntries (signFront ++ signBack) = .ok [{ id := 1, value := "" }] := by
    have hmember := MemberText.mk (v := ['-', '1']) gap_nil hk gap_nil gap_nil
    have hentry := EntryText.object (.items hmember hafter) (by decide) (by decide) hfits
    have hspaced : Spaced EntryText _ _ := ⟨[], _, gap_nil, hentry, rfl⟩
    have htable : ItemsInside (Spaced EntryText) ']' _ _ := .items hspaced (.close gap_nil)
    have hread := readTable_eq_ok_iff.mpr ⟨[], _, [], gap_nil, htable, gap_nil, rfl⟩
    exact parseEntries_iff_readTable.mpr hread
  have hbreaks : BreaksTable signFront.toList signBack.toList := by
    have hvalue := BreaksNumber.number (m := ['-']) (v := ['1']) hnumber ⟨[], '-', by decide, rfl⟩
    have hmember := BreaksMember.mk gap_nil hk gap_nil gap_nil (by decide) (by decide) hvalue
    have hobject : BreaksItem MemberText BreaksMember '}' true _ _ _ :=
      .inItem (z := []) rfl hmember hafter
    have hentry : BreaksEntry _ _ _ :=
      ⟨[], _, _, gap_nil, hobject, by decide, by decide, hfits, rfl⟩
    have htable : BreaksItem (Spaced EntryText) BreaksEntry ']' true _ _ _ :=
      .inItem (z := []) rfl hentry (.close gap_nil)
    exact ⟨[], _, _, [], _, gap_nil, htable, gap_nil, rfl, rfl⟩
  have hnot : ¬ CutsBlanks signFront.toList signBack.toList :=
    fun h => absurd (isGap_iff.mpr (h.1 '1' (by decide))) (by decide)
  obtain ⟨fault, hfault, hrefused, -⟩ := (parseEntries_cut hparse).2 hnot
  exact ⟨hparse, fault, hfault, (hrefused hbreaks).1⟩

end PoolEnum.Table
