import PoolEnum.Proofs.Table.Cut.Skip
import PoolEnum.Proofs.Table.Members

/-!
# PoolEnum.Proofs.Table.Cut.Members

Objects of which only the front is there.

`BreaksItem` says of a list of things where a cut falls into one of them, and
`BreaksMember` of a member that the cut falls into a number of its value, which
only happens where the key is none of an entry.
-/

namespace PoolEnum.Table

variable {P : Cause → Prop} {cs u v w front back rest : List Char} {isFirst : Bool} {d d' : Draft}
  {e : Entry} {key : String}

/-! ## lists of things -/

/-- Things up to and with the closing bracket that are cut, such that the thing
which the cut falls into is `Broken`. -/
inductive BreaksItem {α : Type} (P : List Char → α → Prop)
    (Broken : (front back : List Char) → α → Prop) (close : Char) :
    (isFirst : Bool) → (front back : List Char) → List α → Prop
  | inItem {isFirst : Bool} {z m v t : List Char} {x : α} {xs : List α} :
      Separator isFirst z → Broken m v x → ItemsAfter P close t xs →
      BreaksItem P Broken close isFirst (z ++ m) (v ++ t) (x :: xs)
  | pastItem {isFirst : Bool} {z u m v : List Char} {x : α} {xs : List α} :
      Separator isFirst z → P u x → BreaksItem P Broken close false m v xs →
      BreaksItem P Broken close isFirst (z ++ u ++ m) v (x :: xs)

/-- The front of a separator and blanks is blank, or it is past the comma. -/
theorem separator_front {z a : List Char} (hz : Separator isFirst z) (ha : Gap a)
    (h : z ++ a = front ++ back) :
    Gap front ∨ isFirst = false ∧ ∃ x y, Gap x ∧ Gap y ∧ front = x ++ ',' :: y := by
  cases isFirst with
  | true =>
      have hgap : Gap (front ++ back) := by
        rw [← h, hz]
        exact ha
      exact .inl hgap.of_append_left
  | false =>
      obtain ⟨x, hx, rfl⟩ := hz
      rw [List.append_assoc, List.singleton_append] at h
      rcases cut_at h with ⟨y, rfl, rfl⟩ | ⟨v, rfl, -⟩
      · exact .inr ⟨rfl, x, y, hx, ha.of_append_left, rfl⟩
      · exact .inl hx.of_append_left

/-- What goes on behind a thing ends a number. -/
theorem BreaksItem.endsNumber {α : Type} {Q : List Char → α → Prop}
    {Broken : List Char → List Char → α → Prop} {close : Char} {xs : List α}
    (h : BreaksItem Q Broken close false front back xs) : EndsNumber front := by
  cases h with
  | inItem hz _ _ =>
      obtain ⟨x, hx, rfl⟩ := hz
      rw [List.append_assoc]
      exact hx.endsNumber_append endsNumber_comma
  | pastItem hz _ _ =>
      obtain ⟨x, hx, rfl⟩ := hz
      rw [List.append_assoc, List.append_assoc]
      exact hx.endsNumber_append endsNumber_comma

/-- The front of what follows things ends a number. -/
theorem ItemsAfter.endsNumber_front {α : Type} {Q : List Char → α → Prop} {close : Char}
    {xs : List α} (hclose : ∀ cs, EndsNumber (close :: cs))
    (h : ItemsAfter Q close (front ++ back) xs) : EndsNumber front := by
  have hwhole := h.endsNumber hclose []
  rw [List.append_assoc] at hwhole
  exact hwhole.of_append

/-! ## between members -/

/-- A `Gap` where a member or the end of an object has to follow is `CutOff`. -/
theorem Gap.cutOff_readObjectNext (h : Gap cs) : CutOff (readObjectNext isFirst cs) := by
  rw [readObjectNext, skipGap_eq_nil_iff.mpr h]
  exact .of_error rfl

/-- The front of what stands before a key is `CutOff`. -/
theorem cutOff_readObjectNext {z a : List Char} (hz : Separator isFirst z) (ha : Gap a)
    (h : z ++ a = front ++ back) : CutOff (readObjectNext isFirst front) := by
  rcases separator_front hz ha h with hgap | ⟨rfl, x, y, hx, hy, rfl⟩
  · exact hgap.cutOff_readObjectNext
  · rw [readObjectNext, skipGap_append_cons hx (by decide)]
    simp only [skipGap_eq_nil_iff.mpr hy]
    exact .of_error rfl

/-! ## fields -/

/-- What stops `readColon` stops `readField`. -/
theorem stopsFor_readField_colon (h : d.Takes { key, value := v } d')
    (hstop : StopsFor P (readColon cs)) : StopsFor P (readField d key cs) :=
  hstop.imp fun stop hstop => by rw [readField, if_neg h.fresh.1, if_neg h.fresh.2, hstop]

/-- What is done with the result does not change what it `StopsFor`. -/
theorem StopsFor.map {α β : Type} {f : α → β} {result : Except Stop α} (h : StopsFor P result) :
    StopsFor P (result.map f) :=
  h.imp fun stop hstop => by rw [hstop]; rfl

/-- The front of a colon and a value is read if it ends in a number, or it is `CutShort`, which a
number of another member is behind a mark. -/
theorem Draft.Takes.cut {m c : List Char} (h : d.Takes { key, value := v } d') (hm : Gap m)
    (hc : Gap c) (hcut : m ++ ':' :: (c ++ v) = front ++ back) (hback : back ≠ []) :
    (∃ d₁, readField d key front = .ok (d₁, [])) ∨
      CutShort (key ≠ "i" ∧ key ≠ "str" ∧ ∃ x, front = m ++ ':' :: (c ++ x) ∧ v = x ++ back ∧
        BreaksNumber .value x back) (readField d key front) := by
  rcases cut_at hcut with ⟨r, rfl, hr⟩ | ⟨x, rfl, -⟩
  · have hcolon : readColon (m ++ ':' :: r) = .ok r := readColon_eq_ok_iff.mpr ⟨m, hm, rfl⟩
    by_cases hid : key = "i"
    · subst hid
      rw [readField_id h hcolon]
      obtain ⟨-, id, hw, -⟩ := h
      rcases hw.cut hc hr with hcut | ⟨id', hread⟩
      · exact .inr (CutOff.cutShort hcut.map)
      · exact .inl ⟨_, by rw [hread]; rfl⟩
    · by_cases hvalue : key = "str"
      · subst hvalue
        rw [readField_value h hcolon]
        obtain ⟨-, value, hw, -⟩ := h
        exact .inr (CutOff.cutShort (hw.cutOff hc hr hback).map)
      · rw [readField_other hid hvalue hcolon]
        have hw : Written .value v := by
          rw [Takes, if_neg hid, if_neg hvalue] at h
          exact h.1
        rcases hw.cut_skipValue hc hr hback with hend | hcut
        · exact .inl ⟨d, by rw [hend]; rfl⟩
        · refine .inr (hcut.imp ?_ fun _ hstop => hstop.map)
          rintro ⟨x, rfl, hv, hbreaks⟩
          exact ⟨hid, hvalue, x, rfl, hv, hbreaks⟩
  · exact .inr (CutOff.cutShort (stopsFor_readField_colon h hm.of_append_left.cutOff_readColon))

/-! ## members -/

/-- A member of another key that is cut in a number of its value, behind a mark. -/
inductive BreaksMember : (front back : List Char) → Member → Prop
  | mk {a k m c x y : List Char} {key : String} : Gap a → StringText k key → Gap m → Gap c →
      key ≠ "i" → key ≠ "str" → BreaksNumber .value x y →
      BreaksMember (a ++ k ++ m ++ ':' :: c ++ x) y { key, value := x ++ y }

/-- What stops `readObjectNext` stops `readMembers`. -/
theorem stopsFor_readMembers_next (h : StopsFor P (readObjectNext isFirst cs)) :
    StopsFor P (readMembers isFirst d cs) :=
  h.imp fun stop hstop => by rw [readMembers_eq, hstop]

theorem stopsFor_readMembers_key (hnext : readObjectNext isFirst cs = .ok (true, u))
    (h : StopsFor P (readText u)) : StopsFor P (readMembers isFirst d cs) :=
  h.imp fun stop hstop => by
    rw [readMembers_eq, hnext]
    simp only [hstop]

theorem stopsFor_readMembers_field {z a k : List Char} (hz : Separator isFirst z) (ha : Gap a)
    (hk : StringText k key) (h : StopsFor P (readField d key v)) :
    StopsFor P (readMembers isFirst d (z ++ a ++ k ++ v)) := by
  obtain ⟨u, hnext, htext⟩ := reads_key hz ha hk v
  rw [← String.ofList_toList (s := key)] at h
  refine h.imp fun stop hstop => ?_
  rw [readMembers_eq, hnext]
  simp only [htext, hstop]

/-- The front of a key is `CutOff`. -/
theorem readMembers_key_front {z a k t : List Char} (hz : Separator isFirst z) (ha : Gap a)
    (hk : StringText k key) (h : z ++ a ++ k ++ t = front ++ back) :
    CutOff (readMembers isFirst d front) ∨ ∃ r, front = z ++ a ++ k ++ r ∧ t = r ++ back := by
  obtain ⟨content, hcontent, rfl⟩ := hk
  have h : (z ++ a) ++ '"' :: (content ++ '"' :: t) = front ++ back := by simpa using h
  rcases cut_at h with ⟨x, rfl, hx⟩ | ⟨v, hv, -⟩
  · rcases cut_at hx with ⟨r, rfl, rfl⟩ | ⟨v, hv, -⟩
    · exact .inr ⟨r, by simp, rfl⟩
    · have hnext : readObjectNext isFirst (z ++ a ++ '"' :: x) = .ok (true, x) :=
        readObjectNext_eq_key_iff.mpr ⟨z, a, hz, ha, rfl⟩
      exact .inl (stopsFor_readMembers_key hnext (hcontent.cutOff hv))
  · exact .inl (stopsFor_readMembers_next (cutOff_readObjectNext hz ha hv))

/-- The front of an object is `CutShort`, which a number of another member is only behind a mark. -/
theorem readMembers_cut {ms : List Member} (hw : ItemsFrom MemberText '}' isFirst w ms)
    (h : d.Reads ms (.whole e)) (hcut : w = front ++ back) (hback : back ≠ []) :
    CutShort (BreaksItem MemberText BreaksMember '}' isFirst front back ms)
      (readMembers isFirst d front) := by
  induction ms generalizing isFirst d w front with
  | nil =>
      obtain ⟨z, hz, rfl⟩ := itemsFrom_nil_iff.mp hw
      obtain ⟨x, rfl⟩ := cut_before_last hcut hback
      exact CutOff.cutShort (stopsFor_readMembers_next hz.of_append_left.cutOff_readObjectNext)
  | cons m ms ih =>
      obtain ⟨z, u, t, hz, hu, ht, rfl⟩ := itemsFrom_cons_iff.mp hw
      obtain ⟨d₁, htakes, hreads⟩ := h
      rw [List.append_assoc] at hcut
      have hwhole := hu
      cases hu with
      | @mk a k x c v key ha hk hx hc =>
          have hkey : z ++ a ++ k ++ (x ++ ':' :: (c ++ v) ++ t) = front ++ back := by
            rw [← hcut]
            simp only [List.append_assoc, List.cons_append]
          rcases readMembers_key_front hz ha hk hkey with hend | ⟨y, rfl, hy⟩
          · exact hend.cutShort
          · rcases cut_cases hy with ⟨r, rfl, rfl⟩ | ⟨y', hy', hfield, rfl⟩
            · have hnumber : EndsNumber r :=
                ht.endsNumber_front fun cs => Bracket.endsNumber_close .object
              have hread := readMembers_of_memberText hz hwhole htakes hnumber
              have hrest : ItemsFrom MemberText '}' false (r ++ back) ms := ht
              have hnext := ih hrest hreads rfl
              simp only [List.append_assoc, List.cons_append] at hread ⊢
              rw [hread]
              refine hnext.mono fun h => ?_
              have hpast := BreaksItem.pastItem hz hwhole h
              simp only [List.append_assoc, List.cons_append] at hpast
              exact hpast
            · rcases htakes.cut hx hc hfield hy' with ⟨d₂, hread⟩ | hcut
              · rw [readMembers_of_field hz ha hk hread]
                exact CutOff.cutShort (stopsFor_readMembers_next gap_nil.cutOff_readObjectNext)
              · refine hcut.imp ?_ fun _ hstop => stopsFor_readMembers_field hz ha hk hstop
                rintro ⟨hid, hvalue, n, rfl, rfl, hbreaks⟩
                have hmember := BreaksMember.mk ha hk hx hc hid hvalue hbreaks
                have hin := BreaksItem.inItem (P := MemberText) hz hmember ht
                simp only [List.append_assoc, List.cons_append] at hin ⊢
                exact hin

/-- Where a cut `BreaksMember`, `readMembers` is `NumberRefused`. -/
theorem BreaksItem.refused_readMembers {ms : List Member}
    (h : BreaksItem MemberText BreaksMember '}' isFirst front back ms)
    (hreads : d.Reads ms (.whole e)) : NumberRefused (readMembers isFirst d front) := by
  induction h generalizing d with
  | @inItem isFirst z m v t _ _ hz hmember _ =>
      cases hmember with
      | @mk a k x c n y key ha hk hx hc hid hvalue hbreaks =>
          have hcolon : readColon (x ++ ':' :: (c ++ n)) = .ok (c ++ n) :=
            readColon_eq_ok_iff.mpr ⟨x, hx, rfl⟩
          have hfield : NumberRefused (readField d key (x ++ ':' :: (c ++ n))) := by
            rw [readField_other hid hvalue hcolon]
            exact (hbreaks.refused_skipValue hc).map
          have hrefused := stopsFor_readMembers_field hz ha hk hfield
          simp only [List.append_assoc, List.cons_append] at hrefused ⊢
          exact hrefused
  | pastItem hz hu hbreaks ih =>
      obtain ⟨d₁, htakes, hreads⟩ := hreads
      rw [readMembers_of_memberText hz hu htakes hbreaks.endsNumber]
      exact ih hreads

end PoolEnum.Table
