import PoolEnum.Proofs.Table.Cut.Scalar

/-!
# PoolEnum.Proofs.Table.Cut.Skip

Values that are passed over, of which only the front is there.

`BreaksNumber` follows the rules of `Written` down to a number that a cut divides
behind a mark. There, and only there, the front of a value is refused as a number;
everywhere else passing over it runs into the end of the text. A number at the end
of the front may be passed over whole, and then nothing is left to go on with.
-/

namespace PoolEnum.Table

variable {P : Cause → Prop} {cs u v rest front back w : List Char} {b : Bracket}
  {opened : List Bracket} {p : Phrase} {expecting : Expecting}

/-! ## a number that is cut behind a mark -/

/-- The front and the back are a phrase together, and the cut between them lies
in a number of it, behind a sign, a point or the mark of an exponent. -/
inductive BreaksNumber : Phrase → (front back : List Char) → Prop
  | number {m v : List Char} : NumberText (m ++ v) → EndsInMark m → BreaksNumber .value m v
  | bracketed {b : Bracket} {m v : List Char} :
      BreaksNumber (.inside b) m v → BreaksNumber .value (b.opening :: m) v
  | element {a m v : List Char} :
      Gap a → BreaksNumber .value m v → BreaksNumber (.item .list) (a ++ m) v
  | member {a key x c m v : List Char} : Gap a → LooseText key → Gap x → Gap c →
      BreaksNumber .value m v →
      BreaksNumber (.item .object) (a ++ '"' :: key ++ '"' :: x ++ ':' :: c ++ m) v
  | inFirst {b : Bracket} {m v t : List Char} :
      BreaksNumber (.item b) m v → Written (.after b) t → BreaksNumber (.inside b) m (v ++ t)
  | pastFirst {b : Bracket} {u m v : List Char} :
      Written (.item b) u → BreaksNumber (.after b) m v → BreaksNumber (.inside b) (u ++ m) v
  | inNext {b : Bracket} {z m v t : List Char} : Gap z → BreaksNumber (.item b) m v →
      Written (.after b) t → BreaksNumber (.after b) (z ++ ',' :: m) (v ++ t)
  | pastNext {b : Bracket} {z u m v : List Char} : Gap z → Written (.item b) u →
      BreaksNumber (.after b) m v → BreaksNumber (.after b) (z ++ ',' :: u ++ m) v

/-- A `NumberText` is a `ScalarText`. -/
theorem NumberText.scalarText (h : NumberText w) : ScalarText w := by
  rcases h with h | ⟨v, h, rfl⟩
  · exact .unsigned h
  · exact .negative h

/-- A front that `BreaksNumber` allows `EndsInMark`. -/
theorem BreaksNumber.endsInMark (h : BreaksNumber p front back) : EndsInMark front := by
  induction h with
  | number _ hmark => exact hmark
  | bracketed _ ih => exact ih.cons _
  | element _ _ ih => exact ih.append _
  | member _ _ _ _ _ ih => exact ih.append _
  | inFirst _ _ ih => exact ih
  | pastFirst _ _ ih => exact ih.append _
  | @inNext _ z _ _ _ _ _ _ ih => exact (ih.cons ',').append z
  | pastNext _ _ _ ih => exact ih.append _

/-- What `BreaksNumber` cuts is `Written`. -/
theorem BreaksNumber.written (h : BreaksNumber p front back) : Written p (front ++ back) := by
  induction h with
  | number hnumber _ => exact .scalar hnumber.scalarText
  | bracketed _ ih => exact .bracketed ih
  | element ha _ ih =>
      rw [List.append_assoc]
      exact .element ha ih
  | member ha hkey hx hc _ ih =>
      rw [List.append_assoc]
      exact .member ha hkey hx hc ih
  | inFirst _ ht ih =>
      rw [← List.append_assoc]
      exact .items ih ht
  | pastFirst hu _ ih =>
      rw [List.append_assoc]
      exact .items hu ih
  | @inNext b z m v t hz _ ht ih =>
      have hmore := Written.more hz ih ht
      simp only [List.append_assoc, List.cons_append] at hmore ⊢
      exact hmore
  | pastNext hz hu _ ih =>
      rw [List.append_assoc]
      exact .more hz hu ih

/-! ## stops that are handed on -/

/-- A bracket that is not closed is a cause of being cut off. -/
theorem Bracket.category_endCause (b : Bracket) : b.endCause.category = .cutOff := by
  cases b <;> rfl

/-- Where something has to follow, `skipFrom` is `CutOff` by a `Gap` alone. -/
theorem Gap.cutOff_skipFrom (h : Gap cs) (hmore : expecting = .next → opened ≠ []) :
    CutOff (skipFrom expecting opened cs) := by
  have hskip := skipGap_eq_nil_iff.mpr h
  cases expecting with
  | value =>
      rw [skipFrom_value_eq, hskip]
      exact .of_error rfl
  | member =>
      rw [skipFrom_member_eq, hskip]
      exact .of_error rfl
  | first b =>
      rw [skipFrom_first_eq, hskip]
      exact .of_error b.category_endCause
  | next =>
      obtain ⟨b, opened, rfl⟩ := List.exists_cons_of_ne_nil (hmore rfl)
      rw [skipFrom_next_eq, hskip]
      exact .of_error b.category_endCause

/-- What stops `skipScalar` stops `skipFrom` at a value. -/
theorem stopsFor_skipFrom_scalar {c : Char} (h : skipGap cs = c :: v) (hl : c ≠ '[') (ho : c ≠ '{')
    (hstop : StopsFor P (skipScalar (c :: v))) : StopsFor P (skipFrom .value opened cs) :=
  hstop.imp fun stop hstop => by
    rw [skipFrom_value_eq, h]
    simp only [hl, ho, if_false, hstop]

theorem stopsFor_skipFrom_key (h : skipGap cs = '"' :: u) (hstop : StopsFor P (skipText u)) :
    StopsFor P (skipFrom .member opened cs) :=
  hstop.imp fun stop hstop => by
    rw [skipFrom_member_eq, h]
    simp only [if_true, hstop]

theorem stopsFor_skipFrom_colon (h : skipGap cs = '"' :: u) (hkey : skipText u = .ok v)
    (hstop : StopsFor P (readColon v)) : StopsFor P (skipFrom .member opened cs) :=
  hstop.imp fun stop hstop => by
    rw [skipFrom_member_eq, h]
    simp only [if_true, hkey, hstop]

/-! ## the front of a value -/

/-- The front of a scalar begins as the scalar does. -/
theorem ScalarText.exists_cons_front (h : ScalarText (front ++ back)) (hfront : front ≠ []) :
    ∃ c r, front = c :: r ∧ skipGap front = c :: r ∧ c ≠ '[' ∧ c ≠ '{' := by
  obtain ⟨c, r, rfl⟩ := List.exists_cons_of_ne_nil hfront
  obtain ⟨d, ds, heq, hgap, hl, ho, -⟩ := h.exists_cons
  obtain ⟨rfl, -⟩ := List.cons.inj heq
  exact ⟨c, r, rfl, skipGap_cons hgap r, hl, ho⟩

/-- The front of a first item is passed over like that of any other. -/
theorem Written.skipFrom_first_front (h : Written (.item b) (front ++ back))
    (hfront : ¬ Gap front) :
    skipFrom (.first b) opened front = skipFrom b.item (b :: opened) front := by
  obtain ⟨a, c, v, ha, hgap, hc, heq⟩ := h.exists_head
  rcases cut_at heq.symm with ⟨r, rfl, -⟩ | ⟨x, rfl, -⟩
  · exact skipFrom_first_item (skipGap_append_cons ha hgap r) hc
  · exact absurd ha.of_append_left hfront

/-- The front of what `EndsNumber` does so too. -/
theorem EndsNumber.of_append (h : EndsNumber (front ++ back)) : EndsNumber front := by
  cases front with
  | nil => exact endsNumber_nil
  | cons c front => exact h

/-- The front of what follows an item `EndsNumber`. -/
theorem Written.endsNumber_front (h : Written (.after b) (front ++ back)) : EndsNumber front := by
  have hwhole := h.endsNumber []
  rw [List.append_assoc] at hwhole
  exact hwhole.of_append

/-- A `Gap` where a colon has to follow is `CutOff`. -/
theorem Gap.cutOff_readColon (h : Gap cs) : CutOff (readColon cs) := by
  rw [readColon, skipGap_eq_nil_iff.mpr h]
  exact .of_error rfl

/-- The front of a key and its colon is `CutOff`. -/
theorem skipFrom_member_front {a key m t : List Char} (ha : Gap a) (hkey : LooseText key)
    (hm : Gap m) (h : a ++ '"' :: (key ++ '"' :: (m ++ ':' :: t)) = front ++ back) :
    CutOff (skipFrom .member opened front) ∨
      ∃ r, front = a ++ '"' :: (key ++ '"' :: (m ++ ':' :: r)) ∧ t = r ++ back := by
  rcases cut_at h with ⟨x, rfl, hx⟩ | ⟨v, rfl, -⟩
  · have hquote : skipGap (a ++ '"' :: x) = '"' :: x := skipGap_append_cons ha (by decide) x
    rcases cut_at hx with ⟨y, rfl, hy⟩ | ⟨v, hv, -⟩
    · rcases cut_at hy with ⟨r, rfl, rfl⟩ | ⟨v, rfl, -⟩
      · exact .inr ⟨r, rfl, rfl⟩
      · have hskip : skipText (key ++ '"' :: y) = .ok y := skipText_eq_ok_iff.mpr ⟨key, hkey, rfl⟩
        exact .inl (stopsFor_skipFrom_colon hquote hskip hm.of_append_left.cutOff_readColon)
    · exact .inl (stopsFor_skipFrom_key hquote (hkey.cutOff hv))
  · exact .inl (ha.of_append_left.cutOff_skipFrom (by simp))

/-- `skipFrom` passes over an item if what follows `EndsNumber`. -/
theorem Written.skipFrom_item (h : Written (.item b) u) (hrest : EndsNumber rest) :
    skipFrom b.item (b :: opened) (u ++ rest) = skipFrom .next (b :: opened) rest :=
  skipFrom_of_written h (b :: opened) rest hrest

/-- Where the text ends behind an item, the bracket around it is not closed. -/
theorem CutShort.of_item {Broken Broken' : Prop} {result : Except Stop (List Char)}
    (h : result = skipFrom .next (b :: opened) [] ∨ CutShort Broken result)
    (hbroken : Broken → Broken') : CutShort Broken' result := by
  rcases h with rfl | h
  · exact (gap_nil.cutOff_skipFrom fun _ => List.cons_ne_nil b opened).cutShort
  · exact h.mono hbroken

/-- The front of a phrase is passed over if it ends in a number, or it is `CutShort`, which a number
in it is only behind a mark. -/
theorem Written.cut (h : Written p w) (hw : w = front ++ back) (hback : back ≠ [])
    (opened : List Bracket) :
    skipFrom p.expecting (p.within opened) front = skipFrom .next opened [] ∨
      CutShort (BreaksNumber p front back)
        (skipFrom p.expecting (p.within opened) front) := by
  -- only a value or an item can end in a number, for the others end in a bracket
  induction h generalizing front back opened with
  | @scalar w h =>
      by_cases hfront : front = []
      · rw [hfront]
        exact .inr (gap_nil.cutOff_skipFrom (by simp [Phrase.expecting])).cutShort
      · have hcut := h.cut hw hfront hback
        rw [hw] at h hcut
        obtain ⟨c, r, hcons, hskip, hl, ho⟩ := h.exists_cons_front hfront
        rcases hcut with hend | hcut
        · exact .inl (skipFrom_value_scalar hskip hl ho (hcons ▸ hend))
        · refine .inr (hcut.imp (fun h => .number h.1 h.2) fun P hstop => ?_)
          exact stopsFor_skipFrom_scalar hskip hl ho (hcons ▸ hstop)
  | @bracketed b w _ ih =>
      rcases cut_cons hw with rfl | ⟨r, rfl, hr⟩
      · exact .inr (gap_nil.cutOff_skipFrom (by simp [Phrase.expecting])).cutShort
      · change skipFrom .value opened _ = _ ∨ CutShort _ (skipFrom .value opened _)
        rw [skipFrom_opening]
        exact (ih hr hback opened).imp_right fun h => h.mono .bracketed
  | @element a v ha _ ih =>
      rcases cut_cases hw with ⟨r, rfl, hr⟩ | ⟨x, -, rfl, -⟩
      · change skipFrom .value opened _ = _ ∨ CutShort _ (skipFrom .value opened _)
        rw [skipFrom_value_gap ha]
        exact (ih hr hback opened).imp_right fun h => h.mono (.element ha)
      · refine .inr (ha.of_append_left.cutOff_skipFrom ?_).cutShort
        simp [Phrase.expecting, Bracket.item]
  | @member a key m c v ha hkey hm hc _ ih =>
      simp only [List.append_assoc, List.cons_append] at hw
      change skipFrom .member opened _ = _ ∨ CutShort _ (skipFrom .member opened _)
      rcases skipFrom_member_front ha hkey hm hw with hcut | ⟨t, rfl, ht⟩
      · exact .inr hcut.cutShort
      · rw [skipFrom_of_key ha hkey hm]
        rcases cut_cases ht with ⟨r, rfl, hr⟩ | ⟨x, -, rfl, -⟩
        · rw [skipFrom_value_gap hc]
          refine (ih hr hback opened).imp_right fun h => h.mono fun h => ?_
          have hbreaks := BreaksNumber.member ha hkey hm hc h
          simp only [List.append_assoc, List.cons_append] at hbreaks
          exact hbreaks
        · exact .inr (hc.of_append_left.cutOff_skipFrom (by simp)).cutShort
  | @empty b z hz =>
      obtain ⟨x, rfl⟩ := cut_before_last hw hback
      refine .inr (hz.of_append_left.cutOff_skipFrom ?_).cutShort
      simp [Phrase.expecting]
  | @items b u t hu ht ihu iht =>
      change skipFrom (.first b) opened _ = _ ∨ CutShort _ (skipFrom (.first b) opened _)
      rcases cut_cases hw with ⟨r, rfl, rfl⟩ | ⟨x, hx, rfl, rfl⟩
      · rw [hu.skipFrom_first, hu.skipFrom_item ht.endsNumber_front]
        exact (iht rfl hback opened).imp_right fun h => h.mono (.pastFirst hu)
      · by_cases hgap : Gap front
        · exact .inr (hgap.cutOff_skipFrom (by simp)).cutShort
        · rw [hu.skipFrom_first_front hgap]
          exact .inr (.of_item (ihu rfl hx (b :: opened)) fun h => .inFirst h ht)
  | @close b z hz =>
      obtain ⟨x, rfl⟩ := cut_before_last hw hback
      refine .inr (hz.of_append_left.cutOff_skipFrom ?_).cutShort
      exact fun _ => List.cons_ne_nil b opened
  | @more b z u t hz hu ht ihu iht =>
      change skipFrom .next (b :: opened) _ = _ ∨ CutShort _ (skipFrom .next (b :: opened) _)
      simp only [List.append_assoc, List.cons_append] at hw
      rcases cut_at hw with ⟨y, rfl, hy⟩ | ⟨x, rfl, -⟩
      · have hcomma : skipGap (z ++ ',' :: y) = ',' :: y := skipGap_append_cons hz (by decide) y
        rw [skipFrom_next_comma hcomma]
        rcases cut_cases hy with ⟨r, rfl, rfl⟩ | ⟨x, hx, rfl, rfl⟩
        · rw [hu.skipFrom_item ht.endsNumber_front]
          refine (iht rfl hback opened).imp_right fun h => h.mono fun h => ?_
          have hbreaks := BreaksNumber.pastNext hz hu h
          simp only [List.append_assoc, List.cons_append] at hbreaks
          exact hbreaks
        · exact .inr (.of_item (ihu rfl hx (b :: opened)) fun h => .inNext hz h ht)
      · refine .inr (hz.of_append_left.cutOff_skipFrom ?_).cutShort
        exact fun _ => List.cons_ne_nil b opened

/-- A text that `EndsInMark` is no `Gap`. -/
theorem EndsInMark.not_gap (h : EndsInMark w) : ¬ Gap w := by
  intro hgap
  obtain ⟨v, c, hc, rfl⟩ := h
  have hblank := isGap_iff.mpr (hgap c (by simp))
  have hall : ∀ c ∈ ['-', '+', '.', 'e', 'E'], isGap c = false := by simp [isGap]
  rw [hall c hc] at hblank
  contradiction

/-- Where `BreaksNumber` cuts, `skipFrom` is `NumberRefused`. -/
theorem BreaksNumber.refused (h : BreaksNumber p front back) (opened : List Bracket) :
    NumberRefused (skipFrom p.expecting (p.within opened) front) := by
  induction h generalizing opened with
  | @number m v hnumber hmark =>
      have hfront : m ≠ [] := fun hnil => not_endsInMark_nil (hnil ▸ hmark)
      obtain ⟨c, r, hcons, hskip, hl, ho⟩ := hnumber.scalarText.exists_cons_front hfront
      exact stopsFor_skipFrom_scalar hskip hl ho (hcons ▸ hnumber.refused hmark)
  | @bracketed b m v _ ih =>
      change NumberRefused (skipFrom .value opened _)
      rw [skipFrom_opening]
      exact ih opened
  | element ha _ ih =>
      change NumberRefused (skipFrom .value opened _)
      rw [skipFrom_value_gap ha]
      exact ih opened
  | member ha hkey hx hc _ ih =>
      change NumberRefused (skipFrom .member opened _)
      simp only [List.append_assoc, List.cons_append]
      rw [skipFrom_of_key ha hkey hx, skipFrom_value_gap hc]
      exact ih opened
  | @inFirst b m v t h _ ih =>
      change NumberRefused (skipFrom (.first b) opened m)
      rw [h.written.skipFrom_first_front h.endsInMark.not_gap]
      exact ih (b :: opened)
  | @pastFirst b u m v hu h ih =>
      change NumberRefused (skipFrom (.first b) opened _)
      rw [hu.skipFrom_first, hu.skipFrom_item h.written.endsNumber_front]
      exact ih opened
  | @inNext b z m v t hz _ _ ih =>
      change NumberRefused (skipFrom .next (b :: opened) _)
      rw [skipFrom_next_comma (skipGap_append_cons hz (by decide) m)]
      exact ih (b :: opened)
  | @pastNext b z u m v hz hu h ih =>
      change NumberRefused (skipFrom .next (b :: opened) _)
      rw [List.append_assoc, List.cons_append,
        skipFrom_next_comma (skipGap_append_cons hz (by decide) (u ++ m)),
        hu.skipFrom_item h.written.endsNumber_front]
      exact ih opened

/-! ## whole values -/

/-- The front of a value that is passed over, behind its blanks. -/
theorem Written.cut_skipValue {c v : List Char} (hc : Gap c) (hv : Written .value v)
    (h : c ++ v = front ++ back) (hback : back ≠ []) :
    skipValue front = .ok [] ∨
      CutShort (∃ m, front = c ++ m ∧ v = m ++ back ∧ BreaksNumber .value m back)
        (skipValue front) := by
  rcases cut_cases h with ⟨m, rfl, rfl⟩ | ⟨x, -, rfl, -⟩
  · rw [skipValue, skipFrom_value_gap hc]
    rcases hv.cut rfl hback [] with hend | hcut
    · exact .inl (hend.trans (by rw [skipFrom]))
    · exact .inr (hcut.mono fun h => ⟨m, rfl, rfl, h⟩)
  · exact .inr (hc.of_append_left.cutOff_skipFrom (by simp)).cutShort

/-- Where `BreaksNumber` cuts a value, `skipValue` is `NumberRefused`. -/
theorem BreaksNumber.refused_skipValue {c : List Char} (hc : Gap c)
    (h : BreaksNumber .value front back) : NumberRefused (skipValue (c ++ front)) := by
  rw [skipValue, skipFrom_value_gap hc]
  exact h.refused []

end PoolEnum.Table
