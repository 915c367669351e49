import PoolEnum.Proofs.Table.Cut.Text
import PoolEnum.Proofs.Table.Skip

/-!
# PoolEnum.Proofs.Table.Cut.Scalar

Numbers, words and the two fields of an entry of which only the front is there.

A number does not show where it ends, so its front may be a number as well, and
then all of it is read. Behind a mark that digits have to follow (`EndsInMark`)
the front of a number is none. In a number that is passed over this is not taken
for the end of the text, but for a number that is written wrongly.
-/

namespace PoolEnum.Table

variable {P : Cause → Prop} {atEnd : Cause} {negative : Bool} {cs ds rest front back w : List Char}
  {l : Literal} {stop : Stop}

/-! ## marks -/

/-- A number of any size and its sign. -/
def NumberText (w : List Char) : Prop :=
  Unsigned w ∨ ∃ v, Unsigned v ∧ w = '-' :: v

/-- The text ends in a sign, a point or the mark of an exponent. -/
def EndsInMark (w : List Char) : Prop :=
  ∃ v c, c ∈ ['-', '+', '.', 'e', 'E'] ∧ w = v ++ [c]

/-- Reading stopped at a number that is written wrongly. -/
def NumberRefused {α : Type} (result : Except Stop α) : Prop :=
  StopsFor (fun cause => cause = .invalidNumber) result

/-- Reading was cut short: by the end of the text or, if `Broken`, by a number that
is refused. -/
def CutShort {α : Type} (Broken : Prop) (result : Except Stop α) : Prop :=
  CutOff result ∨ Broken ∧ NumberRefused result

/-- What is `CutOff` is `CutShort`. -/
theorem CutOff.cutShort {α : Type} {Broken : Prop} {result : Except Stop α} (h : CutOff result) :
    CutShort Broken result :=
  .inl h

/-- Where every stop is handed on, what leaves the inner reader `CutShort` does so with the outer
one. -/
theorem CutShort.imp {α β : Type} {Broken Broken' : Prop} {result : Except Stop α}
    {result' : Except Stop β} (h : CutShort Broken result) (hbroken : Broken → Broken')
    (hstops : ∀ P, StopsFor P result → StopsFor P result') : CutShort Broken' result' := by
  rcases h with hcut | ⟨hb, hrefused⟩
  · exact .inl (hstops _ hcut)
  · exact .inr ⟨hbroken hb, hstops _ hrefused⟩

/-- `CutShort` with less that counts as broken is `CutShort` with more. -/
theorem CutShort.mono {α : Type} {Broken Broken' : Prop} {result : Except Stop α}
    (h : CutShort Broken result) (hbroken : Broken → Broken') : CutShort Broken' result :=
  h.imp hbroken fun _ hstop => hstop

/-- Only the end of the text counts for `EndsInMark`. -/
theorem EndsInMark.append (h : EndsInMark w) (v : List Char) : EndsInMark (v ++ w) := by
  obtain ⟨u, c, hc, rfl⟩ := h
  exact ⟨v ++ u, c, hc, (List.append_assoc ..).symm⟩

theorem EndsInMark.cons (h : EndsInMark w) (c : Char) : EndsInMark (c :: w) :=
  h.append [c]

theorem not_endsInMark_nil : ¬ EndsInMark [] := by
  intro h
  obtain ⟨v, c, -, h⟩ := h
  simp at h

/-- The last of some `Digits` is no mark. -/
theorem Digits.not_endsInMark (h : Digits ds) (v : List Char) : ¬ EndsInMark (v ++ ds) := by
  intro hmark
  obtain ⟨u, c, hc, heq⟩ := hmark
  obtain ⟨init, d, rfl⟩ : ∃ init d, ds = init ++ [d] :=
    ⟨_, _, (List.dropLast_concat_getLast h.1).symm⟩
  have hd : d.isDigit = true := h.2 d (by simp)
  rw [← List.append_assoc, List.append_singleton_inj] at heq
  obtain ⟨-, rfl⟩ := heq
  simp only [List.mem_cons, List.not_mem_nil, or_false] at hc
  rcases hc with rfl | rfl | rfl | rfl | rfl
  all_goals simp at hd

/-- A `Whole` number is made of `Digits`. -/
theorem Whole.digits (h : Whole ds) : Digits ds := by
  cases h with
  | inl h => exact h ▸ ⟨by simp, by simp⟩
  | inr h => exact h.1

/-- The last character of an `Unsigned` number is a digit, not a mark. -/
theorem Unsigned.not_endsInMark (h : Unsigned w) (v : List Char) : ¬ EndsInMark (v ++ w) := by
  obtain ⟨whole, f, x, hwhole, hf, hx, rfl⟩ := h
  rcases hx with rfl | ⟨e, sign, ds, -, -, hds, rfl⟩
  · rw [List.append_nil]
    rcases hf with rfl | ⟨ds, hds, rfl⟩
    · rw [List.append_nil]
      exact hwhole.digits.not_endsInMark v
    · simpa using hds.not_endsInMark (v ++ whole ++ ['.'])
  · simpa using hds.not_endsInMark (v ++ whole ++ f ++ e :: sign)

/-! ## the front of a number -/

/-- The front of `Digits` is `Digits`, if there is any. -/
theorem Digits.of_append (h : Digits (front ++ back)) (hfront : front ≠ []) : Digits front :=
  ⟨hfront, fun c hc => h.2 c (List.mem_append_left back hc)⟩

/-- The front of a `Whole` number is one, if there is any. -/
theorem Whole.of_append (h : Whole (front ++ back)) (hfront : front ≠ []) : Whole front := by
  obtain ⟨c, cs, rfl⟩ := List.exists_cons_of_ne_nil hfront
  cases h with
  | inl h =>
      rw [List.cons_append, List.cons.injEq, List.append_eq_nil_iff] at h
      obtain ⟨rfl, rfl, -⟩ := h
      exact .inl rfl
  | inr h => exact .inr ⟨h.1.of_append hfront, h.2⟩

/-- The front of a `Fraction` is one, unless it is the point alone. -/
theorem Fraction.of_append (h : Fraction (front ++ back)) : Fraction front ∨ front = ['.'] := by
  rcases h with h | ⟨ds, hds, h⟩
  · exact .inl (.inl (List.append_eq_nil_iff.mp h).1)
  · rcases cut_cons h.symm with rfl | ⟨r, rfl, rfl⟩
    · exact .inl (.inl rfl)
    · by_cases hr : r = []
      · exact .inr (by rw [hr])
      · exact .inl (.inr ⟨r, hds.of_append hr, rfl⟩)

/-- The front of an `Exponent` is one, unless its digits are missing. -/
theorem Exponent.of_append (h : Exponent (front ++ back)) :
    Exponent front ∨ ∃ e sign, (e = 'e' ∨ e = 'E') ∧
      (sign = [] ∨ sign = ['+'] ∨ sign = ['-']) ∧ front = e :: sign := by
  rcases h with h | ⟨e, sign, ds, he, hsign, hds, h⟩
  · exact .inl (.inl (List.append_eq_nil_iff.mp h).1)
  · rcases cut_cons h.symm with rfl | ⟨r, rfl, hr⟩
    · exact .inl (.inl rfl)
    · rcases cut_cases hr with ⟨r, rfl, rfl⟩ | ⟨v, hv, rfl, -⟩
      · by_cases hr : r = []
        · exact .inr ⟨e, sign, he, hsign, by rw [hr, List.append_nil]⟩
        · exact .inl (.inr ⟨e, sign, r, he, hsign, hds.of_append hr, rfl⟩)
      · -- of a sign there is all or nothing
        have hempty : r = [] := by
          rcases hsign with hsign | hsign | hsign
          · exact (List.append_eq_nil_iff.mp hsign).1
          · exact cut_singleton hsign.symm hv
          · exact cut_singleton hsign.symm hv
        exact .inr ⟨e, [], he, .inl rfl, by rw [hempty]⟩

/-! ## reading the front of a number -/

/-- `readNumber` stops where `readWhole` does. -/
theorem readNumber_of_whole_error (h : readWhole atEnd cs = .error stop) :
    readNumber atEnd negative cs = .error stop := by
  simp only [readNumber, bind, Except.bind, h]

theorem readNumber_of_fraction_error (h : readWhole atEnd cs = .ok (ds, rest))
    (hfraction : readFraction atEnd rest = .error stop) :
    readNumber atEnd negative cs = .error stop := by
  simp only [readNumber, bind, Except.bind, h, hfraction]

theorem readNumber_of_exponent_error {fs v : List Char} (h : readWhole atEnd cs = .ok (ds, v))
    (hfraction : readFraction atEnd v = .ok (fs, rest))
    (hexponent : readExponent atEnd rest = .error stop) :
    readNumber atEnd negative cs = .error stop := by
  simp only [readNumber, bind, Except.bind, h, hfraction, hexponent]

/-- An exponent without digits is the end of the text. -/
theorem readExponent_of_mark {e : Char} {sign : List Char} (he : e = 'e' ∨ e = 'E')
    (hsign : sign = [] ∨ sign = ['+'] ∨ sign = ['-']) :
    readExponent atEnd (e :: sign) = .error (.next atEnd []) := by
  rw [readExponent, if_pos he]
  rcases hsign with rfl | rfl | rfl <;> rfl

/-- A number whose exponent lacks its digits is not read. -/
theorem readNumber_of_mark {whole f sign : List Char} {e : Char} (hwhole : Whole whole)
    (hf : Fraction f) (he : e = 'e' ∨ e = 'E') (hsign : sign = [] ∨ sign = ['+'] ∨ sign = ['-']) :
    readNumber atEnd negative (whole ++ (f ++ e :: sign)) = .error (.next atEnd []) := by
  have hdigit : NoDigit (e :: sign) := by
    rcases he with rfl | rfl <;> exact noDigit_cons (by decide)
  have hpoint : (e :: sign).head? ≠ some '.' := by
    rcases he with rfl | rfl <;> simp
  have hfrac : ∃ ds, readFraction atEnd (f ++ e :: sign) = .ok (ds, e :: sign) :=
    readFraction_of_fraction hf hdigit hpoint
  obtain ⟨ds, hfraction⟩ := hfrac
  have hread : readWhole atEnd (whole ++ (f ++ e :: sign)) = .ok (whole, f ++ e :: sign) :=
    readWhole_eq_ok_iff.mpr ⟨hwhole, noDigit_append_fraction hf hdigit, rfl⟩
  exact readNumber_of_exponent_error hread hfraction (readExponent_of_mark he hsign)

/-- The front of an `Unsigned` number is one, or it lacks digits and `readNumber` stops. -/
theorem Unsigned.of_append (h : Unsigned (front ++ back)) :
    Unsigned front ∨ (front = [] ∨ EndsInMark front) ∧
      ∀ atEnd negative, readNumber atEnd negative front = .error (.next atEnd []) := by
  obtain ⟨whole, f, x, hwhole, hf, hx, h⟩ := h
  rw [List.append_assoc] at h
  rcases cut_cases h.symm with ⟨r, rfl, hr⟩ | ⟨v, -, rfl, -⟩
  · rcases cut_cases hr with ⟨y, rfl, rfl⟩ | ⟨v, -, rfl, -⟩
    · rcases hx.of_append with hy | ⟨e, sign, he, hsign, rfl⟩
      · exact .inl ⟨whole, f, y, hwhole, hf, hy, (List.append_assoc ..).symm⟩
      · have hmark : EndsInMark (e :: sign) := by
          rcases hsign with rfl | rfl | rfl
          · exact ⟨[], e, by rcases he with rfl | rfl <;> simp, rfl⟩
          · exact ⟨[e], '+', by simp, rfl⟩
          · exact ⟨[e], '-', by simp, rfl⟩
        refine .inr ⟨.inr ((hmark.append f).append whole), fun atEnd negative => ?_⟩
        exact readNumber_of_mark hwhole hf he hsign
    · rcases hf.of_append with hr | rfl
      · exact .inl ⟨whole, r, [], hwhole, hr, .inl rfl, by rw [List.append_nil]⟩
      · refine .inr ⟨.inr ⟨whole, '.', by simp, rfl⟩, fun atEnd negative => ?_⟩
        have hread : readWhole atEnd (whole ++ ['.']) = .ok (whole, ['.']) :=
          readWhole_eq_ok_iff.mpr ⟨hwhole, noDigit_cons (by decide), rfl⟩
        exact readNumber_of_fraction_error hread rfl
  · by_cases hfront : front = []
    · rw [hfront]
      exact .inr ⟨.inl rfl, fun atEnd negative => readNumber_of_whole_error rfl⟩
    · exact .inl ⟨front, [], [], hwhole.of_append hfront, .inl rfl, .inl rfl, by simp⟩

theorem endsNumber_nil : EndsNumber [] := by
  simp [EndsNumber, NoDigit]

/-- The front of a number that is passed over is passed over as well, or refused,
which happens behind a mark. -/
theorem Unsigned.cut (h : Unsigned (front ++ back)) :
    (readNumber .invalidNumber negative front).map Prod.snd = .ok [] ∨
      (front = [] ∨ EndsInMark front) ∧
        NumberRefused ((readNumber .invalidNumber negative front).map Prod.snd) := by
  rcases h.of_append with hfront | ⟨hmark, herror⟩
  · obtain ⟨l, hread⟩ : ∃ l, readNumber .invalidNumber negative (front ++ []) = .ok (l, []) :=
      readNumber_of_unsigned hfront endsNumber_nil
    rw [List.append_nil] at hread
    exact .inl (map_readNumber_eq_ok_iff.mpr ⟨l, hread⟩)
  · rw [herror]
    exact .inr ⟨hmark, .of_error rfl⟩

/-! ## words, and all that is passed over as a scalar -/

/-- A word without its end is `CutOff`. -/
theorem cutOff_readWord (h : w = front ++ back) (hback : back ≠ []) :
    CutOff (readWord w front) := by
  induction front generalizing w with
  | nil =>
      obtain ⟨c, cs, rfl⟩ := List.exists_cons_of_ne_nil hback
      rw [h, List.nil_append]
      exact .of_error rfl
  | cons c front ih =>
      rw [h, List.cons_append, readWord, if_pos rfl]
      exact ih rfl

/-- The front of a `ScalarText` is a number that is passed over, or it is `CutShort`, which a number
is only behind a mark. -/
theorem ScalarText.cut (h : ScalarText w) (hw : w = front ++ back) (hfront : front ≠ [])
    (hback : back ≠ []) :
    skipScalar front = .ok [] ∨ CutShort (NumberText w ∧ EndsInMark front) (skipScalar front) := by
  obtain ⟨c, r, rfl⟩ := List.exists_cons_of_ne_nil hfront
  rw [List.cons_append] at hw
  cases h with
  | null =>
      obtain ⟨rfl, hr⟩ := List.cons.inj hw
      exact .inr (cutOff_readWord hr hback).cutShort
  | yes =>
      obtain ⟨rfl, hr⟩ := List.cons.inj hw
      exact .inr (cutOff_readWord hr hback).cutShort
  | no =>
      obtain ⟨rfl, hr⟩ := List.cons.inj hw
      exact .inr (cutOff_readWord hr hback).cutShort
  | unsigned hnumber =>
      have hc : c.isDigit = true := by
        obtain ⟨d, ds, rfl, hd⟩ := hnumber.exists_cons
        rwa [(List.cons.inj hw).1] at hd
      have hcut : Unsigned (c :: r ++ back) := by rwa [List.cons_append, ← hw]
      rw [skipScalar_of_isDigit hc]
      rcases hcut.cut with hskip | ⟨hmark, hrefused⟩
      · exact .inl hskip
      · exact .inr (.inr ⟨⟨.inl hnumber, hmark.resolve_left hfront⟩, hrefused⟩)
  | negative hnumber =>
      obtain ⟨rfl, rfl⟩ := List.cons.inj hw
      rcases hnumber.cut with hskip | ⟨hmark, hrefused⟩
      · exact .inl hskip
      · have hmark : EndsInMark ('-' :: r) := by
          rcases hmark with rfl | hmark
          · exact ⟨[], '-', by simp, rfl⟩
          · exact hmark.cons '-'
        exact .inr (.inr ⟨⟨.inr ⟨_, hnumber, rfl⟩, hmark⟩, hrefused⟩)
  | text htext =>
      obtain ⟨rfl, hr⟩ := List.cons.inj hw
      obtain ⟨x, hx⟩ := cut_before_last hr hback
      exact .inr (htext.cutOff hx).cutShort

/-- The front of a `NumberText` that `EndsInMark` is `NumberRefused`. -/
theorem NumberText.refused (h : NumberText (front ++ back)) (hmark : EndsInMark front) :
    NumberRefused (skipScalar front) := by
  obtain ⟨c, r, rfl⟩ : ∃ c r, front = c :: r :=
    List.exists_cons_of_ne_nil fun hnil => not_endsInMark_nil (hnil ▸ hmark)
  rcases h with hnumber | ⟨v, hnumber, hv⟩
  · have hc : c.isDigit = true := by
      obtain ⟨d, ds, hd, hdigit⟩ := hnumber.exists_cons
      rwa [← (List.cons.inj hd).1] at hdigit
    rcases hnumber.of_append with hfront | ⟨-, herror⟩
    · exact absurd hmark (hfront.not_endsInMark [])
    · rw [skipScalar_of_isDigit hc, herror]
      exact .of_error rfl
  · obtain ⟨rfl, rfl⟩ := List.cons.inj hv
    rcases hnumber.of_append with hfront | ⟨-, herror⟩
    · exact absurd hmark (hfront.not_endsInMark ['-'])
    · rw [skipScalar, herror]
      exact .of_error rfl

/-! ## the two fields of an entry -/

/-- What stops `readFound` stops `readId`. -/
theorem stopsFor_readId (h : StopsFor P (readFound cs)) : StopsFor P (readId cs) :=
  h.imp fun stop hstop => by simp only [readId, hstop]

theorem stopsFor_readValue (h : StopsFor P (readFound cs)) : StopsFor P (readValue cs) :=
  h.imp fun stop hstop => by simp only [readValue, hstop]

/-- Where a value is wanted, a `Gap` alone is `CutOff`. -/
theorem Gap.cutOff_readFound (h : Gap cs) : CutOff (readFound cs) := by
  rw [readFound, skipGap_eq_nil_iff.mpr h]
  exact .of_error rfl

/-- The front of an `IdText` is `CutOff`, or an id itself. -/
theorem IdText.cut {a i : List Char} {id : UInt64} (ha : Gap a) (hi : IdText i id)
    (h : a ++ i = front ++ back) : CutOff (readId front) ∨ ∃ id', readId front = .ok (id', []) := by
  rcases cut_cases h with ⟨r, rfl, rfl⟩ | ⟨v, -, rfl, -⟩
  · by_cases hr : r = []
    · rw [hr, List.append_nil]
      exact .inl (stopsFor_readId ha.cutOff_readFound)
    · obtain ⟨hwhole, hvalue⟩ := hi
      have hle : Nat.ofDigitChars 10 r 0 ≤ id.toNat := by
        rw [← hvalue, Nat.ofDigitChars_append]
        exact le_ofDigitChars back _
      have hid : IdText r (UInt64.ofNat (Nat.ofDigitChars 10 r 0)) := by
        refine ⟨hwhole.of_append hr, ?_⟩
        rw [UInt64.toNat_ofNat_of_lt' (Nat.lt_of_le_of_lt hle id.toNat_lt)]
      exact .inr ⟨_, readId_eq_ok_iff.mpr ⟨a, r, ha, hid, endsNumber_nil, by simp⟩⟩
  · exact .inl (stopsFor_readId ha.of_append_left.cutOff_readFound)

/-- The front of a `StringText` is `CutOff`. -/
theorem StringText.cutOff {a v : List Char} {s : String} (ha : Gap a) (hv : StringText v s)
    (h : a ++ v = front ++ back) (hback : back ≠ []) : CutOff (readValue front) := by
  rcases cut_cases h with ⟨r, rfl, hr⟩ | ⟨x, -, rfl, -⟩
  · obtain ⟨content, hcontent, rfl⟩ := hv
    rcases cut_cons hr with rfl | ⟨r, rfl, hend⟩
    · rw [List.append_nil]
      exact stopsFor_readValue ha.cutOff_readFound
    · have hskip : skipGap (a ++ '"' :: r) = '"' :: r := skipGap_append_cons ha (by decide) r
      obtain ⟨x, hx⟩ := cut_before_last hend hback
      refine stopsFor_readValue ((hcontent.cutOff hx).imp fun stop hstop => ?_)
      simp only [readFound, hskip, hstop]
  · exact stopsFor_readValue ha.of_append_left.cutOff_readFound

end PoolEnum.Table
