import PoolEnum.Proofs.Table.Text

/-!
# PoolEnum.Proofs.Table.Cut.Text

Strings of which only the front is there.

What a rule writes is cut into a front and a back that is not empty, and its
reader is given the front alone. `StopsFor` says for which kind of cause a reader
stops, so that one lemma tells how a stop is handed on, whatever its cause. A
string always stops at the end of the text.
-/

namespace PoolEnum.Table

variable {P : Cause → Prop} {cs rest front back : List Char}

/-! ## stops -/

/-- Reading stopped, for a cause with `P`. -/
def StopsFor {α : Type} (P : Cause → Prop) (result : Except Stop α) : Prop :=
  ∃ stop, result = .error stop ∧ P stop.cause

/-- Reading stopped because the text ends too early. -/
def CutOff {α : Type} (result : Except Stop α) : Prop :=
  StopsFor (fun cause => cause.category = .cutOff) result

theorem StopsFor.of_error {α : Type} {stop : Stop} (h : P stop.cause) :
    StopsFor P (.error stop : Except Stop α) :=
  ⟨stop, rfl, h⟩

/-- Where another reader hands on what stopped this one, it `StopsFor` the same. -/
theorem StopsFor.imp {α β : Type} {result : Except Stop α} {result' : Except Stop β}
    (h : StopsFor P result) (herror : ∀ stop, result = .error stop → result' = .error stop) :
    StopsFor P result' := by
  obtain ⟨stop, hresult, hP⟩ := h
  exact ⟨stop, herror stop hresult, hP⟩

/-! ## where a cut falls -/

/-- A cut falls behind a part of the text, or inside of it. -/
theorem cut_cases {u t : List Char} (h : u ++ t = front ++ back) :
    (∃ r, front = u ++ r ∧ t = r ++ back) ∨ ∃ v, v ≠ [] ∧ u = front ++ v ∧ back = v ++ t := by
  rcases List.append_eq_append_iff.mp h with ⟨r, hfront, ht⟩ | ⟨v, hu, hback⟩
  · exact .inl ⟨r, hfront, ht⟩
  · cases v with
    | nil => exact .inl ⟨[], by simpa using hu.symm, by simpa using hback.symm⟩
    | cons c v => exact .inr ⟨c :: v, by simp, hu, hback⟩

/-- A cut falls in front of the first character, or behind it. -/
theorem cut_cons {c : Char} {u : List Char} (h : c :: u = front ++ back) :
    front = [] ∨ ∃ r, front = c :: r ∧ u = r ++ back := by
  rcases List.cons_eq_append_iff.mp h with ⟨hfront, -⟩ | hcons
  · exact .inl hfront
  · exact .inr hcons

theorem cut_singleton {c : Char} (h : [c] = front ++ back) (hback : back ≠ []) : front = [] := by
  rcases List.singleton_eq_append_iff.mp h with ⟨hfront, -⟩ | ⟨-, hnil⟩
  · exact hfront
  · exact absurd hnil hback

/-- A cut falls behind a character of the text, or into what stands before it. -/
theorem cut_at {c : Char} {u t : List Char} (h : u ++ c :: t = front ++ back) :
    (∃ r, front = u ++ c :: r ∧ t = r ++ back) ∨ ∃ v, u = front ++ v ∧ back = v ++ c :: t := by
  rcases cut_cases h with ⟨r, rfl, hr⟩ | ⟨v, -, rfl, rfl⟩
  · rcases cut_cons hr with rfl | ⟨r, rfl, rfl⟩
    · exact .inr ⟨[], by simp, hr.symm⟩
    · exact .inl ⟨r, rfl, rfl⟩
  · exact .inr ⟨v, rfl, rfl⟩

/-- A cut in front of the last character falls into what stands before it. -/
theorem cut_before_last {c : Char} {u : List Char} (h : u ++ [c] = front ++ back)
    (hback : back ≠ []) : ∃ v, u = front ++ v := by
  rcases cut_at h with ⟨r, -, hr⟩ | ⟨v, hv, -⟩
  · exact absurd (List.append_eq_nil_iff.mp hr.symm).2 hback
  · exact ⟨v, hv⟩

/-! ## blanks -/

/-- The front of a `Gap` is a `Gap`. -/
theorem Gap.of_append_left {v w : List Char} (h : Gap (v ++ w)) : Gap v :=
  fun c hc => h c (List.mem_append_left w hc)

/-! ## code units -/

/-- A `HexDigit` is one byte. -/
theorem utf8Size_of_hexDigit {c : Char} {n : Nat} (h : HexDigit c n) : c.utf8Size = 1 := by
  have hall : ∀ n < 16, n.digitChar.utf8Size = 1 ∧ n.digitChar.toUpper.utf8Size = 1 := by decide
  obtain ⟨hn, hc⟩ := h
  cases hc with
  | inl hc => rw [hc, (hall n hn).1]
  | inr hc => rw [hc, (hall n hn).2]

/-- The characters of a `UnitText` are one byte each. -/
theorem utf8Size_of_mem_unitText {w : List Char} {n : Nat} {c : Char} (h : UnitText w n)
    (hc : c ∈ w) : c.utf8Size = 1 := by
  obtain ⟨a, b, c', d, i, j, k, l, rfl, ha, hb, hc', hd, -⟩ := h
  simp only [List.mem_cons, List.not_mem_nil, or_false] at hc
  rcases hc with rfl | rfl | rfl | rfl
  · exact utf8Size_of_hexDigit ha
  · exact utf8Size_of_hexDigit hb
  · exact utf8Size_of_hexDigit hc'
  · exact utf8Size_of_hexDigit hd

/-- Characters of one byte each are as many as their bytes. -/
theorem byteSize_eq_length (h : ∀ c ∈ cs, c.utf8Size = 1) : byteSize cs = cs.length := by
  induction cs with
  | nil => rfl
  | cons c cs ih =>
      have hcs := ih fun d hd => h d (List.mem_cons_of_mem c hd)
      have hc := h c List.mem_cons_self
      rw [byteSize] at hcs ⊢
      rw [List.foldr_cons, hcs, hc, List.length_cons, Nat.add_comm]

/-- `readUnit` of fewer than four digits is the end of the text. -/
theorem readUnit_of_length_lt (hlength : cs.length < 4) (hsize : ∀ c ∈ cs, c.utf8Size = 1) :
    readUnit cs = .error (.here .endOfString []) := by
  have hfault : unitFault cs = .here .endOfString [] := by
    rw [unitFault, if_pos (by rwa [byteSize_eq_length hsize])]
  unfold readUnit
  split
  · next a b c d r =>
    simp only [List.length_cons] at hlength
    omega
  · rw [hfault]

/-- The front of a `UnitText` is `CutOff`. -/
theorem UnitText.cutOff {n : Nat} (h : UnitText (front ++ back) n) (hback : back ≠ []) :
    CutOff (readUnit front) := by
  have hlength : (front ++ back).length = 4 := by
    obtain ⟨a, b, c, d, i, j, k, l, heq, -⟩ := h
    rw [heq]
    rfl
  have hpos := List.length_pos_iff.mpr hback
  rw [List.length_append] at hlength
  rw [readUnit_of_length_lt (by omega)]
  · exact .of_error rfl
  · exact fun c hc => utf8Size_of_mem_unitText h (List.mem_append_left back hc)

/-! ## strings that are wanted -/

/-- What stops the second code unit stops `readPartner`. -/
theorem stopsFor_readPartner {high : Nat} (h : StopsFor P (readUnit cs)) :
    StopsFor P (readPartner high ('\\' :: 'u' :: cs)) :=
  h.imp fun stop hstop => by simp only [readPartner, hstop]

theorem stopsFor_readUnits (h : StopsFor P (readUnit cs)) : StopsFor P (readUnits cs) :=
  h.imp fun stop hstop => by simp only [readUnits, hstop]

/-- What stops the second half of a pair stops `readUnits`. -/
theorem stopsFor_readUnits_of_high {high : Nat} (hunit : readUnit cs = .ok (high, rest))
    (hhigh : 0xD800 ≤ high ∧ high ≤ 0xDBFF) (h : StopsFor P (readPartner high rest)) :
    StopsFor P (readUnits cs) := by
  have hnot : isLowSurrogate high = false := isLowSurrogate_eq_false_iff.mpr (by omega)
  have his : isHighSurrogate high = true := isHighSurrogate_iff.mpr hhigh
  refine h.imp fun stop hstop => ?_
  simp only [readUnits, hunit, hnot, his, hstop, Bool.false_eq_true, if_false, if_true]

theorem stopsFor_readPiece (h : StopsFor P (readUnits cs)) :
    StopsFor P (readPiece ('\\' :: 'u' :: cs)) :=
  h.imp fun stop hstop => by simp only [readPiece, readEscape, hstop]

/-- The second half of a pair is `CutOff`, wherever the cut is. -/
theorem cutOff_readPartner {v : List Char} {high low : Nat} (hv : UnitText v low)
    (h : '\\' :: 'u' :: v = front ++ back) (hback : back ≠ []) :
    CutOff (readPartner high front) := by
  rcases cut_cons h with rfl | ⟨r, rfl, hr⟩
  · exact .of_error rfl
  · rcases cut_cons hr with rfl | ⟨r, rfl, rfl⟩
    · exact .of_error rfl
    · exact stopsFor_readPartner (hv.cutOff hback)

/-- A pair is `CutOff`, in either half. -/
theorem cutOff_readUnits_of_pair {w v : List Char} {high low : Nat} (hw : UnitText w high)
    (hhigh : 0xD800 ≤ high ∧ high ≤ 0xDBFF) (hv : UnitText v low)
    (h : w ++ '\\' :: 'u' :: v = front ++ back) (hback : back ≠ []) :
    CutOff (readUnits front) := by
  rcases cut_cases h with ⟨r, rfl, hr⟩ | ⟨x, hx, rfl, -⟩
  · have hunit : readUnit (w ++ r) = .ok (high, r) := readUnit_eq_ok_iff.mpr ⟨w, hw, rfl⟩
    exact stopsFor_readUnits_of_high hunit hhigh (cutOff_readPartner hv hr hback)
  · exact stopsFor_readUnits (hw.cutOff hx)

/-- The front of a `PieceText` is `CutOff`. -/
theorem PieceText.cutOff {w : List Char} {c : Char} (hw : PieceText w c) (h : w = front ++ back)
    (hback : back ≠ []) : CutOff (readPiece front) := by
  -- without its first character a piece begins with no backslash, and is whole
  cases hw with
  | plain hle hquote hbackslash =>
      rw [cut_singleton h hback]
      exact .of_error rfl
  | short he =>
      rcases cut_cons h with rfl | ⟨r, rfl, hr⟩
      · exact .of_error rfl
      · rw [cut_singleton hr hback]
        exact .of_error rfl
  | unit hw hn =>
      rcases cut_cons h with rfl | ⟨r, rfl, hr⟩
      · exact .of_error rfl
      · rcases cut_cons hr with rfl | ⟨r, rfl, rfl⟩
        · exact .of_error rfl
        · exact stopsFor_readPiece (stopsFor_readUnits (hw.cutOff hback))
  | @pair w v high low hw hhigh hhigh' hv hlow hlow' =>
      have h : '\\' :: 'u' :: (w ++ '\\' :: 'u' :: v) = front ++ back := h
      rcases cut_cons h with rfl | ⟨r, rfl, hr⟩
      · exact .of_error rfl
      · rcases cut_cons hr with rfl | ⟨r, rfl, hpair⟩
        · exact .of_error rfl
        · have hunits := cutOff_readUnits_of_pair hw ⟨hhigh, hhigh'⟩ hv hpair hback
          exact stopsFor_readPiece hunits

/-- What stops the first piece of a string stops `readText`. -/
theorem stopsFor_readText (h : StopsFor P (readPiece cs)) : StopsFor P (readText cs) :=
  h.imp fun stop hstop => by rw [readText_eq, hstop]

theorem stopsFor_readText_of_piece {c : Char} (hpiece : readPiece cs = .ok (some c, rest))
    (h : StopsFor P (readText rest)) : StopsFor P (readText cs) :=
  h.imp fun stop hstop => by rw [readText_eq, hpiece]; simp only [hstop]

/-- Without its closing quote a string is `CutOff`. -/
theorem ContentText.cutOff {w text : List Char} (hw : ContentText w text)
    (h : w = front ++ back) : CutOff (readText front) := by
  induction hw generalizing front with
  | nil =>
      rw [(List.append_eq_nil_iff.mp h.symm).1]
      exact stopsFor_readText (.of_error rfl)
  | @cons w v text c hw _ ih =>
      rcases cut_cases h with ⟨r, rfl, hr⟩ | ⟨x, hx, rfl, -⟩
      · have hpiece : readPiece (w ++ r) = .ok (some c, r) :=
          readPiece_eq_ok_some_iff.mpr ⟨w, hw, rfl⟩
        exact stopsFor_readText_of_piece hpiece (ih hr)
      · exact stopsFor_readText (hw.cutOff rfl hx)

/-! ## strings that are passed over -/

/-- What stops a code unit stops `skipPiece`. -/
theorem stopsFor_skipPiece (h : StopsFor P (readUnit cs)) :
    StopsFor P (skipPiece ('\\' :: 'u' :: cs)) :=
  h.imp fun stop hstop => by simp only [skipPiece, skipEscape, hstop, Except.map]

/-- The front of a `LoosePiece` is `CutOff`. -/
theorem LoosePiece.cutOff {w : List Char} (hw : LoosePiece w) (h : w = front ++ back)
    (hback : back ≠ []) : CutOff (skipPiece front) := by
  cases hw with
  | plain hle hquote hbackslash =>
      rw [cut_singleton h hback]
      exact .of_error rfl
  | short he =>
      rcases cut_cons h with rfl | ⟨r, rfl, hr⟩
      · exact .of_error rfl
      · rw [cut_singleton hr hback]
        exact .of_error rfl
  | unit hw =>
      rcases cut_cons h with rfl | ⟨r, rfl, hr⟩
      · exact .of_error rfl
      · rcases cut_cons hr with rfl | ⟨r, rfl, rfl⟩
        · exact .of_error rfl
        · exact stopsFor_skipPiece (hw.cutOff hback)

/-- What stops the first piece of a string stops `skipText`. -/
theorem stopsFor_skipText (h : StopsFor P (skipPiece cs)) : StopsFor P (skipText cs) :=
  h.imp fun stop hstop => by rw [skipText_eq, hstop]

/-- Without its closing quote a string that is passed over is `CutOff`. -/
theorem LooseText.cutOff {w : List Char} (hw : LooseText w) (h : w = front ++ back) :
    CutOff (skipText front) := by
  induction hw generalizing front with
  | nil =>
      rw [(List.append_eq_nil_iff.mp h.symm).1]
      exact stopsFor_skipText (.of_error rfl)
  | @cons w v hw _ ih =>
      rcases cut_cases h with ⟨r, rfl, hr⟩ | ⟨x, hx, rfl, -⟩
      · have hpiece : skipPiece (w ++ r) = .ok (true, r) :=
          skipPiece_eq_ok_true_iff.mpr ⟨w, hw, rfl⟩
        rw [skipText_of_piece hpiece]
        exact ih hr
      · exact stopsFor_skipText (hw.cutOff rfl hx)

end PoolEnum.Table
