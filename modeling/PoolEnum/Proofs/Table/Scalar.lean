import PoolEnum.Proofs.Table.Number

/-!
# PoolEnum.Proofs.Table.Scalar

The id and the text of an entry: each is read iff it is written, after any
blanks, and is what is written.
-/

namespace PoolEnum.Table

variable {cs ds rest : List Char} {negative : Bool}

/-! ## words -/

/-- `readWord` takes exactly the word off. -/
theorem readWord_eq_ok_iff {word : List Char} : readWord word cs = .ok rest ↔ cs = word ++ rest := by
  induction word generalizing cs with
  | nil => simp [readWord]
  | cons w ws ih =>
      cases cs with
      | nil => simp [readWord]
      | cons c cs =>
          rw [readWord]
          split
          · next hc => simp [ih, hc]
          · next hc => simp [hc]

/-- `readFoundWord` tells what the word means, and nothing else. -/
theorem found_of_readFoundWord {f g : Found} {word : List Char}
    (h : readFoundWord f word cs = .ok (g, rest)) : g = f := by
  unfold readFoundWord at h
  cases hword : readWord word cs with
  | error stop => simp [hword, Except.map] at h
  | ok r =>
      simp only [hword, Except.map, Except.ok.injEq, Prod.mk.injEq] at h
      exact h.1.symm

/-! ## what stands at a place -/

/-- `readFoundNumber` tells a natural number iff its digits are there and 64 bits hold it. -/
theorem readFoundNumber_eq_natural_iff {n : Nat} :
    readFoundNumber negative cs = .ok (.integer (.ofNat n), rest) ↔
      negative = false ∧ ∃ ds, Whole ds ∧ Nat.ofDigitChars 10 ds 0 = n ∧ n ≤ maxWord ∧
        EndsNumber rest ∧ cs = ds ++ rest := by
  constructor
  · intro h
    unfold readFoundNumber at h
    split at h
    · next l rest' hread =>
      split at h
      · next f hfound =>
        simp only [Except.ok.injEq, Prod.mk.injEq] at h
        obtain ⟨rfl, rfl⟩ := h
        obtain ⟨hl, hn, hmax⟩ := Literal.found_eq_natural_iff.mp hfound
        have hsign : l.negative = negative := by
          obtain ⟨_, _, _, _, _, hsign⟩ := readNumber_eq_ok_iff.mp hread
          exact hsign
        rw [hl] at hsign
        refine ⟨hsign.symm, l.whole, ?_⟩
        rw [hl, ← hsign] at hread
        obtain ⟨hds, hrest, hcs⟩ := readNumber_eq_ok_whole_iff.mp hread
        exact ⟨hds, hn, hmax, hrest, hcs⟩
      · contradiction
    · contradiction
  · intro h
    obtain ⟨rfl, ds, hds, hn, hmax, hrest, hcs⟩ := h
    rw [readFoundNumber, readNumber_eq_ok_whole_iff.mpr ⟨hds, hrest, hcs⟩]
    dsimp only
    rw [Literal.found_eq_natural_iff.mpr ⟨rfl, hn, hmax⟩]

/-- `readFoundNumber` never tells a text. -/
theorem readFoundNumber_ne_text (s : String) :
    readFoundNumber negative cs ≠ .ok (.text s, rest) := by
  intro h
  unfold readFoundNumber at h
  split at h
  · next l rest' _ =>
    split at h
    · next f hfound =>
      simp only [Except.ok.injEq, Prod.mk.injEq] at h
      rw [h.1] at hfound
      exact l.found_ne_text rest' s hfound
    · contradiction
  · contradiction

/-- A digit is no blank. -/
theorem isGap_of_isDigit {c : Char} (hc : c.isDigit = true) : isGap c = false := by
  cases hg : isGap c with
  | false => rfl
  | true => rcases isGap_iff.mp hg with rfl | rfl | rfl | rfl <;> simp at hc

/-- `readFound` at a digit reads a number without a sign. -/
theorem readFound_of_isDigit {c : Char} (hc : c.isDigit = true)
    (h : skipGap cs = c :: rest) : readFound cs = readFoundNumber false (c :: rest) := by
  unfold readFound
  rw [h]
  split
  all_goals next heq => simp_all

/-- `readFound` tells a natural number iff its digits are there. -/
theorem readFound_eq_natural_iff {n : Nat} :
    readFound cs = .ok (.integer (.ofNat n), rest) ↔
      ∃ a ds, Gap a ∧ Whole ds ∧ Nat.ofDigitChars 10 ds 0 = n ∧ n ≤ maxWord ∧
        EndsNumber rest ∧ cs = a ++ ds ++ rest := by
  constructor
  · intro h
    unfold readFound at h
    split at h
    · contradiction
    · exact absurd (found_of_readFoundWord h) (by simp)
    · exact absurd (found_of_readFoundWord h) (by simp)
    · exact absurd (found_of_readFoundWord h) (by simp)
    · exact absurd (readFoundNumber_eq_natural_iff.mp h).1 (by simp)
    · split at h <;> simp at h
    · simp at h
    · simp at h
    · next c rest' _ _ _ _ _ _ _ hskip =>
      split at h
      · obtain ⟨_, ds, hds, hn, hmax, hrest, hcs⟩ := readFoundNumber_eq_natural_iff.mp h
        obtain ⟨_, a, ha, rfl⟩ := skipGap_eq_cons_iff.mp hskip
        exact ⟨a, ds, ha, hds, hn, hmax, hrest, by rw [hcs, List.append_assoc]⟩
      · contradiction
  · intro h
    obtain ⟨a, ds, ha, hds, hn, hmax, hrest, rfl⟩ := h
    obtain ⟨c, cs, hcs, hc⟩ := hds.exists_cons
    have hskip : skipGap (a ++ ds ++ rest) = c :: (cs ++ rest) := by
      rw [List.append_assoc, hcs, List.cons_append,
        skipGap_append_cons ha (isGap_of_isDigit hc)]
    rw [readFound_of_isDigit hc hskip, readFoundNumber_eq_natural_iff]
    exact ⟨rfl, ds, hds, hn, hmax, hrest, by rw [hcs, List.cons_append]⟩

/-- `readFound` tells a text iff its string is there. -/
theorem readFound_eq_text_iff {s : String} :
    readFound cs = .ok (.text s, rest) ↔ ∃ a w, Gap a ∧ StringText w s ∧ cs = a ++ w ++ rest := by
  constructor
  · intro h
    unfold readFound at h
    split at h
    · contradiction
    · exact absurd (found_of_readFoundWord h) (by simp)
    · exact absurd (found_of_readFoundWord h) (by simp)
    · exact absurd (found_of_readFoundWord h) (by simp)
    · exact absurd h (readFoundNumber_ne_text s)
    · next rest' hskip =>
      obtain ⟨_, a, ha, rfl⟩ := skipGap_eq_cons_iff.mp hskip
      split at h
      · next text rest'' htext =>
        simp only [Except.ok.injEq, Prod.mk.injEq, Found.text.injEq] at h
        obtain ⟨rfl, rfl⟩ := h
        obtain ⟨w, hw, rfl⟩ := readText_eq_ok_iff.mp htext
        refine ⟨a, '"' :: w ++ ['"'], ha, ⟨w, ?_, rfl⟩, by simp⟩
        rw [String.toList_ofList]
        exact hw
      · contradiction
    · simp at h
    · simp at h
    · split at h
      · exact absurd h (readFoundNumber_ne_text s)
      · contradiction
  · intro h
    obtain ⟨a, w, ha, ⟨content, hcontent, rfl⟩, rfl⟩ := h
    have hskip : skipGap (a ++ ('"' :: content ++ ['"']) ++ rest) =
        '"' :: (content ++ '"' :: rest) := by
      rw [List.append_assoc, List.cons_append, List.cons_append,
        skipGap_append_cons ha (by decide), List.append_assoc, List.singleton_append]
    have htext : readText (content ++ '"' :: rest) = .ok (s.toList, rest) :=
      readText_eq_ok_iff.mpr ⟨content, hcontent, rfl⟩
    simp only [readFound, hskip, htext, String.ofList_toList]

/-! ## the two fields of an entry -/

/-- `readId` gives the ids that `IdText` describes. -/
theorem readId_eq_ok_iff {id : UInt64} :
    readId cs = .ok (id, rest) ↔
      ∃ a w, Gap a ∧ IdText w id ∧ EndsNumber rest ∧ cs = a ++ w ++ rest := by
  constructor
  · intro h
    unfold readId at h
    split at h
    · next n rest' hfound =>
      simp only [Except.ok.injEq, Prod.mk.injEq] at h
      obtain ⟨rfl, rfl⟩ := h
      obtain ⟨a, ds, ha, hds, hn, hmax, hrest, hcs⟩ := readFound_eq_natural_iff.mp hfound
      refine ⟨a, ds, ha, ⟨hds, ?_⟩, hrest, hcs⟩
      rw [UInt64.toNat_ofNat_of_lt', hn]
      exact Nat.lt_of_le_pred (by decide) hmax
    · contradiction
    · contradiction
  · intro h
    obtain ⟨a, w, ha, ⟨hw, hid⟩, hrest, hcs⟩ := h
    have hmax : id.toNat ≤ maxWord := Nat.le_pred_of_lt id.toNat_lt
    rw [readId, readFound_eq_natural_iff.mpr ⟨a, w, ha, hw, hid, hmax, hrest, hcs⟩]
    simp only [UInt64.ofNat_toNat]

/-- `readValue` gives the texts that `StringText` describes. -/
theorem readValue_eq_ok_iff {s : String} :
    readValue cs = .ok (s, rest) ↔
      ∃ a w, Gap a ∧ StringText w s ∧ cs = a ++ w ++ rest := by
  constructor
  · intro h
    unfold readValue at h
    split at h
    · next text rest' hfound =>
      simp only [Except.ok.injEq, Prod.mk.injEq] at h
      obtain ⟨rfl, rfl⟩ := h
      exact readFound_eq_text_iff.mp hfound
    · contradiction
    · contradiction
  · intro h
    rw [readValue, readFound_eq_text_iff.mpr h]

end PoolEnum.Table
