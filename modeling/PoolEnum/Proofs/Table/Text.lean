import Mathlib.Data.List.TakeWhile
import PoolEnum.Proofs.Table.Grammar

/-!
# PoolEnum.Proofs.Table.Text

Blanks and strings: the readers accept what the rules describe, and nothing
else.

Blanks and strings show by themselves where they end, so each reader is
described by one equivalence, whatever text follows.
-/

namespace PoolEnum.Table

variable {cs rest : List Char}

/-! ## blanks -/

/-- The four blanks that `isGap` tells. -/
theorem isGap_iff {c : Char} :
    isGap c = true ↔ c = ' ' ∨ c = '\t' ∨ c = '\n' ∨ c = '\r' := by
  simp [isGap, or_assoc]

/-- A text is a `Gap` iff `isGap` tells so of each of its characters. -/
theorem gap_iff {w : List Char} : Gap w ↔ ∀ c ∈ w, isGap c = true := by
  simp only [Gap, isGap_iff]

theorem gap_nil : Gap [] := by
  simp [Gap]

/-- Two gaps are one `Gap`. -/
theorem Gap.append {v w : List Char} (hv : Gap v) (hw : Gap w) : Gap (v ++ w) := by
  intro c hc
  cases List.mem_append.mp hc with
  | inl h => exact hv c h
  | inr h => exact hw c h

/-- A `Gap` in front makes no difference to `skipGap`. -/
theorem skipGap_append {a : List Char} (h : Gap a) (cs : List Char) :
    skipGap (a ++ cs) = skipGap cs :=
  List.dropWhile_append_of_pos (gap_iff.mp h)

/-- `skipGap` takes nothing off a text that does not begin with a blank. -/
theorem skipGap_cons {c : Char} (h : isGap c = false) (cs : List Char) :
    skipGap (c :: cs) = c :: cs :=
  List.dropWhile_cons_of_neg (by simp [h])

/-- `skipGap` takes a `Gap` off up to the first character that is no blank. -/
theorem skipGap_append_cons {a : List Char} {c : Char} (ha : Gap a) (hc : isGap c = false)
    (cs : List Char) : skipGap (a ++ c :: cs) = c :: cs := by
  rw [skipGap_append ha, skipGap_cons hc]

/-- What `skipGap` takes off is a `Gap`. -/
theorem exists_gap (cs : List Char) : ∃ a, Gap a ∧ cs = a ++ skipGap cs := by
  refine ⟨cs.takeWhile isGap, ?_, List.takeWhile_append_dropWhile.symm⟩
  exact gap_iff.mpr fun c hc => List.mem_takeWhile_imp hc

/-- `skipGap` comes to a character iff only a `Gap` is in front of it. -/
theorem skipGap_eq_cons_iff {c : Char} :
    skipGap cs = c :: rest ↔ isGap c = false ∧ ∃ a, Gap a ∧ cs = a ++ c :: rest := by
  constructor
  · intro h
    refine ⟨?_, ?_⟩
    · have hhead := List.head?_dropWhile_not isGap cs
      rw [← skipGap, h] at hhead
      exact hhead
    · obtain ⟨a, ha, hcs⟩ := exists_gap cs
      exact ⟨a, ha, h ▸ hcs⟩
  · intro h
    obtain ⟨hc, a, ha, rfl⟩ := h
    exact skipGap_append_cons ha hc rest

/-- The same as `skipGap_eq_cons_iff`, for a character that is known to be no blank. -/
theorem exists_gap_cons_iff {c : Char} (hc : isGap c = false) :
    (∃ a, Gap a ∧ cs = a ++ c :: rest) ↔ skipGap cs = c :: rest := by
  rw [skipGap_eq_cons_iff]
  exact (and_iff_right hc).symm

/-- `skipGap` uses a text up iff that is a `Gap`. -/
theorem skipGap_eq_nil_iff : skipGap cs = [] ↔ Gap cs := by
  rw [skipGap, List.dropWhile_eq_nil_iff, gap_iff]

/-! ## code units and short escapes -/

/-- `hexDigit` tells digits only. -/
theorem hexDigit_sound {c : Char} {n : Nat} (h : hexDigit c = some n) : HexDigit c n := by
  have hcode (low high : Char) (hc : low ≤ c ∧ c ≤ high) :
      low.toNat ≤ c.toNat ∧ c.toNat ≤ high.toNat := by
    rw [Char.le_def, Char.le_def, UInt32.le_iff_toNat_le, UInt32.le_iff_toNat_le] at hc
    exact hc
  have hdecimal : ∀ n < 10, Char.ofNat (48 + n) = n.digitChar := by decide
  have hsmall : ∀ n < 16, 10 ≤ n → Char.ofNat (87 + n) = n.digitChar := by decide
  have hcapital : ∀ n < 16, 10 ≤ n → Char.ofNat (55 + n) = n.digitChar.toUpper := by decide
  rw [← Char.ofNat_toNat c]
  unfold hexDigit at h
  split at h
  · next hc =>
    obtain ⟨hlow, hhigh⟩ : 48 ≤ c.toNat ∧ c.toNat ≤ 57 := hcode _ _ hc
    obtain rfl := Option.some.inj h
    refine ⟨by omega, .inl ?_⟩
    rw [← hdecimal _ (by omega), Nat.add_sub_cancel' hlow]
  · split at h
    · next hc =>
      obtain ⟨hlow, hhigh⟩ : 97 ≤ c.toNat ∧ c.toNat ≤ 102 := hcode _ _ hc
      obtain rfl := Option.some.inj h
      refine ⟨by omega, .inl ?_⟩
      rw [← hsmall _ (by omega) (by omega), Nat.add_sub_cancel' (by omega)]
    · split at h
      · next hc =>
        obtain ⟨hlow, hhigh⟩ : 65 ≤ c.toNat ∧ c.toNat ≤ 70 := hcode _ _ hc
        obtain rfl := Option.some.inj h
        refine ⟨by omega, .inr ?_⟩
        rw [← hcapital _ (by omega) (by omega), Nat.add_sub_cancel' (by omega)]
      · contradiction

/-- `hexDigit` tells the digits that `HexDigit` describes, with their values. -/
theorem hexDigit_eq_some_iff {c : Char} {n : Nat} : hexDigit c = some n ↔ HexDigit c n := by
  constructor
  · exact hexDigit_sound
  · intro h
    obtain ⟨hn, hc⟩ := h
    have hall : ∀ n < 16, hexDigit n.digitChar = some n ∧ hexDigit n.digitChar.toUpper = some n := by
      decide
    cases hc with
    | inl hc => rw [hc, (hall n hn).1]
    | inr hc => rw [hc, (hall n hn).2]

/-- `shortEscape` tells the escapes that `ShortEscape` describes. -/
theorem shortEscape_eq_some_iff {c e : Char} : shortEscape c = some e ↔ ShortEscape c e := by
  constructor
  · intro h
    unfold shortEscape at h
    split at h
    all_goals simp only [Option.some.injEq, reduceCtorEq] at h
    all_goals subst h; simp [ShortEscape]
  · intro h
    simp only [ShortEscape, List.mem_cons, Prod.mk.injEq, List.not_mem_nil, or_false] at h
    rcases h with h | h | h | h | h | h | h | h
    all_goals rw [h.1, h.2]; rfl

/-- `readUnit` reads the code units that `UnitText` describes. -/
theorem readUnit_eq_ok_iff {n : Nat} :
    readUnit cs = .ok (n, rest) ↔ ∃ w, UnitText w n ∧ cs = w ++ rest := by
  constructor
  · intro h
    unfold readUnit at h
    split at h
    · next a b c d rest' =>
      split at h
      · next m hm =>
        simp only [Except.ok.injEq, Prod.mk.injEq] at h
        obtain ⟨rfl, rfl⟩ := h
        simp only [hexUnit, bind, Option.bind_eq_some_iff, pure, Option.some.injEq] at hm
        obtain ⟨i, hi, j, hj, k, hk, l, hl, rfl⟩ := hm
        rw [hexDigit_eq_some_iff] at hi hj hk hl
        exact ⟨[a, b, c, d], ⟨a, b, c, d, i, j, k, l, rfl, hi, hj, hk, hl, by omega⟩, rfl⟩
      · contradiction
    · contradiction
  · intro h
    obtain ⟨w, ⟨a, b, c, d, i, j, k, l, rfl, hi, hj, hk, hl, rfl⟩, rfl⟩ := h
    have hunit : hexUnit a b c d = some (((i * 16 + j) * 16 + k) * 16 + l) := by
      simp only [hexUnit, hexDigit_eq_some_iff.mpr hi, hexDigit_eq_some_iff.mpr hj,
        hexDigit_eq_some_iff.mpr hk, hexDigit_eq_some_iff.mpr hl, bind, Option.bind_some, pure, Option.some.injEq]
      omega
    simp [readUnit, hunit]

/-! ## strings that are wanted -/

/-- The range that `isLowSurrogate` tells. -/
theorem isLowSurrogate_iff {n : Nat} : isLowSurrogate n = true ↔ 0xDC00 ≤ n ∧ n ≤ 0xDFFF := by
  simp only [isLowSurrogate, Bool.and_eq_true, decide_eq_true_eq]

theorem isHighSurrogate_iff {n : Nat} : isHighSurrogate n = true ↔ 0xD800 ≤ n ∧ n ≤ 0xDBFF := by
  simp only [isHighSurrogate, Bool.and_eq_true, decide_eq_true_eq]

theorem isLowSurrogate_eq_false_iff {n : Nat} :
    isLowSurrogate n = false ↔ ¬ (0xDC00 ≤ n ∧ n ≤ 0xDFFF) := by
  rw [← isLowSurrogate_iff, Bool.not_eq_true]

theorem isHighSurrogate_eq_false_iff {n : Nat} :
    isHighSurrogate n = false ↔ ¬ (0xD800 ≤ n ∧ n ≤ 0xDBFF) := by
  rw [← isHighSurrogate_iff, Bool.not_eq_true]

/-- `readPartner` reads the low surrogate of a pair, and the pair is one character. -/
theorem readPartner_eq_ok_iff {high : Nat} {c : Char} :
    readPartner high cs = .ok (c, rest) ↔
      ∃ v low, UnitText v low ∧ 0xDC00 ≤ low ∧ low ≤ 0xDFFF ∧
        cs = '\\' :: 'u' :: v ++ rest ∧ c = pairChar high low := by
  constructor
  · intro h
    unfold readPartner at h
    split at h
    · contradiction
    · contradiction
    · next cs =>
      split at h
      · next low rest' hu =>
        split at h
        · next hlow =>
          simp only [Except.ok.injEq, Prod.mk.injEq] at h
          obtain ⟨rfl, rfl⟩ := h
          obtain ⟨v, hv, rfl⟩ := readUnit_eq_ok_iff.mp hu
          rw [isLowSurrogate_iff] at hlow
          exact ⟨v, low, hv, hlow.1, hlow.2, rfl, rfl⟩
        · contradiction
      · contradiction
    · contradiction
    · contradiction
  · intro h
    obtain ⟨v, low, hv, hle, hle', hcs, hc⟩ := h
    rw [hcs, hc]
    have hu : readUnit (v ++ rest) = .ok (low, rest) := readUnit_eq_ok_iff.mpr ⟨v, hv, rfl⟩
    have hlow : isLowSurrogate low = true := isLowSurrogate_iff.mpr ⟨hle, hle'⟩
    simp only [List.cons_append, readPartner, hu, hlow, if_true]

/-- What `readUnits` reads behind the first mark of an escape is a `PieceText`. -/
theorem pieceText_of_readUnits {c : Char} (h : readUnits cs = .ok (c, rest)) :
    ∃ w, PieceText ('\\' :: 'u' :: w) c ∧ cs = w ++ rest := by
  unfold readUnits at h
  split at h
  · next n rest' hu =>
    obtain ⟨w, hw, rfl⟩ := readUnit_eq_ok_iff.mp hu
    split at h
    · contradiction
    · next hlow =>
      rw [isLowSurrogate_iff] at hlow
      split at h
      · next hhigh =>
        rw [isHighSurrogate_iff] at hhigh
        obtain ⟨v, low, hv, hle, hle', hrest, hc⟩ := readPartner_eq_ok_iff.mp h
        refine ⟨w ++ '\\' :: 'u' :: v, ?_, by simp [hrest]⟩
        rw [hc]
        exact .pair hw hhigh.1 hhigh.2 hv hle hle'
      · next hhigh =>
        rw [isHighSurrogate_iff] at hhigh
        simp only [Except.ok.injEq, Prod.mk.injEq] at h
        obtain ⟨rfl, rfl⟩ := h
        exact ⟨w, .unit hw (by omega), rfl⟩
  · contradiction

/-- What `readEscape` reads behind a backslash is a `PieceText`. -/
theorem pieceText_of_readEscape {c : Char} (h : readEscape cs = .ok (c, rest)) :
    ∃ w, PieceText ('\\' :: w) c ∧ cs = w ++ rest := by
  unfold readEscape at h
  split at h
  · contradiction
  · next cs =>
    obtain ⟨w, hw, rfl⟩ := pieceText_of_readUnits h
    exact ⟨'u' :: w, hw, rfl⟩
  · next d cs _ =>
    split at h
    · next e he =>
      simp only [Except.ok.injEq, Prod.mk.injEq] at h
      obtain ⟨rfl, rfl⟩ := h
      exact ⟨[d], .short (shortEscape_eq_some_iff.mp he), rfl⟩
    · contradiction

/-- `readUnits` reads a code unit that is no surrogate as its character. -/
theorem readUnits_of_unitText {w : List Char} {n : Nat} (hw : UnitText w n)
    (hn : ¬ (0xD800 ≤ n ∧ n ≤ 0xDFFF)) (rest : List Char) :
    readUnits (w ++ rest) = .ok (Char.ofNat n, rest) := by
  have hu : readUnit (w ++ rest) = .ok (n, rest) := readUnit_eq_ok_iff.mpr ⟨w, hw, rfl⟩
  have hlow : isLowSurrogate n = false := isLowSurrogate_eq_false_iff.mpr (by omega)
  have hhigh : isHighSurrogate n = false := isHighSurrogate_eq_false_iff.mpr (by omega)
  simp only [readUnits, hu, hlow, hhigh, Bool.false_eq_true, if_false]

/-- `readUnits` reads the code units of a surrogate pair as one character. -/
theorem readUnits_of_pair {w v : List Char} {high low : Nat} (hw : UnitText w high)
    (hhigh : 0xD800 ≤ high ∧ high ≤ 0xDBFF) (hv : UnitText v low)
    (hlow : 0xDC00 ≤ low ∧ low ≤ 0xDFFF) (rest : List Char) :
    readUnits (w ++ '\\' :: 'u' :: v ++ rest) = .ok (pairChar high low, rest) := by
  have hu : readUnit (w ++ '\\' :: 'u' :: v ++ rest) = .ok (high, '\\' :: 'u' :: v ++ rest) :=
    readUnit_eq_ok_iff.mpr ⟨w, hw, List.append_assoc ..⟩
  have hnot : isLowSurrogate high = false := isLowSurrogate_eq_false_iff.mpr (by omega)
  have his : isHighSurrogate high = true := isHighSurrogate_iff.mpr hhigh
  have hpartner : readPartner high ('\\' :: 'u' :: v ++ rest) = .ok (pairChar high low, rest) :=
    readPartner_eq_ok_iff.mpr ⟨v, low, hv, hlow.1, hlow.2, rfl, rfl⟩
  simp only [readUnits, hu, hnot, his, hpartner, Bool.false_eq_true, if_false, if_true]

/-- `readPiece` reads the pieces that `PieceText` describes, with their characters. -/
theorem readPiece_eq_ok_some_iff {c : Char} :
    readPiece cs = .ok (some c, rest) ↔ ∃ w, PieceText w c ∧ cs = w ++ rest := by
  constructor
  · intro h
    unfold readPiece at h
    split at h
    · contradiction
    · simp at h
    · next cs =>
      split at h
      · next d rest' he =>
        simp only [Except.ok.injEq, Prod.mk.injEq, Option.some.injEq] at h
        obtain ⟨rfl, rfl⟩ := h
        obtain ⟨w, hw, rfl⟩ := pieceText_of_readEscape he
        exact ⟨'\\' :: w, hw, rfl⟩
      · contradiction
    · next d cs hquote hbackslash =>
      split at h
      · contradiction
      · next hle =>
        simp only [Except.ok.injEq, Prod.mk.injEq, Option.some.injEq] at h
        obtain ⟨rfl, rfl⟩ := h
        exact ⟨[d], .plain (Char.not_lt.mp hle) hquote hbackslash, rfl⟩
  · intro h
    obtain ⟨w, hw, rfl⟩ := h
    cases hw with
    | plain hle hquote hbackslash =>
        rw [List.singleton_append, readPiece, if_neg (Char.not_lt.mpr hle)]
        · exact hquote
        · exact hbackslash
    | @short d e he =>
        rw [← shortEscape_eq_some_iff] at he
        have hu : d ≠ 'u' := by
          intro h
          subst h
          simp [shortEscape] at he
        rw [List.cons_append, readPiece, List.cons_append, readEscape, he]
        · rfl
        · exact hu
    | unit hw hn =>
        simp [readPiece, readEscape, readUnits_of_unitText hw hn rest]
    | pair hw hhigh hhigh' hv hlow hlow' =>
        have hunits := readUnits_of_pair hw ⟨hhigh, hhigh'⟩ hv ⟨hlow, hlow'⟩ rest
        simp only [List.cons_append, List.append_assoc] at hunits ⊢
        simp only [readPiece, readEscape, hunits, pairChar]

/-- `readPiece` tells the end of a string at the closing quote only. -/
theorem readPiece_eq_ok_none_iff : readPiece cs = .ok (none, rest) ↔ cs = '"' :: rest := by
  constructor
  · intro h
    unfold readPiece at h
    split at h
    · contradiction
    · simp only [Except.ok.injEq, Prod.mk.injEq, true_and] at h
      rw [h]
    · split at h
      · simp at h
      · contradiction
    · split at h
      · contradiction
      · simp at h
  · intro h
    subst h
    rfl

/-- `readText` reads a string piece by piece, with `readPiece`. -/
theorem readText_eq (cs : List Char) :
    readText cs =
      match readPiece cs with
      | .ok (none, rest) => .ok ([], rest)
      | .ok (some c, rest) =>
        match readText rest with
        | .ok (text, rest) => .ok (c :: text, rest)
        | .error stop => .error stop
      | .error stop => .error stop := by
  rw [readText]
  split
  · next h => simp only [h]
  · next rest h => rcases hr : readText rest with stop | ⟨text, rest'⟩ <;> simp only [h, hr]
  · next h => simp only [h]

/-- `readText` at the closing quote: the string ends there. -/
theorem readText_of_quote (h : readPiece cs = .ok (none, rest)) :
    readText cs = .ok ([], rest) := by
  rw [readText_eq, h]

theorem readText_of_piece {c : Char} {text left : List Char}
    (h : readPiece cs = .ok (some c, rest)) (ht : readText rest = .ok (text, left)) :
    readText cs = .ok (c :: text, left) := by
  rw [readText_eq, h]
  simp only [ht]

/-- `readText` reads the `ContentText` of a string up to the closing quote, with its characters. -/
theorem readText_eq_ok_iff {text : List Char} :
    readText cs = .ok (text, rest) ↔ ∃ w, ContentText w text ∧ cs = w ++ '"' :: rest := by
  constructor
  · intro h
    fun_induction readText cs generalizing text with
    | case1 cs rest' hp =>
        simp only [Except.ok.injEq, Prod.mk.injEq] at h
        obtain ⟨rfl, rfl⟩ := h
        exact ⟨[], .nil, readPiece_eq_ok_none_iff.mp hp⟩
    | case2 cs c rest' hp _ text' rest'' ht ih =>
        simp only [Except.ok.injEq, Prod.mk.injEq] at h
        obtain ⟨rfl, rfl⟩ := h
        obtain ⟨w, hw, rfl⟩ := readPiece_eq_ok_some_iff.mp hp
        obtain ⟨v, hv, rfl⟩ := ih ht
        exact ⟨w ++ v, .cons hw hv, by rw [List.append_assoc]⟩
    | case3 => contradiction
    | case4 => contradiction
  · intro h
    obtain ⟨w, hw, rfl⟩ := h
    induction hw with
    | nil => exact readText_of_quote (readPiece_eq_ok_none_iff.mpr rfl)
    | @cons w v cs c hw hv ih =>
        have hp : readPiece (w ++ v ++ '"' :: rest) = .ok (some c, v ++ '"' :: rest) :=
          readPiece_eq_ok_some_iff.mpr ⟨w, hw, List.append_assoc ..⟩
        exact readText_of_piece hp ih

/-- A text without quotes, backslashes and control characters is written as it is. -/
theorem stringText_of_plain {s : String} (h : ∀ c ∈ s.toList, ' ' ≤ c ∧ c ≠ '"' ∧ c ≠ '\\') :
    StringText ('"' :: s.toList ++ ['"']) s := by
  refine ⟨s.toList, ?_, rfl⟩
  generalize s.toList = cs at h
  induction cs with
  | nil => exact .nil
  | cons c cs ih =>
      obtain ⟨⟨hle, hquote, hbackslash⟩, hcs⟩ := List.forall_mem_cons.mp h
      exact .cons (.plain hle hquote hbackslash) (ih hcs)

/-! ## strings that are passed over -/

/-- What `skipEscape` passes over behind a backslash is a `LoosePiece`. -/
theorem loosePiece_of_skipEscape (h : skipEscape cs = .ok rest) :
    ∃ w, LoosePiece ('\\' :: w) ∧ cs = w ++ rest := by
  unfold skipEscape at h
  split at h
  · contradiction
  · next cs =>
    cases hread : readUnit cs with
    | error stop => simp [hread, Except.map] at h
    | ok p =>
        obtain ⟨n, rest'⟩ := p
        simp only [hread, Except.map, Except.ok.injEq] at h
        subst h
        obtain ⟨w, hw, rfl⟩ := readUnit_eq_ok_iff.mp hread
        exact ⟨'u' :: w, .unit hw, rfl⟩
  · next d cs _ =>
    split at h
    · next hshort =>
      obtain ⟨e, he⟩ := Option.isSome_iff_exists.mp hshort
      simp only [Except.ok.injEq] at h
      subst h
      exact ⟨[d], .short (shortEscape_eq_some_iff.mp he), rfl⟩
    · contradiction

/-- What `skipPiece` passes over is a `LoosePiece`. -/
theorem loosePiece_of_skipPiece (h : skipPiece cs = .ok (true, rest)) :
    ∃ w, LoosePiece w ∧ cs = w ++ rest := by
  unfold skipPiece at h
  split at h
  · contradiction
  · simp at h
  · next cs =>
    cases he : skipEscape cs with
    | error stop => simp [he, Except.map] at h
    | ok r =>
        simp only [he, Except.map, Except.ok.injEq, Prod.mk.injEq, true_and] at h
        subst h
        obtain ⟨w, hw, rfl⟩ := loosePiece_of_skipEscape he
        exact ⟨'\\' :: w, hw, rfl⟩
  · next d cs hquote hbackslash =>
    split at h
    · contradiction
    · next hle =>
      simp only [Except.ok.injEq, Prod.mk.injEq, true_and] at h
      subst h
      exact ⟨[d], .plain (Char.not_lt.mp hle) hquote hbackslash, rfl⟩

/-- `skipPiece` passes over every `LoosePiece`, whatever follows it. -/
theorem skipPiece_of_loosePiece {w : List Char} (hw : LoosePiece w) (rest : List Char) :
    skipPiece (w ++ rest) = .ok (true, rest) := by
  cases hw with
  | plain hle hquote hbackslash =>
      rw [List.singleton_append, skipPiece, if_neg (Char.not_lt.mpr hle)]
      · exact hquote
      · exact hbackslash
  | @short d e he =>
      rw [← shortEscape_eq_some_iff] at he
      have hu : d ≠ 'u' := by
        intro h
        subst h
        simp [shortEscape] at he
      rw [List.cons_append, skipPiece, List.cons_append, skipEscape, he]
      · rfl
      · exact hu
  | @unit w n hw =>
      have hu : readUnit (w ++ rest) = .ok (n, rest) := readUnit_eq_ok_iff.mpr ⟨w, hw, rfl⟩
      simp [skipPiece, skipEscape, hu, Except.map]

/-- `skipPiece` passes over exactly the pieces that `LoosePiece` describes. -/
theorem skipPiece_eq_ok_true_iff :
    skipPiece cs = .ok (true, rest) ↔ ∃ w, LoosePiece w ∧ cs = w ++ rest :=
  ⟨loosePiece_of_skipPiece, fun ⟨_, hw, hcs⟩ => hcs ▸ skipPiece_of_loosePiece hw rest⟩

/-- `skipPiece` tells the end of a string at the closing quote only. -/
theorem skipPiece_eq_ok_false_iff : skipPiece cs = .ok (false, rest) ↔ cs = '"' :: rest := by
  constructor
  · intro h
    unfold skipPiece at h
    split at h
    · contradiction
    · simp only [Except.ok.injEq, Prod.mk.injEq, true_and] at h
      rw [h]
    · next cs =>
      cases he : skipEscape cs <;> simp [he, Except.map] at h
    · split at h
      · contradiction
      · simp at h
  · intro h
    subst h
    rfl

/-- `skipText` passes over a string piece by piece, with `skipPiece`. -/
theorem skipText_eq (cs : List Char) :
    skipText cs =
      match skipPiece cs with
      | .ok (false, rest) => .ok rest
      | .ok (true, rest) => skipText rest
      | .error stop => .error stop := by
  rw [skipText]
  split
  all_goals next h => simp only [h]

/-- `skipText` at the closing quote: the string ends there. -/
theorem skipText_of_quote (h : skipPiece cs = .ok (false, rest)) : skipText cs = .ok rest := by
  rw [skipText_eq, h]

theorem skipText_of_piece (h : skipPiece cs = .ok (true, rest)) :
    skipText cs = skipText rest := by
  rw [skipText_eq, h]

/-- `skipText` passes over the `LooseText` of a string up to the closing quote. -/
theorem skipText_eq_ok_iff :
    skipText cs = .ok rest ↔ ∃ w, LooseText w ∧ cs = w ++ '"' :: rest := by
  constructor
  · intro h
    fun_induction skipText cs with
    | case1 cs rest' hp =>
        simp only [Except.ok.injEq] at h
        subst h
        exact ⟨[], .nil, skipPiece_eq_ok_false_iff.mp hp⟩
    | case2 cs rest' hp _ ih =>
        obtain ⟨w, hw, rfl⟩ := skipPiece_eq_ok_true_iff.mp hp
        obtain ⟨v, hv, rfl⟩ := ih h
        exact ⟨w ++ v, .cons hw hv, by rw [List.append_assoc]⟩
    | case3 => contradiction
  · intro h
    obtain ⟨w, hw, rfl⟩ := h
    induction hw with
    | nil => exact skipText_of_quote (skipPiece_eq_ok_false_iff.mpr rfl)
    | @cons w v hw hv ih =>
        have hp : skipPiece (w ++ v ++ '"' :: rest) = .ok (true, v ++ '"' :: rest) :=
          skipPiece_eq_ok_true_iff.mpr ⟨w, hw, List.append_assoc ..⟩
        exact (skipText_of_piece hp).trans ih

end PoolEnum.Table
