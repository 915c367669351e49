import PoolEnum.Name.Derive

/-!
# PoolEnum.Proofs.Name.Valid

Every derived name is a valid name, whatever the text it is derived from.

Once a text is spelled (`spell`) only word characters are left. None of them is
blank and each takes one byte, so neither the second trim nor measuring in bytes
makes a difference: `shorten` keeps the first `maxNameLength` characters and
tells whether there were more. What a name begins with is decided by the first
character of the text alone (`spell_cons`).
-/

namespace PoolEnum

/-! ## word characters -/

/-- A word character may begin a name or is a digit. -/
theorem isWordChar_iff {c : Char} :
    isWordChar c = true ↔ isWordStart c = true ∨ c.isDigit = true := by
  simp only [isWordChar, isWordStart, Char.isAlphanum, Bool.or_eq_true]
  grind

theorem isWordChar_of_isWordStart {c : Char} (h : isWordStart c = true) :
    isWordChar c = true :=
  isWordChar_iff.mpr (.inl h)

theorem isWordChar_of_isDigit {c : Char} (h : c.isDigit = true) : isWordChar c = true :=
  isWordChar_iff.mpr (.inr h)

/-- A word character that is no digit may begin a name. -/
theorem isWordStart_of_isWordChar {c : Char} (h : isWordChar c = true)
    (hd : c.isDigit = false) : isWordStart c = true := by
  cases isWordChar_iff.mp h with
  | inl hstart => exact hstart
  | inr hdigit => rw [hd] at hdigit; contradiction

/-- The characters that may begin a name by code point: capitals, small letters
and the underscore. -/
theorem isWordStart_iff_toNat {c : Char} :
    isWordStart c = true ↔
      (65 ≤ c.toNat ∧ c.toNat ≤ 90) ∨ (97 ≤ c.toNat ∧ c.toNat ≤ 122) ∨ c.toNat = 95 := by
  have hstart : isWordStart c =
      ((decide (65 ≤ c.val ∧ c.val ≤ 90) || (decide (97 ≤ c.val) && decide (c.val ≤ 122))) ||
        c == '_') := rfl
  simp only [hstart, Bool.or_eq_true, Bool.and_eq_true, decide_eq_true_eq, beq_iff_eq,
    UInt32.le_iff_toNat_le, Char.ext_iff, ← UInt32.toNat_inj]
  change ((65 ≤ c.toNat ∧ c.toNat ≤ 90) ∨ (97 ≤ c.toNat ∧ c.toNat ≤ 122)) ∨ c.toNat = 95 ↔ _
  omega

/-- The word characters by code point: capitals, small letters, digits and the
underscore. -/
theorem isWordChar_iff_toNat {c : Char} :
    isWordChar c = true ↔
      (65 ≤ c.toNat ∧ c.toNat ≤ 90) ∨ (97 ≤ c.toNat ∧ c.toNat ≤ 122) ∨
        (48 ≤ c.toNat ∧ c.toNat ≤ 57) ∨ c.toNat = 95 := by
  rw [isWordChar_iff, isWordStart_iff_toNat, Char.isDigit_iff_toNat]
  change _ ∨ (48 ≤ c.toNat ∧ c.toNat ≤ 57) ↔ _
  omega

/-- What may begin a name is no digit. -/
theorem isDigit_of_isWordStart {c : Char} (h : isWordStart c = true) : c.isDigit = false := by
  have := isWordStart_iff_toNat.mp h
  rw [← Bool.not_eq_true, Char.isDigit_iff_toNat]
  change ¬ (48 ≤ c.toNat ∧ c.toNat ≤ 57)
  omega

/-- A word character takes one byte. -/
theorem utf8Size_of_isWordChar {c : Char} (h : isWordChar c = true) : c.utf8Size = 1 := by
  rw [Char.utf8Size_eq_one_iff, UInt32.le_iff_toNat_le]
  have := isWordChar_iff_toNat.mp h
  change c.toNat ≤ 127
  omega

/-- No word character is blank. -/
theorem isBlank_of_isWordChar {c : Char} (h : isWordChar c = true) : isBlank c = false := by
  have := isWordChar_iff_toNat.mp h
  simp only [isBlank, blankRanges, List.any_cons, List.any_nil, Bool.or_false,
    Bool.or_eq_false_iff, Bool.and_eq_false_iff, decide_eq_false_iff_not]
  omega

/-- A text of word characters has as many bytes as characters. -/
theorem utf8ByteSize_ofList_of_isWordChar {cs : List Char}
    (h : ∀ c ∈ cs, isWordChar c = true) : (String.ofList cs).utf8ByteSize = cs.length := by
  induction cs with
  | nil => rfl
  | cons c cs ih =>
      rw [String.ofList_cons, String.utf8ByteSize_append, String.utf8ByteSize_singleton,
        utf8Size_of_isWordChar (h c List.mem_cons_self),
        ih fun d hd => h d (List.mem_cons_of_mem c hd), List.length_cons, Nat.add_comm]

/-- A text without blanks is not trimmed. -/
theorem trim_of_isWordChar {cs : List Char} (h : ∀ c ∈ cs, isWordChar c = true) :
    trim cs = cs := by
  have hdrop : ∀ ds : List Char, (∀ d ∈ ds, isWordChar d = true) → ds.dropWhile isBlank = ds := by
    intro ds hds
    cases ds with
    | nil => rfl
    | cons d ds =>
        rw [List.dropWhile_cons_of_neg]
        simp [isBlank_of_isWordChar (hds d List.mem_cons_self)]
  rw [trim, trimEnd, hdrop cs h, hdrop cs.reverse (by simpa using h), List.reverse_reverse]

/-! ## identifiers and valid names -/

/-- An identifier in terms of its characters. -/
theorem isIdentifier_iff {name : String} :
    isIdentifier name = true ↔
      ∃ c cs, name.toList = c :: cs ∧ isWordStart c = true ∧ ∀ d ∈ cs, isWordChar d = true := by
  unfold isIdentifier
  cases name.toList with
  | nil => simp
  | cons c cs => simp only [Bool.and_eq_true, List.all_eq_true, List.cons.injEq]; grind

theorem isWordChar_of_mem_isIdentifier {name : String} (h : isIdentifier name = true) :
    ∀ c ∈ name.toList, isWordChar c = true := by
  obtain ⟨c, cs, hname, hc, hcs⟩ := isIdentifier_iff.mp h
  rw [hname]
  intro d hd
  cases List.mem_cons.mp hd with
  | inl h => rw [h]; exact isWordChar_of_isWordStart hc
  | inr h => exact hcs d h

/-- A character outside words is none of an identifier. -/
theorem not_mem_of_isIdentifier {c : Char} {name : String} (h : isIdentifier name = true)
    (hc : isWordChar c = false) : c ∉ name.toList := by
  intro hmem
  rw [isWordChar_of_mem_isIdentifier h c hmem] at hc
  contradiction

/-- Measuring an identifier in bytes is measuring it in characters. -/
theorem utf8ByteSize_of_isIdentifier {name : String} (h : isIdentifier name = true) :
    name.utf8ByteSize = name.length := by
  have := utf8ByteSize_ofList_of_isWordChar (isWordChar_of_mem_isIdentifier h)
  rwa [String.ofList_toList, String.length_toList] at this

/-- A valid name is an identifier of at most `maxNameLength` characters. -/
theorem isValidName_iff {name : String} :
    isValidName name = true ↔ isIdentifier name = true ∧ name.length ≤ maxNameLength := by
  rw [isValidName, Bool.and_eq_true, decide_eq_true_eq, and_comm]
  exact and_congr_right fun h => by rw [utf8ByteSize_of_isIdentifier h]

/-! ## spelling -/

/-- What is left of a text once it is spelled are word characters. -/
theorem isWordChar_of_mem_squeeze {cs : List Char} {inRun : Bool} {d : Char}
    (h : d ∈ squeeze inRun cs) : isWordChar d = true := by
  fun_induction squeeze inRun cs <;> grind [isWordChar]

theorem isWordChar_of_mem_spell {text : List Char} {d : Char} (h : d ∈ spell text) :
    isWordChar d = true := by
  rw [spell, List.mem_append] at h
  cases h with
  | inl h =>
      cases text with
      | nil => simp [digitGuard] at h
      | cons c cs =>
          simp only [digitGuard] at h
          split at h
          · rw [List.mem_singleton.mp h]; rfl
          · simp at h
  | inr h => exact isWordChar_of_mem_squeeze h

/-- The first character of a text decides what its spelling begins with: a digit
has an underscore put before it, a per cent sign is spelled out, and any other
character outside a word becomes an underscore. -/
theorem spell_cons (c : Char) (cs : List Char) :
    ∃ d ds, spell (c :: cs) = d :: ds ∧ isWordStart d = true := by
  by_cases hd : c.isDigit = true
  · exact ⟨'_', squeeze false (expandMarks (c :: cs)), by simp [spell, digitGuard, hd], rfl⟩
  · have hd : c.isDigit = false := by simpa using hd
    by_cases hp : c = '%'
    · subst hp
      have hword : isWordChar 'F' = true := rfl
      refine ⟨'F', squeeze false ('M' :: 'T' :: '_' :: expandMarks cs), ?_, rfl⟩
      simp only [spell, digitGuard, hd, Bool.false_eq_true, if_false, List.nil_append]
      change squeeze false ('F' :: 'M' :: 'T' :: '_' :: expandMarks cs) = _
      rw [squeeze, if_pos hword]
    · by_cases hw : isWordChar c = true
      · refine ⟨c, squeeze false (expandMarks cs), ?_, isWordStart_of_isWordChar hw hd⟩
        simp [spell, digitGuard, hd, expandMarks, hp, squeeze, hw]
      · refine ⟨'_', squeeze true (expandMarks cs), ?_, rfl⟩
        simp [spell, digitGuard, hd, expandMarks, hp, squeeze, hw]

/-! ## cutting to length -/

/-- The name of a spelling is its first `maxNameLength` characters, and
something was lost iff it has more. -/
theorem shorten_of_isWordChar {cs : List Char} (h : ∀ c ∈ cs, isWordChar c = true) :
    shorten cs =
      { name := String.ofList (cs.take maxNameLength)
        truncated := decide (maxNameLength < cs.length) } := by
  have htake : ∀ c ∈ cs.take maxNameLength, isWordChar c = true :=
    fun c hc => h c (List.mem_of_mem_take hc)
  simp only [shorten, trim_of_isWordChar h, utf8ByteSize_ofList_of_isWordChar h,
    utf8ByteSize_ofList_of_isWordChar htake, List.length_take, Derived.mk.injEq, true_and]
  grind

/-- The name of a text that is not empty and its flag are those of its spelling. -/
theorem normalizeTracked_eq {text : List Char} (h : text ≠ []) :
    normalizeTracked text =
      { name := String.ofList ((spell text).take maxNameLength)
        truncated := decide (maxNameLength < (spell text).length) } := by
  rw [normalizeTracked, if_neg (by simpa using h)]
  exact shorten_of_isWordChar fun c hc => isWordChar_of_mem_spell hc

/-- A name is cut iff the spelling is longer than a name may be. -/
theorem truncated_normalizeTracked_iff {text : List Char} :
    (normalizeTracked text).truncated = true ↔ maxNameLength < (spell text).length := by
  cases text with
  | nil => decide
  | cons c cs => rw [normalizeTracked_eq (List.cons_ne_nil c cs), decide_eq_true_eq]

/-- The name of any text as it stands is valid. -/
theorem isValidName_normalizeTracked (text : List Char) :
    isValidName (normalizeTracked text).name = true := by
  cases text with
  | nil => decide
  | cons c cs =>
      obtain ⟨d, ds, hspell, hd⟩ := spell_cons c cs
      have hword : ∀ x ∈ d :: ds, isWordChar x = true :=
        fun x hx => isWordChar_of_mem_spell (hspell ▸ hx)
      have hname : (normalizeTracked (c :: cs)).name =
          String.ofList (d :: ds.take (maxNameLength - 1)) := by
        simp [normalizeTracked_eq (List.cons_ne_nil c cs), hspell, maxNameLength]
      rw [hname, isValidName_iff, isIdentifier_iff]
      refine ⟨⟨d, ds.take (maxNameLength - 1), String.toList_ofList, hd, ?_⟩, ?_⟩
      · exact fun x hx => hword x (List.mem_cons_of_mem d (List.mem_of_mem_take hx))
      · rw [← String.length_toList, String.toList_ofList, List.length_cons, List.length_take]
        simp only [maxNameLength]
        omega

/-- The name derived from any text is valid. -/
theorem isValidName_derive (raw : String) : isValidName (derive raw).name = true :=
  isValidName_normalizeTracked _

end PoolEnum
