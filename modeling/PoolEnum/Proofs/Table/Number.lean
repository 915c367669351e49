import PoolEnum.Proofs.Table.Text

/-!
# PoolEnum.Proofs.Table.Number

Numbers: what is read and what is passed over.

A number does not show where it ends, so it is read as far as it goes. The
equivalences therefore say of the text behind a number what cannot go on with it.
-/

namespace PoolEnum.Table

variable {atEnd : Cause} {negative : Bool} {cs ds rest : List Char} {l : Literal}

/-! ## where digits and numbers end -/

/-- The text does not begin with a digit. -/
def NoDigit (cs : List Char) : Prop :=
  ∀ c ∈ cs.head?, c.isDigit = false

/-- The text does not begin with anything that could go on with a number. -/
def EndsNumber (cs : List Char) : Prop :=
  NoDigit cs ∧ cs.head? ≠ some '.' ∧ cs.head? ≠ some 'e' ∧ cs.head? ≠ some 'E'

/-- A character that is no digit, no point and no exponent mark `EndsNumber`. -/
theorem endsNumber_cons {c : Char} (h : c.isDigit = false) (hp : c ≠ '.') (he : c ≠ 'e')
    (hE : c ≠ 'E') : EndsNumber (c :: cs) := by
  simp [EndsNumber, NoDigit, h, hp, he, hE]

theorem noDigit_cons {c : Char} (h : c.isDigit = false) : NoDigit (c :: cs) := by
  simp [NoDigit, h]

/-! ## digits -/

/-- `takeDigits` takes as many digits as there are. -/
theorem takeDigits_eq_iff :
    takeDigits cs = (ds, rest) ↔
      (∀ c ∈ ds, c.isDigit = true) ∧ NoDigit rest ∧ cs = ds ++ rest := by
  constructor
  · intro h
    simp only [takeDigits, Prod.mk.injEq] at h
    obtain ⟨hds, hrest⟩ := h
    refine ⟨?_, ?_, ?_⟩
    · intro c hc
      rw [← hds] at hc
      exact List.mem_takeWhile_imp hc
    · intro c hc
      have hhead := List.head?_dropWhile_not Char.isDigit cs
      rw [hrest, Option.mem_def.mp hc] at hhead
      exact hhead
    · rw [← hds, ← hrest, List.takeWhile_append_dropWhile]
  · intro h
    obtain ⟨hds, hrest, rfl⟩ := h
    rw [takeDigits, List.takeWhile_append_of_pos hds, List.dropWhile_append_of_pos hds]
    cases rest with
    | nil => simp
    | cons c rest =>
        have hc : ¬ c.isDigit = true := by simp [hrest c rfl]
        rw [List.takeWhile_cons_of_neg hc, List.dropWhile_cons_of_neg hc, List.append_nil]

/-- `Digits` begin with a digit. -/
theorem Digits.exists_cons (h : Digits ds) : ∃ c cs, ds = c :: cs ∧ c.isDigit = true := by
  cases ds with
  | nil => exact absurd rfl h.1
  | cons c cs => exact ⟨c, cs, rfl, h.2 c List.mem_cons_self⟩

/-- `readDigits` reads `Digits`, as far as they go. -/
theorem readDigits_eq_ok_iff :
    readDigits atEnd cs = .ok (ds, rest) ↔ Digits ds ∧ NoDigit rest ∧ cs = ds ++ rest := by
  constructor
  · intro h
    unfold readDigits at h
    split at h
    · contradiction
    · next c cs =>
      split at h
      · next hc =>
        simp only [Except.ok.injEq] at h
        obtain ⟨hds, hrest, hcs⟩ := takeDigits_eq_iff.mp h
        refine ⟨⟨?_, hds⟩, hrest, hcs⟩
        intro h
        subst h
        have hnot := hrest c (by rw [← List.nil_append rest, ← hcs]; rfl)
        exact absurd (hc.symm.trans hnot) (by simp)
      · contradiction
  · intro h
    obtain ⟨hds, hrest, rfl⟩ := h
    have htake : takeDigits (ds ++ rest) = (ds, rest) := takeDigits_eq_iff.mpr ⟨hds.2, hrest, rfl⟩
    obtain ⟨c, cs, rfl, hc⟩ := hds.exists_cons
    rw [List.cons_append] at htake ⊢
    rw [readDigits, if_pos hc, htake]

/-! ## the parts of a number -/

/-- A `Whole` number begins with a digit. -/
theorem Whole.exists_cons (h : Whole ds) : ∃ c cs, ds = c :: cs ∧ c.isDigit = true := by
  cases h with
  | inl h => exact ⟨'0', [], h, rfl⟩
  | inr h => exact h.1.exists_cons

/-- The test for a digit at the front, as `NoDigit`. -/
theorem head?_any_isDigit_iff : cs.head?.any Char.isDigit = false ↔ NoDigit cs := by
  cases cs <;> simp [NoDigit]

/-- `readWhole` reads a `Whole` number, as far as its digits go. -/
theorem readWhole_eq_ok_iff :
    readWhole atEnd cs = .ok (ds, rest) ↔ Whole ds ∧ NoDigit rest ∧ cs = ds ++ rest := by
  constructor
  · intro h
    unfold readWhole at h
    split at h
    · contradiction
    · next c cs =>
      split at h
      · next hc =>
        split at h
        · contradiction
        · next hnot =>
          simp only [Except.ok.injEq, Prod.mk.injEq] at h
          obtain ⟨rfl, rfl⟩ := h
          rw [hc]
          exact ⟨.inl rfl, head?_any_isDigit_iff.mp (by simpa using hnot), rfl⟩
      · next hzero =>
        split at h
        · next hc =>
          have hread : readDigits atEnd (c :: cs) = .ok (ds, rest) := by
            rw [readDigits, if_pos hc, h]
          obtain ⟨hds, hrest, hcs⟩ := readDigits_eq_ok_iff.mp hread
          refine ⟨.inr ⟨hds, ?_⟩, hrest, hcs⟩
          obtain ⟨d, ds, rfl, _⟩ := hds.exists_cons
          rw [List.cons_append, List.cons.injEq] at hcs
          simp [← hcs.1, hzero]
        · contradiction
  · intro h
    obtain ⟨hds, hrest, rfl⟩ := h
    cases hds with
    | inl h =>
        rw [h, List.singleton_append, readWhole, if_pos rfl, head?_any_isDigit_iff.mpr hrest]
        rfl
    | inr h =>
        obtain ⟨hds, hzero⟩ := h
        have htake : takeDigits (ds ++ rest) = (ds, rest) :=
          takeDigits_eq_iff.mpr ⟨hds.2, hrest, rfl⟩
        obtain ⟨c, cs, rfl, hc⟩ := hds.exists_cons
        have hne : c ≠ '0' := fun h => hzero (by rw [h]; rfl)
        rw [List.cons_append] at htake ⊢
        rw [readWhole, if_neg hne, if_pos hc, htake]

/-- `readFraction` reads digits after the point, if the point is there. -/
theorem readFraction_eq_ok_iff :
    readFraction atEnd cs = .ok (ds, rest) ↔
      (ds = [] ∧ cs.head? ≠ some '.' ∧ cs = rest) ∨
        (Digits ds ∧ NoDigit rest ∧ cs = '.' :: ds ++ rest) := by
  unfold readFraction
  split
  · next cs =>
    rw [readDigits_eq_ok_iff]
    simp
  · next hpoint =>
    have hhead : cs.head? ≠ some '.' := by
      intro h
      obtain ⟨tail, htail⟩ := List.head?_eq_some_iff.mp h
      exact hpoint tail htail
    constructor
    · intro h
      simp only [Except.ok.injEq, Prod.mk.injEq] at h
      exact .inl ⟨h.1.symm, hhead, h.2⟩
    · intro h
      cases h with
      | inl h => rw [h.1, h.2.2]
      | inr h => exact absurd h.2.2 (hpoint _)

/-- A sign is taken off the text, whichever it is. -/
theorem exists_sign (cs : List Char) :
    ∃ sign, (sign = [] ∨ sign = ['+'] ∨ sign = ['-']) ∧ cs = sign ++ (takeSign cs).2 := by
  unfold takeSign
  split
  · exact ⟨['+'], by simp⟩
  · exact ⟨['-'], by simp⟩
  · exact ⟨[], by simp⟩

/-- `takeSign` takes any sign off `Digits`. -/
theorem takeSign_digits (hds : Digits ds) {sign : List Char}
    (hsign : sign = [] ∨ sign = ['+'] ∨ sign = ['-']) (rest : List Char) :
    (takeSign (sign ++ ds ++ rest)).2 = ds ++ rest := by
  obtain ⟨c, cs, rfl, hc⟩ := hds.exists_cons
  rcases hsign with rfl | rfl | rfl
  · have hplus : c ≠ '+' := fun h => by simp [h] at hc
    have hminus : c ≠ '-' := fun h => by simp [h] at hc
    simp [takeSign, hplus, hminus]
  · rfl
  · rfl

/-- `readExponent` finds no exponent iff there is no mark of one. -/
theorem readExponent_eq_ok_none_iff :
    readExponent atEnd cs = .ok (none, rest) ↔
      cs.head? ≠ some 'e' ∧ cs.head? ≠ some 'E' ∧ cs = rest := by
  cases cs with
  | nil => simp [readExponent]
  | cons c cs =>
      rw [readExponent]
      split
      · next hmark =>
        constructor
        · intro h
          dsimp only at h
          split at h
          · simp at h
          · contradiction
        · intro h
          obtain ⟨he, hE, _⟩ := h
          cases hmark with
          | inl h => exact absurd (congrArg some h) he
          | inr h => exact absurd (congrArg some h) hE
      · next hmark =>
        simp only [not_or] at hmark
        simp [hmark.1, hmark.2]

/-- What `readExponent` reads is an `Exponent`. -/
theorem exponent_of_readExponent {e : Option (Bool × List Char)}
    (h : readExponent atEnd cs = .ok (e, rest)) : ∃ w, Exponent w ∧ cs = w ++ rest := by
  unfold readExponent at h
  split at h
  · simp only [Except.ok.injEq, Prod.mk.injEq] at h
    exact ⟨[], .inl rfl, h.2⟩
  · next c cs =>
    split at h
    · next hmark =>
      obtain ⟨sign, hsign, hcs⟩ := exists_sign cs
      dsimp only at h
      split at h
      · next ds rest' hread =>
        simp only [Except.ok.injEq, Prod.mk.injEq] at h
        obtain ⟨hds, _, hdigits⟩ := readDigits_eq_ok_iff.mp hread
        refine ⟨c :: sign ++ ds, .inr ⟨c, sign, ds, hmark, hsign, hds, rfl⟩, ?_⟩
        rw [hcs, hdigits, h.2, List.append_assoc, List.cons_append]
      · contradiction
    · simp only [Except.ok.injEq, Prod.mk.injEq] at h
      exact ⟨[], .inl rfl, h.2⟩

/-- `readExponent` reads every `Exponent`, if what follows `EndsNumber`. -/
theorem readExponent_of_exponent {w : List Char} (hw : Exponent w) (hrest : EndsNumber rest) :
    ∃ e, readExponent atEnd (w ++ rest) = .ok (e, rest) := by
  obtain ⟨hdigit, _, he, hE⟩ := hrest
  rcases hw with rfl | ⟨mark, sign, ds, hmark, hsign, hds, rfl⟩
  · exact ⟨none, readExponent_eq_ok_none_iff.mpr ⟨he, hE, rfl⟩⟩
  · have hread : readDigits atEnd (takeSign (sign ++ ds ++ rest)).2 = .ok (ds, rest) := by
      rw [takeSign_digits hds hsign]
      exact readDigits_eq_ok_iff.mpr ⟨hds, hdigit, rfl⟩
    refine ⟨some ((takeSign (sign ++ ds ++ rest)).1, ds), ?_⟩
    rw [List.cons_append, List.cons_append, readExponent, if_pos hmark]
    simp only [hread]

/-! ## numbers -/

/-- `readNumber` reads the three parts of a number in turn. -/
theorem readNumber_eq_ok_iff :
    readNumber atEnd negative cs = .ok (l, rest) ↔
      ∃ u v, readWhole atEnd cs = .ok (l.whole, u) ∧ readFraction atEnd u = .ok (l.fraction, v) ∧
        readExponent atEnd v = .ok (l.exponent, rest) ∧ l.negative = negative := by
  constructor
  · intro h
    simp only [readNumber, bind, Except.bind, pure, Except.pure] at h
    split at h
    · contradiction
    · next p hwhole =>
      split at h
      · contradiction
      · next q hfraction =>
        split at h
        · contradiction
        · next r hexponent =>
          simp only [Except.ok.injEq, Prod.mk.injEq] at h
          obtain ⟨rfl, rfl⟩ := h
          exact ⟨p.2, q.2, hwhole, hfraction, hexponent, rfl⟩
  · intro h
    obtain ⟨u, v, hwhole, hfraction, hexponent, rfl⟩ := h
    simp only [readNumber, bind, Except.bind, pure, Except.pure, hwhole, hfraction, hexponent]

/-- What `readNumber` reads is `Unsigned`. -/
theorem unsigned_of_readNumber (h : readNumber atEnd negative cs = .ok (l, rest)) :
    ∃ w, Unsigned w ∧ cs = w ++ rest := by
  obtain ⟨u, v, hwhole, hfraction, hexponent, _⟩ := readNumber_eq_ok_iff.mp h
  obtain ⟨hw, _, hcs⟩ := readWhole_eq_ok_iff.mp hwhole
  obtain ⟨x, hx, hv⟩ := exponent_of_readExponent hexponent
  have hf : ∃ f, Fraction f ∧ u = f ++ v := by
    cases readFraction_eq_ok_iff.mp hfraction with
    | inl h => exact ⟨[], .inl rfl, h.2.2⟩
    | inr h => exact ⟨'.' :: l.fraction, .inr ⟨_, h.1, rfl⟩, h.2.2⟩
  obtain ⟨f, hf, hu⟩ := hf
  refine ⟨l.whole ++ f ++ x, ⟨_, f, x, hw, hf, hx, rfl⟩, ?_⟩
  rw [hcs, hu, hv]
  simp only [List.append_assoc]

/-- An `Exponent` and what `EndsNumber` behind it begin with no digit and no point. -/
theorem noDigit_append_exponent {w : List Char} (hw : Exponent w) (hrest : EndsNumber rest) :
    NoDigit (w ++ rest) ∧ (w ++ rest).head? ≠ some '.' := by
  rcases hw with rfl | ⟨mark, sign, ds, hmark, _, _, rfl⟩
  · exact ⟨hrest.1, hrest.2.1⟩
  · rcases hmark with rfl | rfl <;> exact ⟨noDigit_cons (by decide), by simp⟩

/-- A fraction is read as far as it goes. -/
theorem readFraction_of_fraction {f : List Char} (hf : Fraction f) (hdigit : NoDigit rest)
    (hpoint : rest.head? ≠ some '.') : ∃ ds, readFraction atEnd (f ++ rest) = .ok (ds, rest) := by
  rcases hf with rfl | ⟨ds, hds, rfl⟩
  · exact ⟨[], readFraction_eq_ok_iff.mpr (.inl ⟨rfl, hpoint, rfl⟩)⟩
  · exact ⟨ds, readFraction_eq_ok_iff.mpr (.inr ⟨hds, hdigit, rfl⟩)⟩

/-- A `Fraction` and what is `NoDigit` behind it begin with no digit. -/
theorem noDigit_append_fraction {f : List Char} (hf : Fraction f) (hdigit : NoDigit rest) :
    NoDigit (f ++ rest) := by
  rcases hf with rfl | ⟨ds, _, rfl⟩
  · exact hdigit
  · exact noDigit_cons (by decide)

/-- `readNumber` reads what is `Unsigned` as a whole, if what follows `EndsNumber`. -/
theorem readNumber_of_unsigned {w : List Char} (hw : Unsigned w) (hrest : EndsNumber rest) :
    ∃ l, readNumber atEnd negative (w ++ rest) = .ok (l, rest) := by
  obtain ⟨whole, f, x, hwhole, hf, hx, rfl⟩ := hw
  have hexp : ∃ e, readExponent atEnd (x ++ rest) = .ok (e, rest) :=
    readExponent_of_exponent hx hrest
  obtain ⟨e, hexponent⟩ := hexp
  obtain ⟨hdigit, hpoint⟩ := noDigit_append_exponent hx hrest
  have hfrac : ∃ ds, readFraction atEnd (f ++ (x ++ rest)) = .ok (ds, x ++ rest) :=
    readFraction_of_fraction hf hdigit hpoint
  obtain ⟨ds, hfraction⟩ := hfrac
  refine ⟨{ negative, whole, fraction := ds, exponent := e }, ?_⟩
  refine readNumber_eq_ok_iff.mpr ⟨f ++ (x ++ rest), x ++ rest, ?_, hfraction, hexponent, rfl⟩
  refine readWhole_eq_ok_iff.mpr ⟨hwhole, noDigit_append_fraction hf hdigit, ?_⟩
  simp only [List.append_assoc]

/-- A number without point and exponent is its digits. -/
theorem readNumber_eq_ok_whole_iff :
    readNumber atEnd negative cs =
        .ok ({ negative, whole := ds, fraction := [], exponent := none }, rest) ↔
      Whole ds ∧ EndsNumber rest ∧ cs = ds ++ rest := by
  rw [readNumber_eq_ok_iff]
  constructor
  · intro h
    obtain ⟨u, v, hwhole, hfraction, hexponent, _⟩ := h
    obtain ⟨hds, hdigit, hcs⟩ := readWhole_eq_ok_iff.mp hwhole
    obtain ⟨he, hE, hv⟩ := readExponent_eq_ok_none_iff.mp hexponent
    cases readFraction_eq_ok_iff.mp hfraction with
    | inl h =>
        obtain ⟨_, hpoint, hu⟩ := h
        rw [hu, hv] at hdigit hpoint hcs
        rw [hv] at he hE
        exact ⟨hds, ⟨hdigit, hpoint, he, hE⟩, hcs⟩
    | inr h => exact absurd rfl h.1.1
  · intro h
    obtain ⟨hds, ⟨hdigit, hpoint, he, hE⟩, hcs⟩ := h
    refine ⟨rest, rest, readWhole_eq_ok_iff.mpr ⟨hds, hdigit, hcs⟩, ?_, ?_, rfl⟩
    · exact readFraction_eq_ok_iff.mpr (.inl ⟨rfl, hpoint, rfl⟩)
    · exact readExponent_eq_ok_none_iff.mpr ⟨he, hE, rfl⟩

/-! ## integers -/

/-- Digits never make a number less. -/
theorem le_ofDigitChars (cs : List Char) (n : Nat) : n ≤ Nat.ofDigitChars 10 cs n := by
  induction cs generalizing n with
  | nil => rw [Nat.ofDigitChars_nil]
  | cons c cs ih =>
      rw [Nat.ofDigitChars_cons]
      have hstep := ih (10 * n + (c.toNat - '0'.toNat))
      omega

/-- All digits are absorbed iff the number they write is not too great. -/
theorem absorb_eq_nil_iff {most n m : Nat} (hn : n ≤ most) :
    absorb most n cs = (m, []) ↔ Nat.ofDigitChars 10 cs n = m ∧ m ≤ most := by
  induction cs generalizing n with
  | nil =>
      rw [absorb, Nat.ofDigitChars_nil, Prod.mk.injEq]
      constructor
      · intro h
        obtain ⟨rfl, _⟩ := h
        exact ⟨rfl, hn⟩
      · intro h
        obtain ⟨rfl, _⟩ := h
        exact ⟨rfl, rfl⟩
  | cons c cs ih =>
      have hvalue : 10 * n + (c.toNat - '0'.toNat) = n * 10 + digitValue c := by
        rw [Nat.mul_comm, digitValue]
        rfl
      rw [absorb, Nat.ofDigitChars_cons, hvalue]
      split
      · next hle => exact ih hle
      · next hlt =>
        constructor
        · intro h
          simp at h
        · intro h
          obtain ⟨hm, hle⟩ := h
          have hgrow := le_ofDigitChars cs (n * 10 + digitValue c)
          omega

/-- What `Literal.floating` tells is a floating-point number, if anything. -/
theorem Literal.exists_float_of_floating {f : Found} (h : l.floating rest = .ok f) :
    ∃ shown, f = .float shown := by
  unfold floating at h
  dsimp only at h
  split at h
  · split at h
    · exact ⟨_, (Except.ok.inj h).symm⟩
    · contradiction
  · split at h
    · split at h
      · exact ⟨_, (Except.ok.inj h).symm⟩
      · contradiction
    · split at h
      · exact ⟨_, (Except.ok.inj h).symm⟩
      · contradiction

/-- A literal is a number. -/
theorem Literal.found_ne_text (l : Literal) (rest : List Char) (s : String) :
    l.found rest ≠ .ok (.text s) := by
  intro h
  unfold found at h
  split at h
  · split at h
    · simp at h
    · split at h
      · simp at h
      · obtain ⟨shown, hshown⟩ := exists_float_of_floating h
        contradiction
  · obtain ⟨shown, hshown⟩ := exists_float_of_floating h
    contradiction

/-- A literal is a natural number iff it has no sign, point or exponent and 64
bits hold it. -/
theorem Literal.found_eq_natural_iff {n : Nat} :
    l.found rest = .ok (.integer (.ofNat n)) ↔
      l = { negative := false, whole := l.whole, fraction := [], exponent := none } ∧
        Nat.ofDigitChars 10 l.whole 0 = n ∧ n ≤ maxWord := by
  rw [← absorb_eq_nil_iff (Nat.zero_le maxWord)]
  obtain ⟨negative, whole, fraction, exponent⟩ := l
  constructor
  · intro h
    unfold found at h
    split at h
    · next m hfraction hexponent habsorb =>
      dsimp only at hfraction hexponent habsorb h
      rw [hfraction, hexponent, habsorb]
      cases negative with
      | false =>
          simp only [Bool.not_false, if_true, Except.ok.injEq, Found.integer.injEq] at h
          rw [Int.ofNat_inj.mp h]
          exact ⟨rfl, rfl⟩
      | true =>
          simp only [Bool.not_true, Bool.false_eq_true, if_false] at h
          split at h
          · next hpos =>
            simp only [Except.ok.injEq, Found.integer.injEq, Int.ofNat_eq_natCast] at h
            omega
          · obtain ⟨shown, hshown⟩ := exists_float_of_floating h
            contradiction
    · obtain ⟨shown, hshown⟩ := exists_float_of_floating h
      contradiction
  · intro h
    obtain ⟨hl, habsorb⟩ := h
    rw [hl]
    simp only [found, habsorb, Bool.not_false, if_true]
    rfl

/-! ## printing -/

/-- A digit is the `digitChar` of a number below ten. -/
theorem exists_digitChar {d : Char} (h : d.isDigit = true) : ∃ k, k < 10 ∧ d = k.digitChar := by
  have hbounds : 48 ≤ d.toNat ∧ d.toNat ≤ 57 := by
    simpa [Char.isDigit, UInt32.le_iff_toNat_le] using h
  have hlt : d.toNat - 48 < 10 := by omega
  refine ⟨d.toNat - 48, hlt, Char.toNat_inj.mp ?_⟩
  rw [Nat.toNat_digitChar_of_lt_ten hlt]
  omega

/-- Digits behind a number that is not zero are printed behind it. -/
theorem toDigits_ofDigitChars_of_pos (hds : ∀ d ∈ ds, d.isDigit = true) {n : Nat} (hn : 0 < n) :
    Nat.toDigits 10 (Nat.ofDigitChars 10 ds n) = Nat.toDigits 10 n ++ ds := by
  induction ds generalizing n with
  | nil => rw [Nat.ofDigitChars_nil, List.append_nil]
  | cons d ds ih =>
      obtain ⟨hd, hrest⟩ := List.forall_mem_cons.mp hds
      obtain ⟨k, hk, rfl⟩ := exists_digitChar hd
      rw [Nat.ofDigitChars_cons_digitChar_of_lt_ten hk, ih hrest (by omega),
        ← Nat.toDigits_append_toDigits (by decide) hn hk, Nat.toDigits_of_lt_base hk,
        List.append_assoc, List.singleton_append]

/-- The digits of a whole number are what it is printed as. -/
theorem Whole.toDigits_ofDigitChars (h : Whole ds) :
    Nat.toDigits 10 (Nat.ofDigitChars 10 ds 0) = ds := by
  cases h with
  | inl h => rw [h]; rfl
  | inr h =>
      obtain ⟨hds, hzero⟩ := h
      obtain ⟨d, ds, rfl, hd⟩ := hds.exists_cons
      obtain ⟨k, hk, rfl⟩ := exists_digitChar hd
      have hpos : 0 < k := by
        apply Nat.pos_of_ne_zero
        intro h
        exact hzero (by rw [h]; rfl)
      have hrest : ∀ d ∈ ds, d.isDigit = true :=
        fun d hd => hds.2 d (List.mem_cons_of_mem _ hd)
      rw [Nat.ofDigitChars_cons_digitChar_of_lt_ten hk, Nat.mul_zero, Nat.zero_add,
        toDigits_ofDigitChars_of_pos hrest hpos, Nat.toDigits_of_lt_base hk,
        List.singleton_append]

/-- Only zero is printed with a zero in front. -/
theorem head?_toDigits_ne {n : Nat} (hn : 0 < n) : (Nat.toDigits 10 n).head? ≠ some '0' := by
  induction n using Nat.base_induction 10 (by decide) with
  | single m hm =>
      rw [Nat.toDigits_of_lt_base hm, List.head?_cons, ne_eq, Option.some.injEq,
        Nat.digitChar_eq_zero]
      omega
  | digit m k hk hm ih =>
      obtain ⟨c, cs, hcons⟩ := List.exists_cons_of_ne_nil (Nat.toDigits_ne_nil (n := m) (b := 10))
      have hhead := ih hm
      rw [← Nat.toDigits_append_toDigits (by decide) hm hk, hcons, List.cons_append,
        List.head?_cons]
      rwa [hcons, List.head?_cons] at hhead

/-- A number as it is printed is a `Whole` number. -/
theorem whole_toDigits (n : Nat) : Whole (Nat.toDigits 10 n) := by
  by_cases hn : n = 0
  · exact .inl (by rw [hn]; rfl)
  · refine .inr ⟨⟨Nat.toDigits_ne_nil, ?_⟩, head?_toDigits_ne (Nat.pos_of_ne_zero hn)⟩
    intro c hc
    exact Nat.isDigit_of_mem_toDigits (by decide) (by decide) hc

/-- An `IdText` is the id as it is printed. -/
theorem idText_iff {w : List Char} {id : UInt64} : IdText w id ↔ w = Nat.toDigits 10 id.toNat := by
  constructor
  · intro h
    obtain ⟨hwhole, hvalue⟩ := h
    rw [← hvalue, hwhole.toDigits_ofDigitChars]
  · intro h
    rw [h]
    exact ⟨whole_toDigits _, Nat.ofDigitChars_ten_toDigits⟩

end PoolEnum.Table
