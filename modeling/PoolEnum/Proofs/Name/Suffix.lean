import PoolEnum.Name.Suffix
import PoolEnum.Proofs.Name.Valid

/-!
# PoolEnum.Proofs.Name.Suffix

The numbered forms of a name: how long they are, that they are valid names if the
name is, and which of them are the same.

A tail has no underscore but its first character, so the last underscore of a
text that ends in a tail is where the tail begins (`append_suffixTail_inj`). Two
forms are therefore the same only if their numbers are, although forms with more
digits keep less of the base. The main result, `suffixed_laws`, puts their laws together.
-/

namespace PoolEnum

/-! ## tails -/

/-- A `suffixTail` is an underscore and decimal digits. -/
theorem suffixTail_eq (n : Nat) : suffixTail n = '_' :: Nat.toDigits 10 n := by
  rw [suffixTail, Nat.toString_eq_ofList_toDigits, String.toList_ofList]

/-- A number that is tried has at most three digits. -/
theorem length_suffixTail_le {n : Nat} (h : n ≤ maxSuffix) : (suffixTail n).length ≤ 4 := by
  have hdigits : (Nat.toDigits 10 n).length ≤ 3 := by
    rw [Nat.length_toDigits_le_iff (by decide) (by decide)]
    exact Nat.lt_succ_of_le h
  rw [suffixTail_eq, List.length_cons]
  omega

/-- The characters of an underscore and a number are the `suffixTail`. -/
theorem toList_underscore_append (n : Nat) : ("_" ++ toString n).toList = suffixTail n := by
  rw [String.toList_append, suffixTail]
  rfl

theorem length_underscore_append (n : Nat) :
    ("_" ++ toString n).length = (suffixTail n).length := by
  rw [← String.length_toList, toList_underscore_append]

theorem length_suffixTail_pos (n : Nat) : 0 < (suffixTail n).length := by
  rw [suffixTail, List.length_cons]
  exact Nat.succ_pos _

/-- Read from its end, a text that ends in a `suffixTail` has the digits of that in front of its
first underscore. -/
theorem splitOn_reverse_append_suffixTail (cs : List Char) (n : Nat) :
    (cs ++ suffixTail n).reverse.splitOn '_' =
      (Nat.toDigits 10 n).reverse :: cs.reverse.splitOn '_' := by
  have hdigits : '_' ∉ (Nat.toDigits 10 n).reverse := by
    rw [List.mem_reverse]
    exact Nat.underscore_not_in_toDigits
  rw [suffixTail_eq, List.reverse_append, List.reverse_cons, List.append_assoc,
    List.singleton_append, List.splitOn_append_cons_self_of_not_mem hdigits]

/-- Texts that end in a `suffixTail` are the same iff the tails have the same number and what stands
in front of these is the same. -/
theorem append_suffixTail_inj {cs ds : List Char} {n m : Nat} :
    cs ++ suffixTail n = ds ++ suffixTail m ↔ cs = ds ∧ n = m := by
  constructor
  · intro h
    have hsplit := congrArg (fun text => text.reverse.splitOn '_') h
    simp only [splitOn_reverse_append_suffixTail, List.cons.injEq, List.reverse_inj] at hsplit
    have hn : n = m := by
      rw [← @Nat.ofDigitChars_ten_toDigits n, hsplit.1, Nat.ofDigitChars_ten_toDigits]
    subst hn
    exact ⟨List.append_cancel_right h, rfl⟩
  · intro h
    rw [h.1, h.2]

/-- All characters of a `suffixTail` may stand in a name. -/
theorem isWordChar_of_mem_suffixTail {n : Nat} {c : Char} (h : c ∈ suffixTail n) :
    isWordChar c = true := by
  rw [suffixTail_eq] at h
  cases List.mem_cons.mp h with
  | inl h => rw [h]; rfl
  | inr h => exact isWordChar_of_isDigit (Nat.isDigit_of_mem_toDigits (by decide) (by decide) h)

/-! ## numbered forms -/

/-- `suffixed` cuts the base so that the `suffixTail` fits behind it. -/
theorem toList_suffixed (base : String) (n : Nat) :
    (suffixed base n).toList =
      base.toList.take (maxNameLength - (suffixTail n).length) ++ suffixTail n :=
  String.toList_ofList

/-- A `suffixed` name is as much of the base as leaves room for the tail in 20 characters, and the
tail. -/
theorem suffixed_eq (base : String) (n : Nat) :
    suffixed base n =
      String.ofList (base.toList.take (min base.length (20 - ("_" ++ toString n).length)) ++
        ("_" ++ toString n).toList) := by
  rw [← String.toList_inj, toList_suffixed, String.toList_ofList, toList_underscore_append,
    length_underscore_append, List.take_eq_take_min, String.length_toList, Nat.min_comm]
  rfl

/-- A `suffixed` name begins as its base does and ends in its `suffixTail`. -/
theorem exists_stem_suffixed (base : String) (n : Nat) :
    ∃ stem : String, stem.toList <+: base.toList ∧
      suffixed base n = stem ++ ("_" ++ toString n) := by
  let kept := base.toList.take (maxNameLength - (suffixTail n).length)
  refine ⟨String.ofList kept, ?_, ?_⟩
  · rw [String.toList_ofList]
    exact List.take_prefix _ _
  · rw [← String.toList_inj, toList_suffixed, String.toList_append, String.toList_ofList,
      toList_underscore_append]

/-- A `suffixed` name is as long as its shortened base and its tail together. -/
theorem length_suffixed (base : String) (n : Nat) :
    (suffixed base n).length =
      min (maxNameLength - (suffixTail n).length) base.length + (suffixTail n).length := by
  rw [← String.length_toList, toList_suffixed, List.length_append, List.length_take,
    String.length_toList]

/-- `suffixed` names are at most `maxNameLength` long. -/
theorem length_suffixed_le {n : Nat} (base : String) (h : n ≤ maxSuffix) :
    (suffixed base n).length ≤ maxNameLength := by
  have htail := length_suffixTail_le h
  rw [length_suffixed]
  simp only [maxNameLength]
  omega

/-- The `suffixed` names of a valid name are valid: the tail leaves room for the first character of
the base, and all that follows it are word characters. -/
theorem isValidName_suffixed {base : String} {n : Nat} (hbase : isValidName base = true)
    (hn : n ≤ maxSuffix) : isValidName (suffixed base n) = true := by
  obtain ⟨c, cs, hlist, hc, hcs⟩ := isIdentifier_iff.mp (isValidName_iff.mp hbase).1
  have htail := length_suffixTail_le hn
  have hroom : maxNameLength - (suffixTail n).length =
      (maxNameLength - (suffixTail n).length - 1) + 1 := by
    simp only [maxNameLength]
    omega
  have hform : (suffixed base n).toList =
      c :: (cs.take (maxNameLength - (suffixTail n).length - 1) ++ suffixTail n) := by
    rw [toList_suffixed, hlist, hroom, List.take_succ_cons, List.cons_append,
      Nat.add_sub_cancel]
  rw [isValidName_iff, isIdentifier_iff]
  refine ⟨⟨c, _, hform, hc, ?_⟩, length_suffixed_le base hn⟩
  intro d hd
  cases List.mem_append.mp hd with
  | inl h => exact hcs d (List.mem_of_mem_take h)
  | inr h => exact isWordChar_of_mem_suffixTail h

/-! ## which forms are the same -/

/-- `suffixed` names are the same iff their numbers are and what is kept of the bases is. -/
theorem suffixed_eq_suffixed_iff {base base' : String} {n m : Nat} :
    suffixed base n = suffixed base' m ↔ n = m ∧
      base.toList.take (maxNameLength - (suffixTail n).length) =
        base'.toList.take (maxNameLength - (suffixTail m).length) := by
  rw [← String.toList_inj, toList_suffixed, toList_suffixed, append_suffixTail_inj, and_comm]

/-- The `suffixed` names of one base all differ. -/
theorem suffixed_inj {base : String} {n m : Nat} :
    suffixed base n = suffixed base m ↔ n = m := by
  rw [suffixed_eq_suffixed_iff]
  constructor
  · exact And.left
  · intro h
    exact ⟨h, by rw [h]⟩

/-- Whether `base` has exactly 20 characters, the last of them an underscore and
`n` in decimal. -/
def OwnForm (base : String) (n : Nat) : Prop :=
  base.length = 20 ∧ ∃ stem, base = stem ++ ("_" ++ toString n)

/-- A base is its own form with number `n` iff it has as many characters as a name
may have and ends in the tail: a shorter one gets longer, a longer one is cut. -/
theorem suffixed_eq_self_iff {base : String} {n : Nat} (hn : n ≤ maxSuffix) :
    suffixed base n = base ↔ OwnForm base n := by
  have htail := length_suffixTail_le hn
  have hpos := length_suffixTail_pos n
  constructor
  · intro h
    have hlength := congrArg String.length h
    rw [length_suffixed] at hlength
    obtain ⟨stem, -, hstem⟩ := exists_stem_suffixed base n
    refine ⟨?_, stem, h ▸ hstem⟩
    simp only [maxNameLength] at hlength
    omega
  · intro h
    obtain ⟨hlength, stem, hstem⟩ := h
    have hlist : base.toList = stem.toList ++ suffixTail n := by
      rw [hstem, String.toList_append, toList_underscore_append]
    have hroom : stem.toList.length = maxNameLength - (suffixTail n).length := by
      rw [← String.length_toList, hlist, List.length_append] at hlength
      simp only [maxNameLength]
      omega
    rw [← String.toList_inj, toList_suffixed, hlist, ← hroom, List.take_left]

/-! ## the numbers -/

/-- `suffixNumbers` are the numbers from 1 to `maxSuffix`. -/
theorem mem_suffixNumbers {n : Nat} : n ∈ suffixNumbers ↔ 1 ≤ n ∧ n ≤ maxSuffix := by
  rw [suffixNumbers, List.mem_range'_1]
  omega

/-- `suffixNumbers` are all different. -/
theorem nodup_suffixNumbers : suffixNumbers.Nodup :=
  List.nodup_range'

/-! ## the laws of numbered forms -/

/-- What `suffixed` gives, for every base and every number that is tried. It is as much of the
beginning of the base as leaves room for the tail in 20 characters, and then the tail. Two such
names are the same iff they have one number and their bases begin alike, as far as they are kept. A
base is its own form iff it has 20 characters and ends in the tail already. The forms of a valid
name are valid. -/
theorem suffixed_laws (base base' : String) (n m : Nat) (hn : n ≤ 999) :
    (suffixed base n).length =
      min base.length (20 - ("_" ++ toString n).length) + ("_" ++ toString n).length ∧
    (suffixed base n).length ≤ 20 ∧
    (∃ stem : String, stem.toList <+: base.toList ∧
      suffixed base n = stem ++ ("_" ++ toString n)) ∧
    (suffixed base n = suffixed base' m ↔ n = m ∧
      base.toList.take (20 - ("_" ++ toString n).length) =
        base'.toList.take (20 - ("_" ++ toString n).length)) ∧
    (suffixed base n = base ↔ base.length = 20 ∧ ∃ stem, base = stem ++ ("_" ++ toString n)) ∧
    (isValidName base = true → isValidName (suffixed base n) = true) := by
  refine ⟨?length, length_suffixed_le base hn, exists_stem_suffixed base n, ?same,
    suffixed_eq_self_iff hn, fun hbase => isValidName_suffixed hbase hn⟩
  case length => rw [length_suffixed, Nat.min_comm, length_underscore_append, maxNameLength]
  case same =>
    rw [suffixed_eq_suffixed_iff, length_underscore_append, maxNameLength]
    exact and_congr_right fun heq => by rw [heq]

/-- A text of 20 characters that ends in the tail of number 10 is its own form with that
number, and that of a longer text with the same first 17 characters. Number 9 keeps one
character more of them and tells the two apart. -/
theorem suffixed_laws_ten :
    9 ≤ 999 ∧ 10 ≤ 999 ∧
    isValidName "abcdefghijklmnopq_10" = true ∧
    suffixed "abcdefghijklmnopq_10" 10 = "abcdefghijklmnopq_10" ∧
    suffixed "abcdefghijklmnopq_10" 10 = suffixed "abcdefghijklmnopqrstuvw" 10 ∧
    suffixed "abcdefghijklmnopq_10" 9 ≠ suffixed "abcdefghijklmnopqrstuvw" 9 ∧
    (suffixed "abcdefghijklmnopq_10" 9).length = 20 ∧
    isValidName (suffixed "abcdefghijklmnopq_10" 9) = true := by
  have hvalid : isValidName "abcdefghijklmnopq_10" = true := by decide
  obtain ⟨-, -, -, hten, hself, -⟩ :=
    suffixed_laws "abcdefghijklmnopq_10" "abcdefghijklmnopqrstuvw" 10 10 (by decide)
  obtain ⟨hlength, -, -, hnine, -, hform⟩ :=
    suffixed_laws "abcdefghijklmnopq_10" "abcdefghijklmnopqrstuvw" 9 9 (by decide)
  refine ⟨by decide, by decide, hvalid, hself.mpr ⟨by decide, "abcdefghijklmnopq", by decide⟩,
    hten.mpr ⟨rfl, by decide⟩, ?_, hlength.trans (by decide), hform hvalid⟩
  intro heq
  exact absurd (hnine.mp heq).2 (by decide)

end PoolEnum
