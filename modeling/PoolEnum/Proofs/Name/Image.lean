import PoolEnum.Proofs.Name.Segment

/-!
# PoolEnum.Proofs.Name.Image

Valid names are named after themselves.

Every step from a text to its name has nothing to do on a valid name: there is
no blank to trim, no slash to cut at, no digit to guard, no per cent sign to
spell out, no run to write and nothing beyond 20 characters. With
`isValidName_derive` this makes the valid names the image of derivation, and
deriving a second time changes nothing.
-/

namespace PoolEnum

variable {cs : List Char} {s : String}

/-! ## word characters are kept -/

/-- `expandMarks` leaves texts without per cent signs as they are. -/
theorem expandMarks_eq_self (h : '%' ∉ cs) : expandMarks cs = cs := by
  induction cs with
  | nil => rfl
  | cons c cs ih =>
      have hc : c ≠ '%' := fun heq => h (heq ▸ List.mem_cons_self)
      have hcs : '%' ∉ cs := fun hmem => h (List.mem_cons_of_mem c hmem)
      rw [expandMarks, List.flatMap_cons, if_neg hc, ← expandMarks, ih hcs, List.singleton_append]

/-- `squeeze` leaves texts as they are whose characters may all stand in a name. -/
theorem squeeze_of_isWordChar (h : ∀ c ∈ cs, isWordChar c = true) : squeeze false cs = cs := by
  induction cs with
  | nil => rfl
  | cons c cs ih =>
      rw [squeeze, if_pos (h c List.mem_cons_self), ih fun d hd => h d (List.mem_cons_of_mem c hd)]

/-- `digitGuard` puts nothing in front of an identifier. -/
theorem digitGuard_of_isIdentifier (h : isIdentifier s = true) : digitGuard s.toList = [] := by
  obtain ⟨c, cs, hlist, hc, -⟩ := isIdentifier_iff.mp h
  rw [hlist, digitGuard, isDigit_of_isWordStart hc, if_neg Bool.false_ne_true]

/-- `spell` leaves an identifier as it is. -/
theorem spell_of_isIdentifier (h : isIdentifier s = true) : spell s.toList = s.toList := by
  rw [spell, digitGuard_of_isIdentifier h, List.nil_append,
    expandMarks_eq_self (not_mem_of_isIdentifier h rfl),
    squeeze_of_isWordChar (isWordChar_of_mem_isIdentifier h)]

/-! ## valid names -/

/-- `normalizeTracked` leaves a valid name as it is, and cuts nothing off. -/
theorem normalizeTracked_of_isValidName (h : isValidName s = true) :
    normalizeTracked s.toList = { name := s, truncated := false } := by
  obtain ⟨hidentifier, hlength⟩ := isValidName_iff.mp h
  obtain ⟨c, cs, hlist, -⟩ := isIdentifier_iff.mp hidentifier
  have hshort : s.toList.length ≤ maxNameLength := by rwa [String.length_toList]
  have hne : s.toList ≠ [] := by simp [hlist]
  rw [normalizeTracked_eq hne, spell_of_isIdentifier hidentifier,
    List.take_of_length_le hshort, String.ofList_toList, decide_eq_false (Nat.not_lt.mpr hshort)]

/-- `derive` leaves a valid name as it is, and cuts nothing off. -/
theorem derive_of_isValidName (h : isValidName s = true) :
    derive s = { name := s, truncated := false } := by
  have hidentifier := (isValidName_iff.mp h).1
  rw [derive, trim_of_isWordChar (isWordChar_of_mem_isIdentifier hidentifier),
    lastSegment_eq_self (not_mem_of_isIdentifier hidentifier rfl),
    normalizeTracked_of_isValidName h]

/-- `deriveName` gives what `isValidName` tells and all of it, and so does `normalize`: a valid name
is left as it is, without a flag. So doing either twice is doing it once. -/
theorem deriveName_image :
    (∀ raw, isValidName (deriveName raw) = true ∧ isValidName (normalize raw) = true) ∧
    (∀ s, isValidName s = true → deriveName s = s ∧ (derive s).truncated = false ∧
      normalize s = s ∧ (normalizeTracked s.toList).truncated = false) ∧
    (∀ s, isValidName s = true ↔ ∃ raw, deriveName raw = s) ∧
    ∀ raw, deriveName (deriveName raw) = deriveName raw ∧
      normalize (normalize raw) = normalize raw := by
  have hderive : ∀ raw, isValidName (deriveName raw) = true := isValidName_derive
  have hnormalize : ∀ raw, isValidName (normalize raw) = true :=
    fun raw => isValidName_normalizeTracked raw.toList
  have hfixed : ∀ s, isValidName s = true → deriveName s = s ∧ (derive s).truncated = false ∧
      normalize s = s ∧ (normalizeTracked s.toList).truncated = false := by
    intro s hs
    rw [deriveName, normalize, derive_of_isValidName hs, normalizeTracked_of_isValidName hs]
    exact ⟨rfl, rfl, rfl, rfl⟩
  refine ⟨fun raw => ⟨hderive raw, hnormalize raw⟩, hfixed, ?_, ?_⟩
  · intro s
    constructor
    · intro hs
      exact ⟨s, (hfixed s hs).1⟩
    · intro h
      obtain ⟨raw, rfl⟩ := h
      exact hderive raw
  · intro raw
    exact ⟨(hfixed _ (hderive raw)).1, (hfixed _ (hnormalize raw)).2.2.1⟩

end PoolEnum
