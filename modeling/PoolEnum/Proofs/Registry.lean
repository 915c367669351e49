import PoolEnum.Registry
import PoolEnum.Proofs.Name.Suffix

/-!
# PoolEnum.Proofs.Registry

What a claim gives, said without a registry.

A registry matters only through the names it holds, and these are the names
given so far. `Grants given candidate c` says what a claim of `candidate` gives
after the names `given`, and `UsedUp given candidate` that it gives nothing.
`claim_eq` ties the two to `Registry.claim`; nothing outside this module looks
into the registry.
-/

namespace PoolEnum

/-! ## what is due to a candidate -/

/-- What a claim of `candidate` gives after the names `given`: the candidate as
it is, or if that was given before, its least numbered form that was not. -/
inductive Grants (given : List String) (candidate : String) : Claim → Prop
  | plain (free : candidate ∉ given) :
      Grants given candidate { name := candidate, suffix := none }
  | numbered {n : Nat} (taken : candidate ∈ given) (one_le : 1 ≤ n) (le_max : n ≤ maxSuffix)
      (free : suffixed candidate n ∉ given)
      (least : ∀ m, 1 ≤ m → m < n → suffixed candidate m ∈ given) :
      Grants given candidate { name := suffixed candidate n, suffix := some n }

/-- A candidate of which every form was given before. -/
def UsedUp (given : List String) (candidate : String) : Prop :=
  candidate ∈ given ∧ ∀ n, 1 ≤ n → n ≤ maxSuffix → suffixed candidate n ∈ given

namespace Grants

variable {given : List String} {candidate : String} {c c' : Claim}

/-- What a claim `Grants` is new. -/
theorem name_not_mem (h : Grants given candidate c) : c.name ∉ given := by
  cases h with
  | plain free => exact free
  | numbered _ _ _ free _ => exact free

/-- Nothing is granted to a candidate that is `UsedUp`. -/
theorem not_usedUp (h : Grants given candidate c) : ¬ UsedUp given candidate := by
  intro h
  obtain ⟨hmem, hall⟩ := h
  cases h with
  | plain free => exact free hmem
  | numbered _ one_le le_max free _ => exact free (hall _ one_le le_max)

/-- There is one name due to a candidate. -/
theorem unique (h : Grants given candidate c) (h' : Grants given candidate c') : c = c' := by
  cases h with
  | plain free =>
      cases h' with
      | plain _ => rfl
      | numbered taken _ _ _ _ => exact absurd taken free
  | @numbered n taken one_le le_max free least =>
      cases h' with
      | plain free' => exact absurd taken free'
      | @numbered m _ one_le' _ free' least' =>
          have hmn : m = n := by
            rcases Nat.lt_trichotomy m n with hlt | heq | hgt
            · exact absurd (least m one_le' hlt) free'
            · exact heq
            · exact absurd (least' n one_le hgt) free
          rw [hmn]

/-- A granted name is the candidate or one of its numbered forms. -/
theorem name_eq (h : Grants given candidate c) :
    c.name = candidate ∨ ∃ n, 1 ≤ n ∧ n ≤ maxSuffix ∧ c.name = suffixed candidate n := by
  cases h with
  | plain _ => exact .inl rfl
  | @numbered n _ one_le le_max _ _ => exact .inr ⟨n, one_le, le_max, rfl⟩

/-- What is granted to a valid name is one. -/
theorem isValidName_name (h : Grants given candidate c) (hc : isValidName candidate = true) :
    isValidName c.name = true := by
  rcases h.name_eq with heq | ⟨n, -, hn, heq⟩
  · rwa [heq]
  · rw [heq]
    exact isValidName_suffixed hc hn

end Grants

/-! ## the registry -/

namespace Registry

variable {r : Registry} {given : List String}

/-- The names that a registry holds are the names given so far. -/
def HoldsExactly (r : Registry) (given : List String) : Prop :=
  ∀ name, r.holds name = true ↔ name ∈ given

theorem holdsExactly_empty : empty.HoldsExactly [] := by
  intro name
  simp

/-- Every registry holds the names of some list. -/
theorem exists_holdsExactly (r : Registry) : ∃ given, r.HoldsExactly given := by
  refine ⟨r.taken.toList, ?_⟩
  intro name
  rw [holds, Std.HashSet.mem_toList, Std.HashSet.mem_iff_contains]

theorem HoldsExactly.add (h : r.HoldsExactly given) (name : String) :
    (r.add name).HoldsExactly (given ++ [name]) := by
  intro other
  rw [holds_add, Bool.or_eq_true, h other, beq_iff_eq, List.mem_append, List.mem_singleton,
    or_comm, eq_comm]

theorem HoldsExactly.holds_eq_false (h : r.HoldsExactly given) {name : String} :
    r.holds name = false ↔ name ∉ given := by
  rw [← h name, Bool.not_eq_true]

/-- `firstFree` finds the least number whose form is free. -/
theorem firstFree_eq_some_iff {base : String} {n : Nat} :
    r.firstFree base = some n ↔
      1 ≤ n ∧ n ≤ maxSuffix ∧ r.holds (suffixed base n) = false ∧
        ∀ m, 1 ≤ m → m < n → r.holds (suffixed base m) = true := by
  rw [firstFree, suffixNumbers, List.find?_range'_eq_some, ← suffixNumbers, mem_suffixNumbers]
  simp only [Bool.not_eq_true', Bool.not_not]
  constructor
  · intro h
    obtain ⟨hfree, ⟨hone, hmax⟩, hleast⟩ := h
    exact ⟨hone, hmax, hfree, hleast⟩
  · intro h
    obtain ⟨hone, hmax, hfree, hleast⟩ := h
    exact ⟨hfree, ⟨hone, hmax⟩, hleast⟩

/-- `firstFree` finds no number iff no form is free. -/
theorem firstFree_eq_none_iff {base : String} :
    r.firstFree base = none ↔
      ∀ n, 1 ≤ n → n ≤ maxSuffix → r.holds (suffixed base n) = true := by
  rw [firstFree, List.find?_eq_none]
  simp only [mem_suffixNumbers, Bool.not_eq_true, Bool.not_eq_false', and_imp]

/-- `claim` gives what is due after the names given so far and notes it, or it refuses since the
candidate is `UsedUp`, and leaves the registry alone. -/
theorem claim_eq (h : r.HoldsExactly given) (candidate : String) :
    (∃ c, Grants given candidate c ∧ r.claim candidate = (.ok c, r.add c.name)) ∨
      (UsedUp given candidate ∧
        r.claim candidate = (.error { base := candidate }, r)) := by
  by_cases htaken : r.holds candidate = true
  · have hmem : candidate ∈ given := (h candidate).mp htaken
    cases hfirst : r.firstFree candidate with
    | some n =>
        obtain ⟨hone, hmax, hfree, hleast⟩ := firstFree_eq_some_iff.mp hfirst
        refine .inl ⟨{ name := suffixed candidate n, suffix := some n }, ?_, ?_⟩
        · exact .numbered hmem hone hmax (h.holds_eq_false.mp hfree)
            fun m hm hlt => (h _).mp (hleast m hm hlt)
        · simp only [claim, htaken, if_true, hfirst]
    | none =>
        have hall := firstFree_eq_none_iff.mp hfirst
        refine .inr ⟨⟨hmem, fun n hone hmax => (h _).mp (hall n hone hmax)⟩, ?_⟩
        simp only [claim, htaken, if_true, hfirst]
  · have hfree : r.holds candidate = false := by simpa using htaken
    refine .inl ⟨{ name := candidate, suffix := none }, .plain (h.holds_eq_false.mp hfree), ?_⟩
    rw [claim, if_neg htaken]

end Registry

end PoolEnum
