import PoolEnum.Proofs.Assignment

/-!
# PoolEnum.Proofs.Claims

Runs of claims on one registry, said without the registry.

`Answer given candidate result` is what one claim is told after the names
`given`: what is due to its candidate, or that the candidate is used up.
`Answers` runs that along a list of claims, where only what is granted adds to
the names given. `claimAll_answers` ties the two to the registry.

A refused claim adds nothing, so the claims that were granted make a run of
their own (`Answers.granted`) with the same results (`claimAll_grantedOnly`).
-/

namespace PoolEnum

/-! ## results -/

/-- The name that a claim was given. -/
def givenName? : Except Exhausted Claim → Option String
  | .ok c => some c.name
  | .error _ => none

/-- The names that claims were given, in order. -/
def givenNames (results : List (Except Exhausted Claim)) : List String :=
  results.filterMap givenName?

/-- Whether a claim was given a name. -/
def isGranted : Except Exhausted Claim → Bool
  | .ok _ => true
  | .error _ => false

/-- The candidates whose claims were given a name. -/
def grantedOnly (candidates : List String) (results : List (Except Exhausted Claim)) :
    List String :=
  ((candidates.zip results).filter fun row => isGranted row.2).map Prod.fst

theorem givenNames_cons (result : Except Exhausted Claim)
    (results : List (Except Exhausted Claim)) :
    givenNames (result :: results) = (givenName? result).toList ++ givenNames results := by
  cases result <;> rfl

theorem toList_givenName?_error (fault : Exhausted) :
    (givenName? (.error fault)).toList = [] := by
  rfl

/-! ## answers -/

/-- What a claim of `candidate` is told after the names `given`. -/
inductive Answer (given : List String) (candidate : String) : Except Exhausted Claim → Prop
  | granted {c : Claim} : Grants given candidate c → Answer given candidate (.ok c)
  | refused : UsedUp given candidate → Answer given candidate (.error { base := candidate })

/-- What claims made one after another are told after the names `given`. -/
inductive Answers : List String → List String → List (Except Exhausted Claim) → Prop
  | nil {given : List String} : Answers given [] []
  | cons {given candidates : List String} {candidate : String}
      {result : Except Exhausted Claim} {results : List (Except Exhausted Claim)} :
      Answer given candidate result →
        Answers (given ++ (givenName? result).toList) candidates results →
        Answers given (candidate :: candidates) (result :: results)

section

variable {given candidates : List String} {candidate : String}
  {result result' : Except Exhausted Claim} {results results' : List (Except Exhausted Claim)}

/-- There is one `Answer` to a claim. -/
theorem Answer.unique (h : Answer given candidate result) (h' : Answer given candidate result') :
    result = result' := by
  cases h with
  | granted hgrant =>
      cases h' with
      | granted hgrant' => rw [hgrant.unique hgrant']
      | refused hused => exact absurd hused hgrant.not_usedUp
  | refused hused =>
      cases h' with
      | granted hgrant => exact absurd hused hgrant.not_usedUp
      | refused _ => rfl

/-- The `Answer` to a claim is its candidate as it is iff nobody has it. -/
theorem Answer.eq_plain_iff (h : Answer given candidate result) :
    result = .ok { name := candidate, suffix := none } ↔ candidate ∉ given := by
  cases h with
  | granted hgrant =>
      cases hgrant with
      | plain free => exact iff_of_true rfl free
      | numbered taken _ _ _ _ => exact iff_of_false (by simp) (not_not_intro taken)
  | refused hused => exact iff_of_false (by simp) (not_not_intro hused.1)

/-- A name that is its candidate carries no number. -/
theorem Grants.suffix_eq_none_iff {c : Claim} (h : Grants given candidate c) :
    c.suffix = none ↔ c.name = candidate := by
  cases h with
  | plain _ => exact iff_of_true rfl rfl
  | numbered taken _ _ free _ =>
      refine iff_of_false (by simp) ?_
      intro heq
      dsimp only at heq
      rw [heq] at free
      exact free taken

namespace Answers

theorem length_eq (h : Answers given candidates results) :
    results.length = candidates.length := by
  induction h with
  | nil => rfl
  | cons _ _ ih => rw [List.length_cons, List.length_cons, ih]

/-- The `Answers` to a run of claims are fixed by its candidates. -/
theorem unique (h : Answers given candidates results) (h' : Answers given candidates results') :
    results = results' := by
  induction h generalizing results' with
  | nil => cases h'; rfl
  | cons hanswer _ ih =>
      cases h' with
      | cons hanswer' hrest' =>
          have hresult := hanswer.unique hanswer'
          subst hresult
          rw [ih hrest']

/-- Claim number `k` is told what is due after the names given before it. -/
theorem answer_getElem (h : Answers given candidates results) (k : Nat)
    (hc : k < candidates.length) (hr : k < results.length) :
    Answer (given ++ givenNames (results.take k)) candidates[k] results[k] := by
  induction h generalizing k with
  | nil => simp at hr
  | cons hanswer _ ih =>
      cases k with
      | zero => simpa [givenNames] using hanswer
      | succ k =>
          have hrest := ih k (by simpa using hc) (by simpa using hr)
          rw [List.append_assoc] at hrest
          simpa [givenNames_cons] using hrest

/-- The claims that are granted are granted without the others as well. -/
theorem granted (h : Answers given candidates results) :
    ∃ claims, Granted given (grantedOnly candidates results) claims ∧
      claims.map Claim.name = givenNames results := by
  induction h with
  | nil => exact ⟨[], .nil, rfl⟩
  | cons hanswer _ ih =>
      obtain ⟨claims, hgranted, hnames⟩ := ih
      cases hanswer with
      | @granted c hgrant =>
          refine ⟨c :: claims, .cons hgrant hgranted, ?_⟩
          rw [List.map_cons, hnames, givenNames_cons]
          rfl
      | refused _ =>
          rw [toList_givenName?_error, List.append_nil] at hgranted
          exact ⟨claims, hgranted, hnames⟩

end Answers

end

/-! ## the registry -/

namespace Registry

variable {r r' : Registry} {given : List String}

/-- `claim` tells what is due after the names that the registry holds, which then holds what was
given as well. -/
theorem claim_answer (h : r.HoldsExactly given) (candidate : String) :
    Answer given candidate (r.claim candidate).1 ∧
      (r.claim candidate).2.HoldsExactly (given ++ (givenName? (r.claim candidate).1).toList) := by
  rcases r.claim_eq h candidate with ⟨c, hgrant, hclaim⟩ | ⟨hused, hclaim⟩
  · rw [hclaim]
    exact ⟨.granted hgrant, h.add c.name⟩
  · rw [hclaim]
    refine ⟨.refused hused, ?_⟩
    rwa [toList_givenName?_error, List.append_nil]

/-- `claimAll` tells each claim what is due, and the registry then holds the names given before and
in the run. -/
theorem claimAll_answers (h : r.HoldsExactly given) (candidates : List String) :
    Answers given candidates (r.claimAll candidates).1 ∧
      (r.claimAll candidates).2.HoldsExactly (given ++ givenNames (r.claimAll candidates).1) := by
  induction candidates generalizing r given with
  | nil => simpa [claimAll, givenNames] using ⟨Answers.nil, h⟩
  | cons candidate candidates ih =>
      obtain ⟨hanswer, hholds⟩ := claim_answer h candidate
      obtain ⟨hanswers, hall⟩ := ih hholds
      refine ⟨.cons hanswer hanswers, ?_⟩
      rw [List.append_assoc, ← givenNames_cons] at hall
      exact hall

/-- A `claim` that is refused leaves the registry as it was. -/
theorem eq_of_claim_error {candidate : String} {fault : Exhausted}
    (h : r.claim candidate = (.error fault, r')) : r' = r := by
  unfold claim at h
  split at h
  · split at h
    · simp at h
    · simp only [Prod.mk.injEq] at h
      exact h.2.symm
  · simp at h

/-- `claimAll` without the refused claims gives the others the same results and leaves the same
registry. -/
theorem claimAll_grantedOnly (r : Registry) (candidates : List String) :
    r.claimAll (grantedOnly candidates (r.claimAll candidates).1) =
      ((r.claimAll candidates).1.filter isGranted, (r.claimAll candidates).2) := by
  induction candidates generalizing r with
  | nil => rfl
  | cons candidate candidates ih =>
      cases hclaim : r.claim candidate with
      | mk result next =>
          cases result with
          | ok c =>
              have hrest := ih next
              simp only [claimAll, hclaim, grantedOnly, List.zip_cons_cons, List.filter_cons,
                isGranted, if_true, List.map_cons] at hrest ⊢
              rw [hrest]
          | error fault =>
              have hsame : next = r := eq_of_claim_error hclaim
              subst hsame
              have hrest := ih next
              simp only [claimAll, hclaim, grantedOnly, List.zip_cons_cons, List.filter_cons,
                isGranted, Bool.false_eq_true, if_false] at hrest ⊢
              exact hrest

/-- What `claimAll` on a fresh registry tells, whatever the candidates: no name is given twice; a
candidate is given as it is, and without a `suffix`, iff no claim before was given it; and the
refused claims might as well not have been made. -/
theorem claimAll_distinct (candidates : List String) :
    let results := (empty.claimAll candidates).1
    results.length = candidates.length ∧
    (givenNames results).Nodup ∧
    (∀ k (hc : k < candidates.length) (hr : k < results.length),
      (results[k] = .ok { name := candidates[k], suffix := none } ↔
        candidates[k] ∉ givenNames (results.take k)) ∧
      ∀ c, results[k] = .ok c → (c.suffix = none ↔ c.name = candidates[k])) ∧
    empty.claimAll (grantedOnly candidates results) =
      (results.filter isGranted, (empty.claimAll candidates).2) := by
  intro results
  have hanswers : Answers [] candidates results :=
    (claimAll_answers holdsExactly_empty candidates).1
  refine ⟨hanswers.length_eq, ?_, ?_, claimAll_grantedOnly empty candidates⟩
  · obtain ⟨claims, hgranted, hnames⟩ := hanswers.granted
    rw [← hnames]
    exact hgranted.nodup.1
  · intro k hc hr
    have hanswer := hanswers.answer_getElem k hc hr
    rw [List.nil_append] at hanswer
    refine ⟨hanswer.eq_plain_iff, ?_⟩
    intro c hresult
    rw [hresult] at hanswer
    cases hanswer with
    | granted hgrant => exact hgrant.suffix_eq_none_iff

end Registry

end PoolEnum
