import PoolEnum.Proofs.Capacity

/-!
# PoolEnum.Proofs.Progress

What the claims of one candidate are told in a run, whatever is claimed in between.

Names are added and never given back. So a candidate stays taken once it was given
a name (`Grants.taken`), the numbers up to the one it got stay behind
(`Grants.forms_taken`), and a candidate that is used up stays so (`UsedUp.mono`).
`Grants.number_lt` compares two names granted to one candidate, and
`Registry.claimAll_progress` says what this comes to in a run.
-/

namespace PoolEnum

/-! ## two claims of one candidate -/

section

variable {given given' : List String} {candidate : String} {c first later : Claim}

/-- A candidate that is `UsedUp` stays so. -/
theorem UsedUp.mono (h : UsedUp given candidate) (hsub : given ⊆ given') :
    UsedUp given' candidate :=
  ⟨hsub h.1, fun n hone hmax => hsub (h.2 n hone hmax)⟩

/-- A candidate that is granted a name is taken from then on. -/
theorem Grants.taken (h : Grants given candidate c) : candidate ∈ given ++ [c.name] := by
  cases h with
  | plain _ => exact List.mem_append_right given List.mem_cons_self
  | numbered taken _ _ _ _ => exact List.mem_append_left _ taken

/-- With a numbered form all those before it are taken. -/
theorem Grants.forms_taken (h : Grants given candidate c) {n m : Nat} (hn : c.suffix = some n)
    (hone : 1 ≤ m) (hle : m ≤ n) : suffixed candidate m ∈ given ++ [c.name] := by
  cases h with
  | plain _ => contradiction
  | @numbered k _ _ _ _ least =>
      obtain rfl : k = n := Option.some.inj hn
      rcases Nat.lt_or_eq_of_le hle with hlt | rfl
      · exact List.mem_append_left _ (least m hone hlt)
      · exact List.mem_append_right given List.mem_cons_self

/-- Of two names granted to one candidate the later one is numbered, and its number
is the greater one. -/
theorem Grants.number_lt (hfirst : Grants given candidate first)
    (hsub : given ++ [first.name] ⊆ given') (hlater : Grants given' candidate later) :
    ∃ n, later.suffix = some n ∧ ∀ m, first.suffix = some m → m < n := by
  cases hlater with
  | plain free => exact absurd (hsub hfirst.taken) free
  | @numbered n _ hone _ free _ =>
      refine ⟨n, rfl, ?_⟩
      intro m hm
      apply Nat.lt_of_not_le
      intro hle
      exact free (hsub (hfirst.forms_taken hm hone hle))

/-- A claim after one of the same candidate that was refused is refused as well. -/
theorem Answer.error_of_error {fault : Exhausted} {result : Except Exhausted Claim}
    (hfirst : Answer given candidate (.error fault)) (hsub : given ⊆ given')
    (hlater : Answer given' candidate result) : result = .error fault := by
  cases hfirst with
  | refused hused => exact hlater.unique (.refused (hused.mono hsub))

/-- What was given up to one claim, with what that claim gave, was given before every
later one. -/
theorem append_givenNames_take_subset (given : List String)
    {results : List (Except Exhausted Claim)} {j k : Nat} (hjk : j < k) (hj : j < results.length) :
    given ++ givenNames (results.take j) ++ (givenName? results[j]).toList ⊆
      given ++ givenNames (results.take k) := by
  have hstep : givenNames (results.take (j + 1)) =
      givenNames (results.take j) ++ (givenName? results[j]).toList := by
    rw [List.take_succ_eq_append_getElem hj, givenNames, List.filterMap_append, ← givenNames]
    cases results[j] <;> rfl
  rw [List.append_assoc, ← hstep]
  have hfront : results.take (j + 1) <+: results.take k := List.take_prefix_take_left hjk
  exact ((hfront.sublist.filterMap givenName?).append_left given).subset

end

/-! ## claims in a run -/

namespace Registry

/-- How the claims of one candidate go on in `claimAll`, whatever is claimed before, in between or
afterwards, and whatever the run starts from. Of two that are given names, the later one has a
`suffix`, which is greater than that of the earlier one if this has one. A claim that comes after a
refused one is refused with the same fault. -/
theorem claimAll_progress (r : Registry) (candidates : List String) :
    let results := (r.claimAll candidates).1
    results.length = candidates.length ∧
    ∀ (candidate : String) (j k : Nat), j < k → candidates[j]? = some candidate →
      candidates[k]? = some candidate →
        (∀ first later, results[j]? = some (.ok first) → results[k]? = some (.ok later) →
          ∃ n, later.suffix = some n ∧ ∀ m, first.suffix = some m → m < n) ∧
        ∀ fault, results[j]? = some (.error fault) → results[k]? = some (.error fault) := by
  intro results
  obtain ⟨given, hholds⟩ := r.exists_holdsExactly
  have hanswers : Answers given candidates results := (claimAll_answers hholds candidates).1
  refine ⟨hanswers.length_eq, ?_⟩
  intro candidate j k hjk hj hk
  obtain ⟨hjc, rfl⟩ := List.getElem?_eq_some_iff.mp hj
  obtain ⟨hkc, hsame⟩ := List.getElem?_eq_some_iff.mp hk
  have hjr : j < results.length := hanswers.length_eq ▸ hjc
  have hkr : k < results.length := hanswers.length_eq ▸ hkc
  have hfirst := hanswers.answer_getElem j hjc hjr
  have hlater := hanswers.answer_getElem k hkc hkr
  have hsub := append_givenNames_take_subset given hjk hjr
  rw [hsame] at hlater
  rw [List.getElem?_eq_getElem hjr, List.getElem?_eq_getElem hkr]
  simp only [Option.some.injEq]
  refine ⟨?granted, ?refused⟩
  case granted =>
    intro first later hok hok'
    rw [hok] at hfirst hsub
    rw [hok'] at hlater
    cases hfirst with
    | granted hgrant =>
        cases hlater with
        | granted hgrant' => exact hgrant.number_lt hsub hgrant'
  case refused =>
    intro fault herror
    rw [herror] at hfirst hsub
    rw [toList_givenName?_error, List.append_nil] at hsub
    exact hfirst.error_of_error hsub hlater

/-- `claimAll` can make its claims in two parts. -/
theorem claimAll_append (r : Registry) (front back : List String) :
    (r.claimAll (front ++ back)).1 =
      (r.claimAll front).1 ++ ((r.claimAll front).2.claimAll back).1 := by
  induction front generalizing r with
  | nil => rfl
  | cons c cs ih => simp only [List.cons_append, claimAll, ih]

/-- Claims of one candidate, the second form of which is claimed in between. -/
def interleaved : List String :=
  ["a", "a", "a_2", "a"]

/-- As many claims of a candidate as it is given names, and one more, and then another after
a claim of something else. -/
def exhausting : List String :=
  List.replicate 1000 "abcdefghijklmnopqr_1" ++ ["x", "abcdefghijklmnopqr_1"]

/-- The last of a thousand claims of a candidate that is its own first form is refused. -/
theorem getElem?_claimAll_exhausting :
    (empty.claimAll exhausting).1[999]? = some (.error { base := "abcdefghijklmnopqr_1" }) := by
  have hown : OwnForm "abcdefghijklmnopqr_1" 1 := ⟨by decide, "abcdefghijklmnopqr", by decide⟩
  have hfront := claimAll_replicate_succ "abcdefghijklmnopqr_1" 999
  rw [numbersLeft_singleton_of_ownForm (by decide) hown] at hfront
  have hleft : ((List.range' 1 999).erase 1)[998]? = none := by
    rw [List.getElem?_eq_none_iff, List.length_erase_of_mem (by simp), List.length_range']
  have hlength : (numberedResults "abcdefghijklmnopqr_1" ((List.range' 1 999).erase 1) 999).length =
      999 := by
    simp [numberedResults]
  rw [exhausting, claimAll_append, hfront, List.getElem?_append_left (by simp [hlength]),
    List.getElem?_cons_succ, numberedResults, List.getElem?_map, List.getElem?_range (by decide),
    Option.map_some, hleft]
  rfl

set_option maxRecDepth 10000 in
/-- The number that is lost in between is passed over, and the next one is greater. A candidate
that was refused is refused again after a claim of something else. -/
theorem claimAll_progress_interleaved :
    ((empty.claimAll interleaved).1[1]? = some (.ok { name := "a_1", suffix := some 1 }) ∧
      ∃ (later : Claim) (n : Nat), (empty.claimAll interleaved).1[3]? = some (.ok later) ∧
        later.name = "a_3" ∧ later.suffix = some n ∧ 1 < n) ∧
    (empty.claimAll exhausting).1[999]? = some (.error { base := "abcdefghijklmnopqr_1" }) ∧
      (empty.claimAll exhausting).1[1001]? = some (.error { base := "abcdefghijklmnopqr_1" }) := by
  have hsecond : (empty.claimAll interleaved).1[1]? =
      some (.ok { name := "a_1", suffix := some 1 }) := by cbv
  have hfourth : (empty.claimAll interleaved).1[3]? =
      some (.ok { name := "a_3", suffix := some 3 }) := by cbv
  have hprogress := (claimAll_progress empty interleaved).2 "a" 1 3 (by decide) rfl rfl
  obtain ⟨n, hnumber, hgreater⟩ := hprogress.1 _ _ hsecond hfourth
  have hearly : exhausting[999]? = some "abcdefghijklmnopqr_1" := by
    rw [exhausting, List.getElem?_append_left (by simp), List.getElem?_replicate_of_lt (by decide)]
  have hlate : exhausting[1001]? = some "abcdefghijklmnopqr_1" := by
    rw [exhausting, List.getElem?_append_right (by simp), List.length_replicate]
    rfl
  have hrefused := (claimAll_progress empty exhausting).2 _ 999 1001 (by decide) hearly hlate
  exact ⟨⟨hsecond, _, n, hfourth, rfl, hnumber, hgreater 1 rfl⟩, getElem?_claimAll_exhausting,
    hrefused.2 _ getElem?_claimAll_exhausting⟩

end Registry

end PoolEnum
