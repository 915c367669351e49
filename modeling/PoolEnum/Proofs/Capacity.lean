import PoolEnum.Proofs.Claims
import PoolEnum.Proofs.Generation

/-!
# PoolEnum.Proofs.Capacity

How often one candidate can be claimed.

Once a candidate is taken, what is left for it are the numbers whose forms were
not given to anybody (`numbersLeft`). A claim gets the first of them, and the
others stay, since the forms of one candidate all differ
(`numbersLeft_append_suffixed`). So claims made one after another get the numbers
in turn and are refused from then on (`answers_replicate`).

On a fresh registry all numbers are left behind the first claim, unless the
candidate is one of its own forms: then its own number is missing
(`numbersLeft_singleton_of_ownForm`). The main result,
`Registry.claimAll_replicate`, counts what this comes to.
-/

namespace PoolEnum

/-! ## the numbers that are left -/

/-- The numbers whose forms of `candidate` are not among the names `given`, in
the order in which they are tried. -/
def numbersLeft (given : List String) (candidate : String) : List Nat :=
  suffixNumbers.filter fun n => suffixed candidate n ∉ given

section

variable {given : List String} {candidate : String} {n : Nat} {ns : List Nat}

/-- A candidate that is taken is due the first of its `numbersLeft`. -/
theorem grants_of_numbersLeft (htaken : candidate ∈ given)
    (h : numbersLeft given candidate = n :: ns) :
    Grants given candidate { name := suffixed candidate n, suffix := some n } := by
  have hfirst := congrArg List.head? h
  rw [numbersLeft, List.head?_filter, List.head?_cons, suffixNumbers,
    List.find?_range'_eq_some, ← suffixNumbers, mem_suffixNumbers] at hfirst
  obtain ⟨hfree, ⟨hone, hmax⟩, hleast⟩ := hfirst
  exact .numbered htaken hone hmax (by simpa using hfree)
    fun m hm hlt => by simpa using hleast m hm hlt

/-- A candidate that is taken and has no `numbersLeft` is `UsedUp`. -/
theorem usedUp_of_numbersLeft (htaken : candidate ∈ given)
    (h : numbersLeft given candidate = []) : UsedUp given candidate := by
  refine ⟨htaken, ?_⟩
  intro m hone hmax
  have hm := List.filter_eq_nil_iff.mp h m (mem_suffixNumbers.mpr ⟨hone, hmax⟩)
  simpa using hm

/-- Giving the form with number `n` takes that number away and no other. -/
theorem numbersLeft_append_suffixed (given : List String) (candidate : String) (n : Nat) :
    numbersLeft (given ++ [suffixed candidate n]) candidate =
      (numbersLeft given candidate).erase n := by
  have hnodup : (numbersLeft given candidate).Nodup := nodup_suffixNumbers.filter _
  rw [hnodup.erase_eq_filter, numbersLeft, numbersLeft, List.filter_filter]
  congr 1
  funext m
  simp only [List.mem_append, List.mem_singleton, suffixed_inj]
  grind

end

/-! ## claims in turn -/

/-- What a claim of a candidate that is taken is told if the next number that is
left for it is this one, or if there is none. -/
def numberedResult (candidate : String) : Option Nat → Except Exhausted Claim
  | some n => .ok { name := suffixed candidate n, suffix := some n }
  | none => .error { base := candidate }

/-- What `k` claims of a candidate that is taken are told if it has `numbers`
left: these numbers in turn, and then that it is used up. -/
def numberedResults (candidate : String) (numbers : List Nat) (k : Nat) :
    List (Except Exhausted Claim) :=
  (List.range k).map fun j => numberedResult candidate numbers[j]?

theorem numberedResults_succ (candidate : String) (numbers : List Nat) (k : Nat) :
    numberedResults candidate numbers (k + 1) =
      numberedResult candidate numbers.head? :: numberedResults candidate numbers.tail k := by
  simp [numberedResults, List.range_succ_eq_map, List.head?_eq_getElem?, Function.comp_def]

/-- Claims of a candidate that is taken get its `numbersLeft` in turn. -/
theorem answers_replicate {given : List String} {candidate : String}
    (htaken : candidate ∈ given) (k : Nat) :
    Answers given (List.replicate k candidate)
      (numberedResults candidate (numbersLeft given candidate) k) := by
  induction k generalizing given with
  | zero => exact .nil
  | succ k ih =>
      cases hleft : numbersLeft given candidate with
      | nil =>
          have hrest := ih htaken
          rw [hleft] at hrest
          rw [List.replicate_succ, numberedResults_succ]
          refine .cons (.refused (usedUp_of_numbersLeft htaken hleft)) ?_
          show Answers (given ++ []) _ (numberedResults candidate [] k)
          rwa [List.append_nil]
      | cons n ns =>
          have hrest := ih (List.mem_append_left [suffixed candidate n] htaken)
          rw [numbersLeft_append_suffixed, hleft, List.erase_cons_head] at hrest
          rw [List.replicate_succ, numberedResults_succ]
          exact .cons (.granted (grants_of_numbersLeft htaken hleft)) hrest

/-- As many claims are granted as there are numbers for them. -/
theorem countP_numberedResults (candidate : String) (numbers : List Nat) (k : Nat) :
    (numberedResults candidate numbers k).countP isGranted = min k numbers.length := by
  induction k generalizing numbers with
  | zero => simp [numberedResults]
  | succ k ih =>
      rw [numberedResults_succ, List.countP_cons, ih]
      cases numbers with
      | nil => simp [numberedResult, isGranted]
      | cons n ns =>
          simp only [List.head?_cons, List.tail_cons, numberedResult, isGranted, if_true,
            List.length_cons]
          omega

/-! ## a fresh registry -/

/-- Where the candidate is all that was given, and is not its `OwnForm` with any number, none is
missing from `numbersLeft`. -/
theorem numbersLeft_singleton_of_not_ownForm {candidate : String}
    (h : ∀ m, 1 ≤ m → m ≤ 999 → ¬ OwnForm candidate m) :
    numbersLeft [candidate] candidate = List.range' 1 999 := by
  refine List.filter_eq_self.mpr ?_
  intro n hn
  obtain ⟨hone, hmax⟩ := mem_suffixNumbers.mp hn
  have hne := mt (suffixed_eq_self_iff hmax).mp (h n hone hmax)
  simpa using hne

theorem numbersLeft_singleton_of_ownForm {candidate : String} {m : Nat} (hm : m ≤ 999)
    (h : OwnForm candidate m) :
    numbersLeft [candidate] candidate = (List.range' 1 999).erase m := by
  have hself : suffixed candidate m = candidate := (suffixed_eq_self_iff hm).mpr h
  have hall : numbersLeft [] candidate = List.range' 1 999 := List.filter_eq_self.mpr (by simp)
  have hleft := numbersLeft_append_suffixed [] candidate m
  rwa [hself, hall, List.nil_append] at hleft

namespace Registry

/-- `claimAll` on a fresh registry gives the first claim its candidate, and the claims of it that
follow get its `numbersLeft` in turn. -/
theorem claimAll_replicate_succ (candidate : String) (k : Nat) :
    (empty.claimAll (List.replicate (k + 1) candidate)).1 =
      .ok { name := candidate, suffix := none } ::
        numberedResults candidate (numbersLeft [candidate] candidate) k := by
  have hrun : Answers [] (List.replicate (k + 1) candidate)
      (empty.claimAll (List.replicate (k + 1) candidate)).1 :=
    (claimAll_answers holdsExactly_empty _).1
  have hplain : Answer [] candidate (.ok { name := candidate, suffix := none }) :=
    .granted (.plain List.not_mem_nil)
  exact hrun.unique (.cons hplain (answers_replicate List.mem_cons_self k))

/-- How often a candidate can be claimed. The first claim of it on a fresh
registry is given the candidate itself, and each further one the shortened
candidate with the next number from 1 to 999; from then on, claims are refused.
That is 1000 names, unless the candidate is its own form with some number `m`:
this number is passed over, and there are 999. -/
theorem claimAll_replicate (c : String) (k : Nat) :
    ((∀ m, 1 ≤ m → m ≤ 999 → ¬ OwnForm c m) →
      (empty.claimAll (List.replicate (k + 1) c)).1 =
        .ok { name := c, suffix := none } :: numberedResults c (List.range' 1 999) k ∧
      (empty.claimAll (List.replicate (k + 1) c)).1.countP isGranted = min (k + 1) 1000) ∧
    (∀ m, 1 ≤ m → m ≤ 999 → OwnForm c m →
      (empty.claimAll (List.replicate (k + 1) c)).1 =
        .ok { name := c, suffix := none } :: numberedResults c ((List.range' 1 999).erase m) k ∧
      (empty.claimAll (List.replicate (k + 1) c)).1.countP isGranted = min (k + 1) 999) ∧
    (Failure.exhausted { base := c }).message =
      "No free name for '" ++ c ++ "': suffixes _1 to _999 are all taken" ∧
    ∀ n, suffixed c n =
      String.ofList (c.toList.take (min c.length (20 - ("_" ++ toString n).length)) ++
        ("_" ++ toString n).toList) := by
  have hresults := claimAll_replicate_succ c k
  generalize (empty.claimAll (List.replicate (k + 1) c)).1 = results at hresults ⊢
  have hcount : results.countP isGranted = min (k + 1) ((numbersLeft [c] c).length + 1) := by
    rw [hresults, List.countP_cons, countP_numberedResults]
    simp only [isGranted, if_true]
    omega
  refine ⟨?_, ?_, message_exhausted _, suffixed_eq c⟩
  · intro h
    rw [numbersLeft_singleton_of_not_ownForm h] at hresults hcount
    rw [List.length_range'] at hcount
    exact ⟨hresults, hcount⟩
  · intro m hone hmax h
    have hmem : m ∈ List.range' 1 999 := mem_suffixNumbers.mpr ⟨hone, hmax⟩
    rw [numbersLeft_singleton_of_ownForm hmax h] at hresults hcount
    rw [List.length_erase_of_mem hmem, List.length_range'] at hcount
    exact ⟨hresults, hcount⟩

/-- A candidate that is its own form with number 1 is followed by numbers 2 and 3,
and of a thousand claims of it one is refused; of any other candidate, none. -/
theorem claimAll_replicate_lookalike :
    OwnForm "abcdefghijklmnopqr_1" 1 ∧
    (empty.claimAll (List.replicate 3 "abcdefghijklmnopqr_1")).1 =
      [.ok { name := "abcdefghijklmnopqr_1", suffix := none },
        .ok { name := "abcdefghijklmnopqr_2", suffix := some 2 },
        .ok { name := "abcdefghijklmnopqr_3", suffix := some 3 }] ∧
    (empty.claimAll (List.replicate 1000 "abcdefghijklmnopqr_1")).1.countP isGranted = 999 ∧
    (∀ m, ¬ OwnForm "x" m) ∧
    (empty.claimAll (List.replicate 1000 "x")).1.countP isGranted = 1000 := by
  have hown : OwnForm "abcdefghijklmnopqr_1" 1 := ⟨by decide, "abcdefghijklmnopqr", by decide⟩
  have hshort : ∀ m, ¬ OwnForm "x" m := fun m h => absurd h.1 (by decide)
  obtain ⟨-, hthree, -⟩ := claimAll_replicate "abcdefghijklmnopqr_1" 2
  obtain ⟨-, hmany, -⟩ := claimAll_replicate "abcdefghijklmnopqr_1" 999
  obtain ⟨hplain, -⟩ := claimAll_replicate "x" 999
  refine ⟨hown, (hthree 1 (by decide) (by decide) hown).1.trans ?_,
    (hmany 1 (by decide) (by decide) hown).2, hshort, (hplain fun m _ _ => hshort m).2⟩
  decide

end Registry

end PoolEnum
