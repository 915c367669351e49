import PoolEnum.Proofs.Claims

/-!
# PoolEnum.Proofs.Pool

The names that have to do with one candidate.

The pool of a candidate is the candidate and its numbered forms. A claim depends
on which of them were given before and on no other name (`Answer.congr`), and what
it is given is one of them (`Answer.mem_pool`). So claims of candidates whose pools
have no name in common take no notice of each other, and `Registry.claim_comm` says
that they can be made in either order.
-/

namespace PoolEnum

/-- The numbered forms of a candidate, in the order in which they are tried. -/
def forms (candidate : String) : List String :=
  suffixNumbers.map (suffixed candidate)

/-- The names that a claim of `candidate` may be given. -/
def pool (candidate : String) : List String :=
  candidate :: forms candidate

/-- The `forms` of a candidate are its `suffixed` names up to `maxSuffix`. -/
theorem mem_forms_iff {candidate name : String} :
    name ∈ forms candidate ↔ ∃ n, 1 ≤ n ∧ n ≤ maxSuffix ∧ name = suffixed candidate n := by
  simp only [forms, List.mem_map, mem_suffixNumbers, and_assoc, eq_comm (a := name)]

/-- The `forms` of a candidate all differ. -/
theorem nodup_forms (candidate : String) : (forms candidate).Nodup :=
  List.pairwise_map.mpr (nodup_suffixNumbers.imp fun hne => mt suffixed_inj.mp hne)

theorem length_forms (candidate : String) : (forms candidate).length = maxSuffix := by
  rw [forms, List.length_map, suffixNumbers, List.length_range']

/-- The `pool` of a candidate is the candidate and its `suffixed` names. -/
theorem mem_pool_iff {candidate name : String} :
    name ∈ pool candidate ↔
      name = candidate ∨ ∃ n, 1 ≤ n ∧ n ≤ maxSuffix ∧ name = suffixed candidate n := by
  rw [pool, List.mem_cons, mem_forms_iff]

theorem self_mem_pool (candidate : String) : candidate ∈ pool candidate :=
  List.mem_cons_self

/-- Every `suffixed` name of a candidate is in its `pool`. -/
theorem suffixed_mem_pool (candidate : String) {n : Nat} (hone : 1 ≤ n) (hmax : n ≤ maxSuffix) :
    suffixed candidate n ∈ pool candidate :=
  mem_pool_iff.mpr (.inr ⟨n, hone, hmax, rfl⟩)

/-- The names of a `pool` are as long as the candidate at least, and no more than a tail longer. -/
theorem length_of_mem_pool {candidate name : String} (hfits : candidate.length ≤ maxNameLength)
    (h : name ∈ pool candidate) :
    candidate.length ≤ name.length ∧ name.length ≤ min maxNameLength (candidate.length + 4) := by
  rcases mem_pool_iff.mp h with rfl | ⟨n, -, hmax, rfl⟩
  · omega
  · have htail := length_suffixTail_le hmax
    rw [length_suffixed]
    simp only [maxNameLength] at hfits ⊢
    omega

/-! ## what a claim reads and writes -/

section

variable {given given' : List String} {candidate : String}

/-- What a claim `Grants` is of the `pool`. -/
theorem Grants.name_mem_pool {c : Claim} (h : Grants given candidate c) :
    c.name ∈ pool candidate :=
  mem_pool_iff.mpr h.name_eq

/-- What is granted is decided in the `pool`. -/
theorem Grants.congr {c : Claim} (h : Grants given candidate c)
    (hsame : ∀ name ∈ pool candidate, name ∈ given ↔ name ∈ given') :
    Grants given' candidate c := by
  have hself := hsame candidate (self_mem_pool candidate)
  have hform : ∀ n, 1 ≤ n → n ≤ maxSuffix →
      (suffixed candidate n ∈ given ↔ suffixed candidate n ∈ given') :=
    fun n hone hmax => hsame _ (suffixed_mem_pool candidate hone hmax)
  cases h with
  | plain free => exact .plain (mt hself.mpr free)
  | @numbered n taken hone hmax free least =>
      refine .numbered (hself.mp taken) hone hmax (mt (hform n hone hmax).mpr free) ?_
      intro m hm hlt
      exact (hform m hm (Nat.le_trans (Nat.le_of_lt hlt) hmax)).mp (least m hm hlt)

/-- Whether a candidate is `UsedUp` is decided in its `pool`. -/
theorem UsedUp.congr (h : UsedUp given candidate)
    (hsame : ∀ name ∈ pool candidate, name ∈ given ↔ name ∈ given') :
    UsedUp given' candidate := by
  obtain ⟨htaken, hall⟩ := h
  refine ⟨(hsame candidate (self_mem_pool candidate)).mp htaken, ?_⟩
  intro n hone hmax
  exact (hsame _ (suffixed_mem_pool candidate hone hmax)).mp (hall n hone hmax)

variable {result : Except Exhausted Claim}

/-- The `Answer` to a claim only depends on its `pool`. -/
theorem Answer.congr (h : Answer given candidate result)
    (hsame : ∀ name ∈ pool candidate, name ∈ given ↔ name ∈ given') :
    Answer given' candidate result := by
  cases h with
  | granted hgrant => exact .granted (hgrant.congr hsame)
  | refused hused => exact .refused (hused.congr hsame)

/-- The `Answer` to a claim only adds to its `pool`. -/
theorem Answer.mem_pool (h : Answer given candidate result) :
    ∀ name ∈ (givenName? result).toList, name ∈ pool candidate := by
  intro name hname
  cases h with
  | granted hgrant =>
      obtain rfl : name = _ := List.mem_singleton.mp hname
      exact hgrant.name_mem_pool
  | refused _ => exact absurd hname (List.not_mem_nil)

end

/-! ## claims in either order -/

namespace Registry

variable {r r' : Registry} {given given' : List String}

/-- `HoldsExactly` only asks which names are held. -/
theorem HoldsExactly.congr (h : r.HoldsExactly given)
    (hsame : ∀ name, name ∈ given ↔ name ∈ given') : r.HoldsExactly given' :=
  fun name => (h name).trans (hsame name)

/-- Registries that hold the same names tell all claims the same by `claimAll`. -/
theorem HoldsExactly.claimAll_eq (h : r.HoldsExactly given) (h' : r'.HoldsExactly given)
    (candidates : List String) : (r.claimAll candidates).1 = (r'.claimAll candidates).1 :=
  (claimAll_answers h candidates).1.unique (claimAll_answers h' candidates).1

/-- A `claim` takes no notice of one before it if their pools are apart. -/
theorem claim_claim_of_apart (r : Registry) {a b : String}
    (h : ∀ name ∈ pool a, name ∉ pool b) : ((r.claim b).2.claim a).1 = (r.claim a).1 := by
  obtain ⟨given, hholds⟩ := r.exists_holdsExactly
  obtain ⟨hfirst, hnext⟩ := claim_answer hholds b
  have hlater := (claim_answer hnext a).1
  have halone := (claim_answer hholds a).1
  refine hlater.unique (halone.congr ?_)
  intro name hname
  have hnot : name ∉ (givenName? (r.claim b).1).toList :=
    fun hmem => h name hname (hfirst.mem_pool name hmem)
  rw [List.mem_append, or_iff_left hnot]

/-- Claims commute if their pools are apart. Made by `claim` in either order, on any registry, two
of them are told the same, be it a name or that there is none; and so is every one that follows
them. -/
theorem claim_comm (r : Registry) (a b : String) (h : ∀ name ∈ pool a, name ∉ pool b) :
    (r.claim a).1 = ((r.claim b).2.claim a).1 ∧
    ((r.claim a).2.claim b).1 = (r.claim b).1 ∧
    ∀ candidates : List String,
      (((r.claim a).2.claim b).2.claimAll candidates).1 =
        (((r.claim b).2.claim a).2.claimAll candidates).1 := by
  have hfirst := r.claim_claim_of_apart h
  have hsecond := r.claim_claim_of_apart fun name hb ha => h name ha hb
  refine ⟨hfirst.symm, hsecond, ?_⟩
  intro candidates
  obtain ⟨given, hholds⟩ := r.exists_holdsExactly
  have hab := (claim_answer (claim_answer hholds a).2 b).2
  have hba := (claim_answer (claim_answer hholds b).2 a).2
  rw [hsecond] at hab
  rw [hfirst] at hba
  -- both registries hold what the two claims gave, in one order or the other
  refine hab.claimAll_eq (hba.congr ?_) candidates
  intro name
  simp only [List.mem_append, or_assoc, or_comm (a := name ∈ (givenName? (r.claim b).1).toList)]

/-- A registry on which a candidate of 20 characters and its first form were claimed. -/
def stemTaken : Registry :=
  (empty.claimAll ["abcdefghijklmnopqrst", "abcdefghijklmnopqr_1"]).2

/-- `stemTaken` holds its two claims and nothing else. -/
theorem holdsExactly_stemTaken :
    stemTaken.HoldsExactly ["abcdefghijklmnopqrst", "abcdefghijklmnopqr_1"] := by
  obtain ⟨hanswers, hholds⟩ :=
    claimAll_answers holdsExactly_empty ["abcdefghijklmnopqrst", "abcdefghijklmnopqr_1"]
  have hplain := hanswers.unique
    (.cons (.granted (.plain (by decide))) (.cons (.granted (.plain (by decide))) .nil))
  rwa [hplain] at hholds

/-- Candidates of 20 and of 15 characters, the longer of which begins with the
shorter. Their pools are apart all the same: the names of the one have 20
characters, those of the other fewer. -/
theorem claim_comm_stemTaken :
    (∀ name ∈ pool "abcdefghijklmnopqrst", name ∉ pool "abcdefghijklmno") ∧
    (stemTaken.claim "abcdefghijklmnopqrst").1 =
      .ok { name := "abcdefghijklmnopqr_2", suffix := some 2 } ∧
    ((stemTaken.claim "abcdefghijklmno").2.claim "abcdefghijklmnopqrst").1 =
      .ok { name := "abcdefghijklmnopqr_2", suffix := some 2 } ∧
    ((stemTaken.claim "abcdefghijklmnopqrst").2.claim "abcdefghijklmno").1 =
      (stemTaken.claim "abcdefghijklmno").1 := by
  have hapart : ∀ name ∈ pool "abcdefghijklmnopqrst", name ∉ pool "abcdefghijklmno" := by
    intro name hlong hshort
    have hleast := (length_of_mem_pool (by decide) hlong).1
    have hmost := (length_of_mem_pool (by decide) hshort).2
    have hlength : "abcdefghijklmnopqrst".length = 20 := by decide
    have hlength' : "abcdefghijklmno".length = 15 := by decide
    omega
  have hsecond : Grants ["abcdefghijklmnopqrst", "abcdefghijklmnopqr_1"] "abcdefghijklmnopqrst"
      { name := suffixed "abcdefghijklmnopqrst" 2, suffix := some 2 } := by
    refine .numbered (by decide) (by decide) (by decide) (by decide) ?_
    intro m hone hlt
    obtain rfl : m = 1 := by omega
    decide
  have hclaim := (claim_answer holdsExactly_stemTaken "abcdefghijklmnopqrst").1.unique
    (.granted hsecond)
  obtain ⟨hfirst, hlater, -⟩ :=
    claim_comm stemTaken "abcdefghijklmnopqrst" "abcdefghijklmno" hapart
  exact ⟨hapart, hclaim, hfirst.symm.trans hclaim, hlater⟩

end Registry

end PoolEnum
