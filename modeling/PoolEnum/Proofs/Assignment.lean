import PoolEnum.Assignment
import PoolEnum.Proofs.Registry

/-!
# PoolEnum.Proofs.Assignment

What a whole table is given, said without a registry.

`Granted given candidates claims` runs `Grants` along a list: each candidate
gets what is due to it after `given` and the names before it. `StuckAt` marks
the candidate at which such a run cannot go on. `assignNames_cases` says that
naming a table ends in one of the two ways, and `Granted.not_stuckAt` and
`StuckAt.unique` that they exclude each other.
-/

namespace PoolEnum

/-- The claims of `candidates`, made one after another after the names `given`. -/
inductive Granted : List String → List String → List Claim → Prop
  | nil {given : List String} : Granted given [] []
  | cons {given candidates : List String} {candidate : String} {c : Claim} {cs : List Claim} :
      Grants given candidate c → Granted (given ++ [c.name]) candidates cs →
        Granted given (candidate :: candidates) (c :: cs)

/-- Naming `candidates` one after another gets stuck at number `k`: those before
it have their names, and these use it up. -/
def StuckAt (candidates : List String) (k : Nat) : Prop :=
  ∃ claims, Granted [] (candidates.take k) claims ∧
    ∃ h : k < candidates.length, UsedUp (claims.map Claim.name) candidates[k]

namespace Granted

variable {given candidates : List String} {claims claims' : List Claim}

theorem length_eq (h : Granted given candidates claims) : claims.length = candidates.length := by
  induction h with
  | nil => rfl
  | cons _ _ ih => rw [List.length_cons, List.length_cons, ih]

/-- Candidate number `k` gets what is due to it after the names before it. -/
theorem grants_getElem (h : Granted given candidates claims) (k : Nat)
    (hc : k < candidates.length) (hk : k < claims.length) :
    Grants (given ++ (claims.take k).map Claim.name) candidates[k] claims[k] := by
  induction h generalizing k with
  | nil => simp at hk
  | cons hgrant _ ih =>
      cases k with
      | zero => simpa using hgrant
      | succ k => simpa using ih k (by simpa using hc) (by simpa using hk)

/-- The claims that candidates are `Granted` are fixed by these. -/
theorem unique (h : Granted given candidates claims) (h' : Granted given candidates claims') :
    claims = claims' := by
  induction h generalizing claims' with
  | nil => cases h'; rfl
  | cons hgrant _ ih =>
      cases h' with
      | cons hgrant' hrest' =>
          have hc := hgrant.unique hgrant'
          subst hc
          rw [ih hrest']

/-- The first candidates are `Granted` the first claims. -/
theorem take (h : Granted given candidates claims) (k : Nat) :
    Granted given (candidates.take k) (claims.take k) := by
  induction h generalizing k with
  | nil => simpa using .nil
  | cons hgrant _ ih =>
      cases k with
      | zero => exact .nil
      | succ k => exact .cons hgrant (ih k)

/-- What candidates are `Granted` repeats no name, and none that was `given` before. -/
theorem nodup (h : Granted given candidates claims) :
    (claims.map Claim.name).Nodup ∧ ∀ name ∈ given, name ∉ claims.map Claim.name := by
  induction h with
  | nil => simp
  | @cons given _ _ c cs hgrant _ ih =>
      obtain ⟨hnodup, hapart⟩ := ih
      have hnew : c.name ∉ cs.map Claim.name :=
        hapart c.name (List.mem_append_right given List.mem_cons_self)
      rw [List.map_cons, List.nodup_cons]
      refine ⟨⟨hnew, hnodup⟩, ?_⟩
      intro name hname hmem
      cases List.mem_cons.mp hmem with
      | inl heq => exact hgrant.name_not_mem (heq ▸ hname)
      | inr hmem => exact hapart name (List.mem_append_left [c.name] hname) hmem

/-- Every claim of a run `Grants` something to one of the candidates. -/
theorem exists_grants (h : Granted given candidates claims) :
    ∀ c ∈ claims, ∃ candidate ∈ candidates, ∃ before, Grants before candidate c := by
  induction h with
  | nil => simp
  | cons hgrant _ ih =>
      intro c hc
      cases List.mem_cons.mp hc with
      | inl heq => exact ⟨_, List.mem_cons_self, _, heq ▸ hgrant⟩
      | inr hmem =>
          obtain ⟨candidate, hcandidate, hbefore⟩ := ih c hmem
          exact ⟨candidate, List.mem_cons_of_mem _ hcandidate, hbefore⟩

/-- Names given to valid candidates are valid. -/
theorem isValidName_name (h : Granted given candidates claims)
    (hvalid : ∀ candidate ∈ candidates, isValidName candidate = true) :
    ∀ c ∈ claims, isValidName c.name = true := by
  intro c hc
  obtain ⟨candidate, hcandidate, before, hgrant⟩ := h.exists_grants c hc
  exact hgrant.isValidName_name (hvalid candidate hcandidate)

/-- Candidates that are all `Granted` a name are `StuckAt` no place. -/
theorem not_stuckAt (h : Granted [] candidates claims) (k : Nat) : ¬ StuckAt candidates k := by
  intro h
  obtain ⟨claims', hfirst, hk, hused⟩ := h
  have hclaims : claims' = claims.take k := hfirst.unique (h.take k)
  have hgrant := h.grants_getElem k hk (h.length_eq ▸ hk)
  rw [List.nil_append, ← hclaims] at hgrant
  exact hgrant.not_usedUp hused

end Granted

/-- Where candidates are `StuckAt` does not depend on those behind that place. -/
theorem StuckAt.take {candidates : List String} {j k : Nat} (h : StuckAt candidates k)
    (hlt : k < j) : StuckAt (candidates.take j) k := by
  obtain ⟨claims, hfirst, hk, hused⟩ := h
  refine ⟨claims, ?_, by rw [List.length_take]; omega, ?_⟩
  · rwa [List.take_take, Nat.min_eq_left (Nat.le_of_lt hlt)]
  · rwa [List.getElem_take]

/-- Before the place that candidates are `StuckAt`, all went well. -/
theorem StuckAt.le {candidates : List String} {j k : Nat} (hj : StuckAt candidates j)
    (hk : StuckAt candidates k) : j ≤ k := by
  obtain ⟨claims, hfirst, -⟩ := hj
  apply Nat.le_of_not_lt
  intro hlt
  exact hfirst.not_stuckAt k (hk.take hlt)

/-- Candidates are `StuckAt` one place only. -/
theorem StuckAt.unique {candidates : List String} {j k : Nat} (hj : StuckAt candidates j)
    (hk : StuckAt candidates k) : j = k :=
  Nat.le_antisymm (hj.le hk) (hk.le hj)

/-! ## the walk over a table -/

/-- The candidates of a table, in table order. -/
def candidates (entries : List Entry) : List String :=
  entries.map fun e => deriveName e.value

theorem length_candidates (entries : List Entry) :
    (candidates entries).length = entries.length :=
  List.length_map _

/-- What the assignments of `entries` look like if their claims are `claims`. -/
def assignments (entries : List Entry) (claims : List Claim) : List Assignment :=
  entries.zipWith (fun e c => { id := e.id, derived := derive e.value, claim := c }) claims

/-- Naming a table from a registry that holds `given` names every entry, or it
names those in front of one that is used up. -/
theorem assignNames_cases {r : Registry} {given : List String} (h : r.HoldsExactly given)
    (entries : List Entry) :
    (∃ claims, Granted given (candidates entries) claims ∧
      assignNames r entries = (assignments entries claims, none)) ∨
    (∃ before e after claims, entries = before ++ e :: after ∧
      Granted given (candidates before) claims ∧
      UsedUp (given ++ claims.map Claim.name) (deriveName e.value) ∧
      assignNames r entries =
        (assignments before claims, some { id := e.id, derived := derive e.value })) := by
  induction entries generalizing r given with
  | nil => exact .inl ⟨[], .nil, rfl⟩
  | cons e es ih =>
      rcases r.claim_eq h (derive e.value).name with ⟨c, hgrant, hclaim⟩ | ⟨hused, hclaim⟩
      · rcases ih (h.add c.name) with ⟨claims, hrest, hnames⟩ |
          ⟨before, stuck, after, claims, hes, hrest, hused, hnames⟩
        · refine .inl ⟨c :: claims, .cons hgrant hrest, ?_⟩
          simp only [assignNames, hclaim, hnames, assignments, List.zipWith_cons_cons]
        · refine .inr ⟨e :: before, stuck, after, c :: claims, by rw [hes]; rfl,
            .cons hgrant hrest, by simpa using hused, ?_⟩
          simp only [assignNames, hclaim, hnames, assignments, List.zipWith_cons_cons]
      · have hnone : UsedUp (given ++ [].map Claim.name) (deriveName e.value) := by
          rwa [List.map_nil, List.append_nil, deriveName]
        refine .inr ⟨[], e, es, [], rfl, .nil, hnone, ?_⟩
        simp only [assignNames, hclaim, assignments, List.zipWith_nil_left]

/-- An entry that is `UsedUp` by the names before it is the place that the table is `StuckAt`. -/
theorem stuckAt_of_usedUp {before after : List Entry} {e : Entry} {claims : List Claim}
    (hgranted : Granted [] (candidates before) claims)
    (hused : UsedUp (claims.map Claim.name) (deriveName e.value)) :
    StuckAt (candidates (before ++ e :: after)) before.length := by
  have hsplit : candidates (before ++ e :: after) =
      candidates before ++ deriveName e.value :: candidates after := by
    rw [candidates, List.map_append, List.map_cons]
    rfl
  have hlength : (candidates before).length = before.length := length_candidates before
  refine ⟨claims, ?_, ?_⟩
  · rwa [hsplit, ← hlength, List.take_left]
  · refine ⟨by rw [length_candidates, List.length_append, List.length_cons]; omega, ?_⟩
    simpa [hsplit, ← hlength] using hused

/-- The candidates of a table are all `Granted` a name, or `StuckAt` one of them. -/
theorem granted_or_stuckAt (entries : List Entry) :
    (∃ claims, Granted [] (candidates entries) claims) ∨ ∃ k, StuckAt (candidates entries) k := by
  rcases assignNames_cases Registry.holdsExactly_empty entries with
    ⟨claims, hgranted, -⟩ | ⟨before, e, after, claims, rfl, hgranted, hused, -⟩
  · exact .inl ⟨claims, hgranted⟩
  · exact .inr ⟨before.length, stuckAt_of_usedUp hgranted hused⟩

/-- What `assignNames` gives if every entry is `Granted` a name. -/
theorem assignNames_of_granted {entries : List Entry} {claims : List Claim}
    (h : Granted [] (candidates entries) claims) :
    assignNames .empty entries = (assignments entries claims, none) := by
  rcases assignNames_cases Registry.holdsExactly_empty entries with
    ⟨claims', hgranted, hnames⟩ | ⟨before, e, after, claims', rfl, hgranted, hused, -⟩
  · rw [hnames, h.unique hgranted]
  · exact absurd (stuckAt_of_usedUp hgranted hused) (h.not_stuckAt _)

/-- What `assignNames` gives if the candidates are `StuckAt` some place. -/
theorem assignNames_of_stuckAt {entries : List Entry} {k : Nat}
    (h : StuckAt (candidates entries) k) :
    ∃ before e after claims, entries = before ++ e :: after ∧ before.length = k ∧
      Granted [] (candidates before) claims ∧
      assignNames .empty entries =
        (assignments before claims, some { id := e.id, derived := derive e.value }) := by
  rcases assignNames_cases Registry.holdsExactly_empty entries with
    ⟨claims, hgranted, -⟩ | ⟨before, e, after, claims, rfl, hgranted, hused, hnames⟩
  · exact absurd h (hgranted.not_stuckAt k)
  · exact ⟨before, e, after, claims, rfl, (stuckAt_of_usedUp hgranted hused).unique h, hgranted,
      hnames⟩

end PoolEnum
