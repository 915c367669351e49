import PoolEnum.Proofs.Build
import PoolEnum.Proofs.Claims
import PoolEnum.Proofs.Generation
import PoolEnum.Proofs.Run

/-!
# PoolEnum.Proofs.Log

The log of a build and of a run, told by the entries and the names they got.

Naming logs of each assignment what it did (`Assignment.events`), by the number of the
claim. Here it is told by whether the name is the derived one (`Entry.told`), which is
the same, since no numbered form that is given is the candidate (`Grants.events`).
`Makes.trace_eq` and `trace_of_build_error` are the logs of the two outcomes of a build,
and `countP_flatMap_events` counts in them. With the equations of `Generator.run` they
make `log_exact`.
-/

namespace PoolEnum

/-! ## the kinds of events -/

/-- Whether an event tells of a name that was cut. -/
def Event.isCut : Event → Bool
  | truncated .. => true
  | _ => false

/-- Whether an event tells of a name that was taken. -/
def Event.isRename : Event → Bool
  | renamed .. => true
  | _ => false

/-- Whether an event is a warning. -/
def Event.isWarning (event : Event) : Bool :=
  event.level = .warn

/-! ## what is told of an entry -/

/-- The number that a name carries, 0 if it carries none. -/
def Claim.number (c : Claim) : Nat :=
  c.suffix.getD 0

/-- That the name derived for an entry was cut, if it was. -/
def Entry.cutEvents (e : Entry) : List Event :=
  if (derive e.value).truncated then [.truncated e.id (deriveName e.value)] else []

/-- What is told of an entry that is given a name: that the one derived for it was cut,
if it was, and then that it is called otherwise, if it is. -/
def Entry.told (e : Entry) (c : Claim) : List Event :=
  e.cutEvents ++
    if c.name = deriveName e.value then []
    else [.renamed e.id (deriveName e.value) c.name c.number]

/-- What is told of entries that are given names, one after another. -/
def told (entries : List Entry) (claims : List Claim) : List Event :=
  (entries.zip claims).flatMap fun row => row.1.told row.2

section

variable {given : List String}

/-- What is logged of an entry is what is told of it. -/
theorem Grants.events {e : Entry} {c : Claim} (h : Grants given (deriveName e.value) c) :
    ({ id := e.id, derived := derive e.value, claim := c } : Assignment).events = e.told c := by
  have hnumber := h.suffix_eq_none_iff
  unfold Assignment.events Entry.told
  congr 1
  cases hsuffix : c.suffix with
  | none => rw [if_pos (hnumber.mp hsuffix)]
  | some n =>
      have hne : c.name ≠ deriveName e.value := by
        intro heq
        rw [hnumber.mpr heq] at hsuffix
        contradiction
      rw [if_neg hne]
      simp only [Claim.number, hsuffix, Option.getD_some, deriveName]

/-- An entry that is called otherwise has the numbered form of its candidate. -/
theorem Grants.name_eq_suffixed {candidate : String} {c : Claim} (h : Grants given candidate c)
    (hne : c.name ≠ candidate) :
    1 ≤ c.number ∧ c.number ≤ 999 ∧ c.name = suffixed candidate c.number := by
  cases h with
  | plain _ => exact absurd rfl hne
  | numbered _ hone hmax _ _ => exact ⟨hone, hmax, rfl⟩

/-- The events of `assignments` are what is `told` of the entries, if each was `Granted` its
name. -/
theorem Granted.flatMap_events {entries : List Entry} {claims : List Claim}
    (h : Granted given (candidates entries) claims) :
    (assignments entries claims).flatMap Assignment.events = told entries claims := by
  induction entries generalizing given claims with
  | nil =>
      cases h
      rfl
  | cons e entries ih =>
      cases h with
      | cons hgrant hrest =>
          have hcons := congrArg₂ (· ++ ·) hgrant.events (ih hrest)
          simpa only [assignments, told, List.zipWith_cons_cons, List.zip_cons_cons,
            List.flatMap_cons] using hcons

end

/-! ## levels and counts -/

/-- Naming logs nothing that matters more than a name. -/
theorem level_of_mem_events {assigned : List Assignment} {event : Event}
    (h : event ∈ assigned.flatMap Assignment.events) : event.level = .debug := by
  obtain ⟨a, -, hevent⟩ := List.mem_flatMap.mp h
  unfold Assignment.events Derived.events at hevent
  grind [Event.level]

/-- Events of which an assignment has one or none are as many as the assignments that
have one. -/
theorem countP_flatMap_events {p : Event → Bool} {q : Assignment → Bool}
    (h : ∀ a : Assignment, a.events.countP p = if q a then 1 else 0) (assigned : List Assignment) :
    (assigned.flatMap Assignment.events).countP p = assigned.countP q := by
  induction assigned with
  | nil => rfl
  | cons a assigned ih =>
      rw [List.flatMap_cons, List.countP_append, h, ih, List.countP_cons, Nat.add_comm]

/-- An assignment has an event of a cut iff its name was truncated. -/
theorem countP_isCut (a : Assignment) :
    a.events.countP Event.isCut = if a.derived.truncated then 1 else 0 := by
  unfold Assignment.events Derived.events
  cases a.derived.truncated <;> cases a.claim.suffix <;> rfl

theorem countP_isRename (a : Assignment) :
    a.events.countP Event.isRename = if a.claim.suffix.isSome then 1 else 0 := by
  unfold Assignment.events Derived.events
  cases a.derived.truncated <;> cases a.claim.suffix <;> rfl

theorem countP_isWarning (a : Assignment) :
    a.events.countP Event.isWarning = if false then 1 else 0 := by
  unfold Assignment.events Derived.events
  cases a.derived.truncated <;> cases a.claim.suffix <;> rfl

/-! ## the names of entries in a generation -/

/-- The names of entries in a generation: each id has the records of its entries, in table
order, and an entry that is not called by its derived name has a numbered form of it. -/
structure Generation.Calls (made : Generation) (entries : List Entry) (claims : List Claim) :
    Prop where
  length_eq : claims.length = entries.length
  records : ∀ id, (made.header.records.filter fun r => r.id = id) =
    (boundRecords entries claims).filter fun r => r.id = id
  number : ∀ k (he : k < entries.length) (hc : k < claims.length),
    claims[k].name ≠ deriveName entries[k].value →
      1 ≤ claims[k].number ∧ claims[k].number ≤ 999 ∧
        claims[k].name = suffixed (deriveName entries[k].value) claims[k].number

namespace Generator

variable {g : Generator} {entries : List Entry} {made : Generation}

/-- A generation calls its entries by the names they are granted. -/
theorem Makes.calls {claims : List Claim}
    (h : Granted [] (candidates (retained g.settings.idLimit entries)) claims)
    (hmakes : g.Makes entries (assignments (retained g.settings.idLimit entries) claims) made) :
    made.Calls (retained g.settings.idLimit entries) claims := by
  refine ⟨h.length_eq.trans (length_candidates _), ?_, ?_⟩
  · intro id
    rw [hmakes.records, Generator.records, map_record_assignments, filter_sortById]
  · intro k he hc hne
    have hgrant := h.grants_getElem k (by rwa [length_candidates]) hc
    simp only [candidates, List.getElem_map, List.nil_append] at hgrant
    exact hgrant.name_eq_suffixed hne

/-- A build that succeeds has granted all its names. -/
theorem exists_granted_makes (h : g.build entries = .ok made) :
    ∃ claims, Granted [] (candidates (retained g.settings.idLimit entries)) claims ∧
      g.Makes entries (assignments (retained g.settings.idLimit entries) claims) made := by
  obtain ⟨claims, hgranted, -⟩ := granted_of_build h
  obtain ⟨assigned, hmakes⟩ := build_eq_ok_iff.mp h
  have hnamed := hmakes.named
  rw [assignNames_of_granted hgranted, Prod.mk.injEq] at hnamed
  exact ⟨claims, hgranted, hnamed.1 ▸ hmakes⟩

/-- A `trace` tells of the names that were made, and then of the ids that several records share. -/
theorem Makes.trace_eq {claims : List Claim}
    (h : Granted [] (candidates (retained g.settings.idLimit entries)) claims)
    (hmakes : g.Makes entries (assignments (retained g.settings.idLimit entries) claims) made) :
    g.trace entries = told (retained g.settings.idLimit entries) claims ++
      made.report.duplicateIds.map Event.duplicateId := by
  rw [← h.flatMap_events]
  simp only [trace, assignNames_of_granted h, hmakes.duplicateIds]

/-- There are as many events of each kind as the report counts. -/
theorem Makes.countP_trace {assigned : List Assignment} (h : g.Makes entries assigned made) :
    (g.trace entries).countP Event.isCut = made.report.namesTruncated ∧
    (g.trace entries).countP Event.isRename = made.report.namesSuffixed ∧
    (g.trace entries).countP Event.isWarning = made.report.duplicateIds.length := by
  have htrace : g.trace entries = assigned.flatMap Assignment.events ++
      made.report.duplicateIds.map Event.duplicateId := by
    simp only [trace, h.named, h.duplicateIds]
  rw [htrace, List.countP_append, List.countP_append, List.countP_append,
    countP_flatMap_events countP_isCut, countP_flatMap_events countP_isRename,
    countP_flatMap_events countP_isWarning, h.namesTruncated, h.namesSuffixed]
  refine ⟨?cut, ?rename, ?warning⟩
  case cut => simp [List.countP_eq_zero, Event.isCut]
  case rename => simp [List.countP_eq_zero, Event.isRename]
  case warning => simp [List.countP_eq_length, Event.isWarning, Event.level]

/-- The `trace` of a build that fails has nothing that matters more than a name. -/
theorem level_of_mem_trace_of_error {fault : Exhausted} (h : g.build entries = .error fault)
    {event : Event} (hevent : event ∈ g.trace entries) : event.level = .debug := by
  obtain ⟨assigned, refusal, hnamed, -⟩ := build_eq_error_iff.mp h
  simp only [trace, hnamed] at hevent
  cases List.mem_append.mp hevent with
  | inl hnaming => exact level_of_mem_events hnaming
  | inr hrefusal =>
      unfold Refusal.events Derived.events at hrefusal
      grind [Event.level]

/-- The `trace` of a build that succeeds has warnings besides. -/
theorem level_of_mem_trace {event : Event} (hevent : event ∈ g.trace entries) :
    event.level = .debug ∨ event.level = .warn := by
  cases h : g.build entries with
  | error fault => exact .inl (level_of_mem_trace_of_error h hevent)
  | ok made =>
      obtain ⟨assigned, hmakes⟩ := build_eq_ok_iff.mp h
      simp only [trace, hmakes.named] at hevent
      cases List.mem_append.mp hevent with
      | inl hnaming => exact .inl (level_of_mem_events hnaming)
      | inr hwarning =>
          obtain ⟨id, -, rfl⟩ := List.mem_map.mp hwarning
          exact .inr rfl

/-- Entries that are all retained stay so without those behind them. -/
theorem retained_of_append {before after : List Entry}
    (h : retained g.settings.idLimit entries = before ++ after) :
    retained g.settings.idLimit before = before := by
  refine List.filter_eq_self.mpr fun e he => ?_
  have hmem : e ∈ retained g.settings.idLimit entries := h ▸ List.mem_append_left after he
  exact (List.mem_filter.mp hmem).2

/-- A `build` that is stuck at an entry fails in the same way if that is the last one. -/
theorem build_of_stuckAt_length {before after : List Entry} {e : Entry} {fault : Exhausted}
    (hkept : retained g.settings.idLimit entries = before ++ e :: after)
    (hstuck : StuckAt (candidates (before ++ e :: after)) before.length)
    (hbase : fault.base = deriveName e.value) : g.build (before ++ [e]) = .error fault := by
  rw [List.append_cons] at hkept
  have hretained : retained g.settings.idLimit (before ++ [e]) = before ++ [e] :=
    retained_of_append hkept
  have hfirst : candidates (before ++ [e]) =
      (candidates (before ++ e :: after)).take (before.length + 1) := by
    simp [candidates, List.take_append]
  have hlast : StuckAt (candidates (retained g.settings.idLimit (before ++ [e]))) before.length := by
    rw [hretained, hfirst]
    exact hstuck.take (Nat.lt_succ_self _)
  obtain ⟨⟨base⟩, hbuild, hcandidate⟩ := build_of_stuckAt hlast
  obtain ⟨base'⟩ := fault
  have hsame : base' = base := by
    simpa [hretained, candidates, ← hbase] using hcandidate
  rw [hbuild, hsame]

/-- The `trace` of a build that fails. The entries in front of the one it fails at can be built
without the others, and are `told` of in the same way; with that one added, they cannot. -/
theorem trace_of_build_error {fault : Exhausted} (h : g.build entries = .error fault) :
    ∃ before e after claims made, retained g.settings.idLimit entries = before ++ e :: after ∧
      fault.base = deriveName e.value ∧ g.build before = .ok made ∧
      g.build (before ++ [e]) = .error fault ∧ made.Calls before claims ∧
      g.trace before = told before claims ++ made.report.duplicateIds.map Event.duplicateId ∧
      g.trace entries = told before claims ++ e.cutEvents := by
  obtain ⟨k, hstuck, hbase⟩ := stuckAt_of_build h
  obtain ⟨before, e, after, claims, hkept, rfl, hgranted, hnames⟩ := assignNames_of_stuckAt hstuck
  have hbefore : retained g.settings.idLimit before = before := retained_of_append hkept
  have hgranted' : Granted [] (candidates (retained g.settings.idLimit before)) claims := by
    rwa [hbefore]
  obtain ⟨made, hbuild, hmakes⟩ := exists_makes (assignNames_of_granted hgranted')
  have hcalls := hmakes.calls hgranted'
  have htrace := hmakes.trace_eq hgranted'
  rw [hbefore] at hcalls htrace
  have hderived : fault.base = deriveName e.value := by
    simpa [hkept, candidates] using hbase.symm
  have hfails := build_of_stuckAt_length hkept (hkept ▸ hstuck) hderived
  refine ⟨before, e, after, claims, made, hkept, hderived, hbuild, hfails, hcalls, htrace, ?_⟩
  rw [← hgranted.flatMap_events]
  simp only [trace, hnames]
  rfl

end Generator

/-! ## the log of a run -/

/-- A path that is `Unloadable` never `Loads`. -/
theorem Tree.Unloadable.not_loads {t : Tree} {path : String} {failure : Failure}
    (h : t.Unloadable path failure) (entries : List Entry) : ¬ t.Loads path entries := by
  intro hload
  have heq := (loadEntries_of_unloadable h).symm.trans (loadEntries_of_loads hload)
  exact absurd (congrArg Prod.fst heq) (by simp)

/-- The log tells what was done. Of a build it has, for each retained entry in table order,
that its derived name was cut, if it was, and then that it is called otherwise, if it is;
then one warning for each id that several records share, in order of the ids. A build that
fails does so at an entry `e`: the entries before it can be built, and with `e` as the last of
them they fail in the same way. It tells of the entries before `e` as if they were all, without
the warnings, and of `e` only that its name was cut. The log of a run starts with the
reading of its input, goes on with that of the build if there is a table, and ends with
the enum that was written if the run succeeds. -/
theorem log_exact (g : Generator) :
    (∀ entries : List Entry,
      let kept := entries.filter fun e => e.id < g.settings.idLimit
      (∀ made, g.build entries = .ok made →
        (∃ claims, made.Calls kept claims ∧
          g.trace entries = told kept claims ++ made.report.duplicateIds.map .duplicateId) ∧
        made.report.duplicateIds.Pairwise (· < ·) ∧
        (g.trace entries).countP Event.isCut = made.report.namesTruncated ∧
        (g.trace entries).countP Event.isRename = made.report.namesSuffixed ∧
        (g.trace entries).countP Event.isWarning = made.report.duplicateIds.length) ∧
      (∀ fault, g.build entries = .error fault →
        ∃ before e after claims made, kept = before ++ e :: after ∧
          fault.base = deriveName e.value ∧ g.build before = .ok made ∧
          g.build (before ++ [e]) = .error fault ∧ made.Calls before claims ∧
          g.trace before = told before claims ++ made.report.duplicateIds.map .duplicateId ∧
          g.trace entries = told before claims ++ e.cutEvents ∧
          ∀ event ∈ g.trace entries, event.level = .debug) ∧
      ∀ event ∈ g.trace entries, event.level = .debug ∨ event.level = .warn) ∧
    ∀ t : Tree,
      match g.run Tree.storage t with
      | ((.ok report, log), _) => ∃ entries made, t.Loads g.settings.input entries ∧
          g.build entries = .ok made ∧ report = made.report ∧
          log = .reading g.settings.input :: g.trace entries ++
            [.generated g.settings.enumName g.settings.output made.header.records.length
              report.reservedSkipped report.namesSuffixed report.namesTruncated]
      | ((.error _, log), _) =>
          (∃ entries, t.Loads g.settings.input entries ∧
            log = .reading g.settings.input :: g.trace entries) ∨
          ((∀ entries, ¬ t.Loads g.settings.input entries) ∧ log = [.reading g.settings.input]) := by
  refine ⟨?build, ?run⟩
  case build =>
    intro entries kept
    have hkept : retained g.settings.idLimit entries = kept := retained_eq_filter _ _
    refine ⟨?succeeds, ?fails, fun event hevent => Generator.level_of_mem_trace hevent⟩
    case succeeds =>
      intro made hbuild
      obtain ⟨claims, hgranted, hmakes⟩ := Generator.exists_granted_makes hbuild
      refine ⟨⟨claims, ?_, ?_⟩, ?_, hmakes.countP_trace⟩
      · exact hkept ▸ hmakes.calls hgranted
      · exact hkept ▸ hmakes.trace_eq hgranted
      · rw [hmakes.duplicateIds]
        exact Generator.pairwise_duplicateIds _
    case fails =>
      intro fault hbuild
      obtain ⟨before, e, after, claims, made, hsplit, hbase, hbefore, hfails, hcalls, htrace,
        hlog⟩ := Generator.trace_of_build_error hbuild
      exact ⟨before, e, after, claims, made, hkept ▸ hsplit, hbase, hbefore, hfails, hcalls, htrace,
        hlog, fun event hevent => Generator.level_of_mem_trace_of_error hbuild hevent⟩
  case run =>
    intro t
    rcases t.loads_or_unloadable g.settings.input with ⟨entries, hload⟩ | ⟨failure, hload⟩
    · rw [Generator.run_of_loads hload]
      cases hbuild : g.build entries with
      | error fault => exact .inl ⟨entries, hload, rfl⟩
      | ok made =>
          dsimp only
          cases hwrite : made.header.write Tree.storage g.settings.output t with
          | mk written left =>
              cases written with
              | error failure => exact .inl ⟨entries, hload, rfl⟩
              | ok _ =>
                  refine ⟨entries, made, hload, hbuild, rfl, ?_⟩
                  obtain ⟨assigned, hmakes⟩ := Generator.build_eq_ok_iff.mp hbuild
                  rw [Generation.event, hmakes.name]
    · rw [Generator.run_of_unloadable hload]
      exact .inr ⟨hload.not_loads, rfl⟩

end PoolEnum
