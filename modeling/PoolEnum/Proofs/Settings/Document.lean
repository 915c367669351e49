import PoolEnum.Proofs.Toml.Keys
import PoolEnum.Settings.Document

/-!
# PoolEnum.Proofs.Settings.Document

Settings from the entries of a document, said without going through them.

An entry `Fits` if its key is that of a setting and its value is what that setting wants,
and else it `Offends`. Entries that all fit give the settings that look up their values
(`Settings.amended`); otherwise the least key that offends tells the fault. Neither depends
on the order of the entries, as long as their keys differ.
-/

namespace PoolEnum

open Toml (Value Entries Distinct)

/-! ## what fits -/

/-- The entries that settings can take over: a key of `settingKeys` and a value as that setting
wants it. -/
inductive Fits : String → Value → Prop
  | input (path : String) : Fits "input" (.text path)
  | output (path : String) : Fits "output" (.text path)
  | enumName (name : String) : Fits "enum_name" (.text name)
  | idLimit (n : Nat) (h : n < UInt64.size) : Fits "id_limit" (.integer n)

/-- What is wanted of the value of a setting. -/
def settingWants (key : String) : Wanted :=
  if key = "enum_name" then .text else if key = "id_limit" then .id else .path

/-- The fault of a value that is not what is wanted. -/
def Toml.Value.misfit (v : Value) (wanted : Wanted) : DocumentFault :=
  match v.found with
  | .ok found => .mismatch { found, wanted }
  | .error fault => fault

/-- An entry that settings cannot take over, and its fault: the key is none of `settingKeys`, or the
value is not what `settingWants`. -/
inductive Offends (key : String) (v : Value) : DocumentFault → Prop
  | unknown (h : key ∉ settingKeys) : Offends key v (.unknownKey key)
  | unfit (hkey : key ∈ settingKeys) (h : ¬ Fits key v) :
    Offends key v (v.misfit (settingWants key))

/-- An entry `Fits` or it `Offends`. -/
theorem fits_or_offends (key : String) (v : Value) : Fits key v ∨ ∃ fault, Offends key v fault := by
  by_cases hkey : key ∈ settingKeys
  · by_cases hfits : Fits key v
    · exact .inl hfits
    · exact .inr ⟨_, .unfit hkey hfits⟩
  · exact .inr ⟨_, .unknown hkey⟩

/-- Only an entry with a key of `settingKeys` `Fits`. -/
theorem Fits.mem_settingKeys {key : String} {v : Value} (h : Fits key v) : key ∈ settingKeys := by
  cases h <;> decide

theorem Offends.not_fits {key : String} {v : Value} {fault : DocumentFault}
    (h : Offends key v fault) : ¬ Fits key v := by
  cases h with
  | unknown hkey => exact fun hfits => hkey hfits.mem_settingKeys
  | unfit _ hfits => exact hfits

/-! ## values -/

namespace Toml.Value

variable {v : Value} {wanted : Wanted}

/-- `found` tells a text only of a text. -/
theorem found_eq_text_iff {s : String} : v.found = .ok (.text s) ↔ v = .text s := by
  cases v with
  | text t => simp [found]
  | integer n =>
      unfold found
      dsimp only
      split_ifs <;> simp
  | float x =>
      unfold found
      dsimp only
      cases x.text? <;> simp
  | _ => simp [found]

theorem found_eq_natural_iff {n : Nat} :
    v.found = .ok (.integer n) ↔ v = .integer n ∧ n < UInt64.size := by
  have hsize : UInt64.size = Nat.pow 2 64 := rfl
  cases v with
  | integer m =>
      unfold found
      dsimp only
      rw [hsize]
      generalize Nat.pow 2 63 = least
      generalize Nat.pow 2 64 = size
      split_ifs with hfits
      · simp only [Except.ok.injEq, Found.integer.injEq, integer.injEq]
        omega
      · simp only [Except.ok.injEq, reduceCtorEq, integer.injEq, false_iff]
        omega
      · simp only [integer.injEq, false_iff]
        omega
  | float x =>
      unfold found
      dsimp only
      cases x.text? <;> simp
  | _ => simp [found]

/-- `asText` of anything but a text is its `misfit`. -/
theorem asText_of_ne_text (h : ∀ s, v ≠ .text s) : v.asText wanted = .error (v.misfit wanted) := by
  unfold asText misfit
  cases hfound : v.found with
  | error fault => rfl
  | ok found =>
      cases found with
      | text s => exact absurd (found_eq_text_iff.mp hfound) (h s)
      | _ => rfl

/-- `asId` takes what `found` tells to be a natural number. -/
theorem asId_of_found {n : Nat} (h : v.found = .ok (.integer n)) :
    v.asId = .ok (UInt64.ofNat n) := by
  unfold asId
  rw [h]

theorem asId_natural {n : Nat} (h : n < UInt64.size) :
    (integer n).asId = .ok (UInt64.ofNat n) :=
  asId_of_found (found_eq_natural_iff.mpr ⟨rfl, h⟩)

/-- `asId` of anything else is its `misfit`. -/
theorem asId_of_ne_natural (h : ∀ n : Nat, n < UInt64.size → v ≠ .integer n) :
    v.asId = .error (v.misfit .id) := by
  unfold asId misfit
  cases hfound : v.found with
  | error fault => rfl
  | ok found =>
      cases found with
      | integer m =>
          cases m with
          | ofNat n =>
              obtain ⟨hv, hn⟩ := found_eq_natural_iff.mp hfound
              exact absurd hv (h n hn)
          | negSucc n => rfl
      | _ => rfl

end Toml.Value

/-! ## looking entries up -/

namespace Toml

/-- The text that a key is bound to, if it is bound to one. -/
def textAt (entries : Entries) (key default : String) : String :=
  match entries.lookup key with
  | some (.text s) => s
  | _ => default

/-- The natural number that a key is bound to, if it is bound to an integer. -/
def naturalAt (entries : Entries) (key : String) (default : UInt64) : UInt64 :=
  match entries.lookup key with
  | some (.integer n) => UInt64.ofNat n.toNat
  | _ => default

variable {entries entries' : Entries} {key : String} {v : Value}

/-- In `Distinct` entries, `lookup` finds exactly what is there. -/
theorem lookup_eq_some_iff_mem (hkeys : Distinct entries) :
    entries.lookup key = some v ↔ (key, v) ∈ entries := by
  induction entries with
  | nil => simp
  | cons e entries ih =>
      obtain ⟨k, w⟩ := e
      obtain ⟨hfresh, hrest⟩ := distinct_cons.mp hkeys
      rw [List.lookup_cons, List.mem_cons, Prod.mk.injEq]
      by_cases hk : key = k
      · subst hk
        have hnone : (key, v) ∉ entries := fun hmem =>
          hfresh (List.mem_map.mpr ⟨_, hmem, rfl⟩)
        simp [hnone, eq_comm]
      · have hbeq : (key == k) = false := by simpa using hk
        simp [hbeq, hk, ih hrest]

/-- `lookup` in `Distinct` entries does not depend on their order. -/
theorem lookup_eq_of_perm (h : entries.Perm entries') (hkeys : Distinct entries)
    (key : String) : entries.lookup key = entries'.lookup key := by
  ext v
  rw [lookup_eq_some_iff_mem hkeys, lookup_eq_some_iff_mem (hkeys.of_perm h), h.mem_iff]

/-- `lookup` finds nothing for a key that is not there. -/
theorem lookup_of_not_mem (h : key ∉ entries.map Prod.fst) : entries.lookup key = none := by
  rw [List.lookup_eq_none_iff]
  intro e he
  have hne : key ≠ e.1 := fun heq => h (heq ▸ List.mem_map_of_mem he)
  simpa using hne

/-- A name is found by `lookup` in the first entry alone or in the others alone, if the key of the
first one is new. -/
theorem lookup_cons_cases (h : key ∉ entries.map Prod.fst) (v : Value) (name : String) :
    (entries.lookup name = none ∧
        List.lookup name ((key, v) :: entries) = List.lookup name [(key, v)]) ∨
      (List.lookup name [(key, v)] = none ∧
        List.lookup name ((key, v) :: entries) = entries.lookup name) := by
  by_cases hname : name = key
  · subst hname
    exact .inl ⟨lookup_of_not_mem h, by simp⟩
  · have hbeq : (name == key) = false := by simpa using hname
    exact .inr ⟨by simp [List.lookup_cons, hbeq], by simp [List.lookup_cons, hbeq]⟩

/-- What the first entry says is the default for the others, in `textAt`. -/
theorem textAt_cons (h : key ∉ entries.map Prod.fst) (name default : String) :
    textAt ((key, v) :: entries) name default =
      textAt entries name (textAt [(key, v)] name default) := by
  rcases lookup_cons_cases h v name with ⟨hothers, hall⟩ | ⟨hfirst, hall⟩
  · simp only [textAt, hall, hothers]
  · simp only [textAt, hall, hfirst]

/-- What the first entry says is the default for the others, in `naturalAt`. -/
theorem naturalAt_cons (h : key ∉ entries.map Prod.fst) (name : String) (default : UInt64) :
    naturalAt ((key, v) :: entries) name default =
      naturalAt entries name (naturalAt [(key, v)] name default) := by
  rcases lookup_cons_cases h v name with ⟨hothers, hall⟩ | ⟨hfirst, hall⟩
  · simp only [naturalAt, hall, hothers]
  · simp only [naturalAt, hall, hfirst]

end Toml

/-! ## going through entries -/

namespace Settings

/-- Settings with the values that entries have for them. -/
def amended (s : Settings) (entries : Entries) : Settings where
  input := Toml.textAt entries "input" s.input
  output := Toml.textAt entries "output" s.output
  enumName := Toml.textAt entries "enum_name" s.enumName
  idLimit := Toml.naturalAt entries "id_limit" s.idLimit

variable {s : Settings} {entries : Entries} {key : String} {v : Value} {fault : DocumentFault}

/-- `amended` takes entries over one by one, if their keys differ. -/
theorem amended_cons (h : key ∉ entries.map Prod.fst) (s : Settings) (v : Value) :
    s.amended ((key, v) :: entries) = (s.amended [(key, v)]).amended entries := by
  simp only [amended, Toml.textAt_cons h, Toml.naturalAt_cons h]

/-- `amended` does not depend on the order of `Distinct` entries. -/
theorem amended_eq_of_perm {entries' : Entries} (h : entries.Perm entries')
    (hkeys : Distinct entries) (s : Settings) :
    s.amended entries = s.amended entries' := by
  simp only [amended, Toml.textAt, Toml.naturalAt, Toml.lookup_eq_of_perm h hkeys]

/-- `set` takes an entry over that `Fits`. -/
theorem set_of_fits (h : Fits key v) (s : Settings) : s.set key v = .ok (s.amended [(key, v)]) := by
  cases h with
  | input path => rfl
  | output path => rfl
  | enumName name => rfl
  | idLimit n h =>
      simp only [set, Value.asId_natural h]
      rfl

/-- `set` refuses an entry that `Offends`, with its fault. -/
theorem set_of_offends (h : Offends key v fault) (s : Settings) : s.set key v = .error fault := by
  unfold set
  cases h with
  | unknown hkey =>
      simp only [settingKeys, List.mem_cons, List.not_mem_nil, or_false, not_or] at hkey
      obtain ⟨hinput, houtput, hname, hlimit⟩ := hkey
      rw [if_neg hinput, if_neg houtput, if_neg hname, if_neg hlimit]
  | unfit hkey hfits =>
      simp only [settingKeys, List.mem_cons, List.not_mem_nil, or_false] at hkey
      rcases hkey with rfl | rfl | rfl | rfl
      · have htext : ∀ path, v ≠ .text path := fun path hv => hfits (hv ▸ .input path)
        rw [Value.asText_of_ne_text htext]
        rfl
      · have htext : ∀ path, v ≠ .text path := fun path hv => hfits (hv ▸ .output path)
        rw [Value.asText_of_ne_text htext]
        rfl
      · have htext : ∀ name, v ≠ .text name := fun name hv => hfits (hv ▸ .enumName name)
        rw [Value.asText_of_ne_text htext, Value.asText_of_ne_text htext]
        rfl
      · have hnatural : ∀ n : Nat, n < UInt64.size → v ≠ .integer n :=
          fun n hn hv => hfits (hv ▸ .idLimit n hn)
        rw [Value.asId_of_ne_natural hnatural]
        rfl

/-- `setAll` takes all entries over if each of them `Fits`. -/
theorem setAll_of_fits (h : ∀ e ∈ entries, Fits e.1 e.2) (hkeys : Distinct entries)
    (s : Settings) : s.setAll entries = .ok (s.amended entries) := by
  induction entries generalizing s with
  | nil => rfl
  | cons e entries ih =>
      obtain ⟨hfresh, hrest⟩ := Toml.distinct_cons.mp hkeys
      obtain ⟨hfirst, hothers⟩ := List.forall_mem_cons.mp h
      rw [setAll, set_of_fits hfirst]
      dsimp only
      rw [ih hothers hrest, ← amended_cons hfresh]

/-- `setAll` stops at the first entry that `Offends`, with its fault. -/
theorem setAll_of_offends {before after : Entries} (h : ∀ e ∈ before, Fits e.1 e.2)
    (hoffends : Offends key v fault) (s : Settings) :
    s.setAll (before ++ (key, v) :: after) = .error fault := by
  induction before generalizing s with
  | nil => rw [List.nil_append, setAll, set_of_offends hoffends]
  | cons e before ih =>
      obtain ⟨hfirst, hothers⟩ := List.forall_mem_cons.mp h
      rw [List.cons_append, setAll, set_of_fits hfirst]
      exact ih hothers _

end Settings

/-! ## the order of keys -/

namespace Toml

variable {entries entries' : Entries}

/-- `sortEntries` neither adds nor drops entries. -/
theorem sortEntries_perm (entries : Entries) : (sortEntries entries).Perm entries :=
  List.mergeSort_perm _ _

/-- `sortEntries` leaves keys in ascending order. -/
theorem pairwise_sortEntries (entries : Entries) :
    (sortEntries entries).Pairwise fun a b => a.1 ≤ b.1 := by
  have htrans : ∀ a b c : String × Value,
      decide (a.1 ≤ b.1) = true → decide (b.1 ≤ c.1) = true → decide (a.1 ≤ c.1) = true := by
    intro a b c hab hbc
    exact decide_eq_true (String.le_trans (of_decide_eq_true hab) (of_decide_eq_true hbc))
  have htotal : ∀ a b : String × Value, (decide (a.1 ≤ b.1) || decide (b.1 ≤ a.1)) = true := by
    intro a b
    simpa using String.le_total a.1 b.1
  exact (List.pairwise_mergeSort htrans htotal entries).imp fun hab => of_decide_eq_true hab

/-- `sortEntries` knows one order only for entries that are `Distinct`. -/
theorem sortEntries_eq_of_perm (h : entries.Perm entries')
    (hkeys : Distinct entries) : sortEntries entries = sortEntries entries' := by
  have hperm : (sortEntries entries).Perm (sortEntries entries') :=
    (sortEntries_perm entries).trans (h.trans (sortEntries_perm entries').symm)
  refine hperm.eq_of_pairwise ?_ (pairwise_sortEntries _) (pairwise_sortEntries _)
  intro a b ha hb hab hba
  have hmem := (sortEntries_perm entries).mem_iff.mp ha
  have hmem' := h.mem_iff.mpr ((sortEntries_perm entries').mem_iff.mp hb)
  exact List.inj_on_of_nodup_map hkeys hmem hmem' (String.le_antisymm hab hba)

/-- Whether all entries fit does not depend on their order. -/
theorem fits_of_perm (h : entries.Perm entries') (hfits : ∀ e ∈ entries, Fits e.1 e.2) :
    ∀ e ∈ entries', Fits e.1 e.2 :=
  fun e he => hfits e (h.mem_iff.mpr he)

/-- All of a list, or the first that does not. -/
theorem exists_first_offending {entries : Entries} (h : ¬ ∀ e ∈ entries, Fits e.1 e.2) :
    ∃ before key v after fault, entries = before ++ (key, v) :: after ∧
      (∀ e ∈ before, Fits e.1 e.2) ∧ Offends key v fault := by
  induction entries with
  | nil => simp at h
  | cons e entries ih =>
      obtain ⟨key, v⟩ := e
      rcases fits_or_offends key v with hfits | ⟨fault, hoffends⟩
      · have hothers : ¬ ∀ e ∈ entries, Fits e.1 e.2 :=
          fun hall => h (List.forall_mem_cons.mpr ⟨hfits, hall⟩)
        obtain ⟨before, key', v', after, fault, rfl, hbefore, hoffends⟩ := ih hothers
        exact ⟨(key, v) :: before, key', v', after, fault, rfl,
          List.forall_mem_cons.mpr ⟨hfits, hbefore⟩, hoffends⟩
      · exact ⟨[], key, v, entries, fault, rfl, by simp, hoffends⟩

end Toml

/-! ## settings from entries -/

namespace Settings

/-- The settings that entries have values for, and the defaults for the others. -/
def given (entries : Entries) : Settings :=
  ({} : Settings).amended entries

/-- What a document with some entries has for settings. -/
def ofEntries (entries : Entries) : Except DocumentFault Settings :=
  match setAll {} (Toml.sortEntries entries) with
  | .error fault => .error fault
  | .ok s =>
    match s.fault? with
    | some fault => .error (.refused fault)
    | none => .ok s

/-- What becomes of entries: settings, if all of them fit and the settings are accepted; else
the fault of the least key that offends; and the fault of the settings only if none does. -/
inductive Settles (entries : Entries) : Except DocumentFault Settings → Prop
  | accepted (hfits : ∀ e ∈ entries, Fits e.1 e.2) (hcheck : (given entries).fault? = none) :
    Settles entries (.ok (given entries))
  | refused {fault : SettingsFault} (hfits : ∀ e ∈ entries, Fits e.1 e.2)
    (hcheck : (given entries).fault? = some fault) : Settles entries (.error (.refused fault))
  | offended {key : String} {v : Value} {fault : DocumentFault} (hmem : (key, v) ∈ entries)
    (hoffends : Offends key v fault)
    (hleast : ∀ other ∈ entries, ¬ Fits other.1 other.2 → key ≤ other.1) :
    Settles entries (.error fault)

variable {entries entries' : Entries} {text : String}

/-- `ofDocument` only sees the entries that `Toml.parse` finds. -/
theorem ofDocument_of_parse (h : Toml.parse text = .ok entries) :
    ofDocument text = ofEntries entries := by
  unfold ofDocument
  rw [h]
  rfl

/-- `ofEntries` does not depend on the order of `Distinct` entries. -/
theorem ofEntries_eq_of_perm (h : entries.Perm entries') (hkeys : Distinct entries) :
    ofEntries entries = ofEntries entries' := by
  unfold ofEntries
  rw [Toml.sortEntries_eq_of_perm h hkeys]

/-- `ofEntries` does what `Settles` describes. -/
theorem settles_ofEntries (hkeys : Distinct entries) :
    Settles entries (ofEntries entries) := by
  have hperm := Toml.sortEntries_perm entries
  have hkeys' := hkeys.of_perm hperm.symm
  unfold ofEntries
  by_cases hfits : ∀ e ∈ Toml.sortEntries entries, Fits e.1 e.2
  · have hall := Toml.fits_of_perm hperm hfits
    rw [setAll_of_fits hfits hkeys', amended_eq_of_perm hperm hkeys']
    dsimp only
    cases hcheck : (given entries).fault? with
    | none =>
        rw [← given, hcheck]
        exact .accepted hall hcheck
    | some fault =>
        rw [← given, hcheck]
        exact .refused hall hcheck
  · obtain ⟨before, key, v, after, fault, hsplit, hbefore, hoffends⟩ :=
      Toml.exists_first_offending hfits
    rw [hsplit, setAll_of_offends hbefore hoffends]
    refine .offended (hperm.mem_iff.mp (hsplit ▸ List.mem_append_right _ (.head _))) hoffends ?_
    -- What offends is not in front of the first that does, so it has no lesser key.
    intro other hother hother'
    have hmem := hsplit ▸ hperm.mem_iff.mpr hother
    have hsorted := hsplit ▸ Toml.pairwise_sortEntries entries
    obtain ⟨-, hbehind, -⟩ := List.pairwise_append.mp hsorted
    rcases List.mem_append.mp hmem with hfront | hback
    · exact absurd (hbefore other hfront) hother'
    · cases hback with
      | head => exact String.le_refl key
      | tail _ hback => exact (List.pairwise_cons.mp hbehind).1 other hback

/-- `ofDocument` has settings iff the entries all fit and what they give is accepted. -/
theorem ofDocument_eq_ok_iff {s : Settings} :
    ofDocument text = .ok s ↔ ∃ entries, Toml.parse text = .ok entries ∧
      (∀ e ∈ entries, Fits e.1 e.2) ∧ (given entries).fault? = none ∧ s = given entries := by
  constructor
  · intro h
    cases hparse : Toml.parse text with
    | error fault => simp [ofDocument, hparse] at h
    | ok entries =>
        have hsettles := settles_ofEntries (Toml.distinct_of_parse hparse)
        rw [← ofDocument_of_parse hparse, h] at hsettles
        cases hsettles with
        | accepted hfits hcheck => exact ⟨entries, rfl, hfits, hcheck, rfl⟩
  · rintro ⟨entries, hparse, hfits, hcheck, rfl⟩
    have hsettles := settles_ofEntries (Toml.distinct_of_parse hparse)
    rw [← ofDocument_of_parse hparse] at hsettles
    generalize ofDocument text = outcome at hsettles ⊢
    cases hsettles with
    | accepted => rfl
    | refused _ hrefused => simp [hcheck] at hrefused
    | offended hmem hoffends => exact absurd (hfits _ hmem) hoffends.not_fits

end Settings

end PoolEnum
