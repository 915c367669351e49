import PoolEnum.Proofs.Table.Skip

/-!
# PoolEnum.Proofs.Table.Members

The members of an entry's object: they are read iff each of the two fields is
there once and all values fit.

Reading goes from a draft to a draft. `Draft.Takes` is one such step,
`Draft.Reads` all of them, and `reads_whole_iff` counts what a run of steps has seen:
a field that is still unset has to come once, and one that is set never again.
-/

namespace PoolEnum.Table

variable {cs rest w : List Char} {isFirst : Bool} {d d' : Draft} {e : Entry}

/-! ## lists of things, from either place -/

/-- What stands in front of a thing: nothing if it is the first, else a comma. -/
def Separator : (isFirst : Bool) → List Char → Prop
  | true, w => w = []
  | false, w => ∃ z, Gap z ∧ w = z ++ [',']

/-- Things up to and with the closing bracket, from behind the opening one or
from behind a thing. -/
def ItemsFrom {α : Type} (P : List Char → α → Prop) (close : Char) :
    (isFirst : Bool) → List Char → List α → Prop
  | true => ItemsInside P close
  | false => ItemsAfter P close

section

variable {α : Type} {P : List Char → α → Prop} {close : Char} {x : α} {xs : List α}

/-- `ItemsFrom` of no things: only the closing bracket is left. -/
theorem itemsFrom_nil_iff : ItemsFrom P close isFirst w [] ↔ ∃ z, Gap z ∧ w = z ++ [close] := by
  cases isFirst with
  | false =>
      constructor
      · intro h
        cases h with
        | close hz => exact ⟨_, hz, rfl⟩
      · intro h
        obtain ⟨z, hz, rfl⟩ := h
        exact .close hz
  | true =>
      constructor
      · intro h
        cases h with
        | empty hz => exact ⟨_, hz, rfl⟩
      · intro h
        obtain ⟨z, hz, rfl⟩ := h
        exact .empty hz

/-- `ItemsFrom` of a thing and others: the `Separator`, the thing, and what is behind it. -/
theorem itemsFrom_cons_iff :
    ItemsFrom P close isFirst w (x :: xs) ↔
      ∃ z u t, Separator isFirst z ∧ P u x ∧ ItemsAfter P close t xs ∧ w = z ++ u ++ t := by
  cases isFirst with
  | false =>
      constructor
      · intro h
        cases h with
        | @more z u t _ _ hz hu ht => exact ⟨z ++ [','], u, t, ⟨z, hz, rfl⟩, hu, ht, by simp⟩
      · intro h
        obtain ⟨_, u, t, ⟨z, hz, rfl⟩, hu, ht, rfl⟩ := h
        have hmore := ItemsAfter.more hz hu ht
        simp only [List.append_assoc, List.cons_append] at hmore ⊢
        exact hmore
  | true =>
      constructor
      · intro h
        cases h with
        | @items u t _ _ hu ht => exact ⟨[], u, t, rfl, hu, ht, rfl⟩
      · intro h
        obtain ⟨_, u, t, rfl, hu, ht, rfl⟩ := h
        exact .items hu ht

/-- What follows a thing ends a number. -/
theorem ItemsAfter.endsNumber (hclose : ∀ cs, EndsNumber (close :: cs))
    (h : ItemsAfter P close w xs) (rest : List Char) : EndsNumber (w ++ rest) := by
  cases h with
  | close hz =>
      rw [List.append_assoc]
      exact hz.endsNumber_append (hclose rest)
  | more hz _ _ =>
      rw [List.append_assoc, List.append_assoc]
      exact hz.endsNumber_append endsNumber_comma

end

/-! ## between members -/

/-- What stands behind a separator is the next character but blanks, which for the first
thing is that of the text, and for another that behind a comma. -/
theorem separated_iff {c : Char} :
    (isGap c = false ∧ ∃ z a, Separator isFirst z ∧ Gap a ∧ cs = z ++ a ++ c :: rest) ↔
      if isFirst then skipGap cs = c :: rest
      else ∃ u, skipGap cs = ',' :: u ∧ skipGap u = c :: rest := by
  cases isFirst with
  | true => simp [Separator, skipGap_eq_cons_iff]
  | false =>
      constructor
      · intro h
        obtain ⟨hc, _, a, ⟨z, hz, rfl⟩, ha, rfl⟩ := h
        refine ⟨a ++ c :: rest, ?_, skipGap_append_cons ha hc rest⟩
        rw [List.append_assoc, List.append_assoc, List.singleton_append,
          skipGap_append_cons hz (by decide)]
      · intro h
        obtain ⟨u, hcomma, hnext⟩ := h
        obtain ⟨_, z, hz, rfl⟩ := skipGap_eq_cons_iff.mp hcomma
        obtain ⟨hc, a, ha, rfl⟩ := skipGap_eq_cons_iff.mp hnext
        exact ⟨hc, z ++ [','], a, ⟨z, hz, rfl⟩, ha, by simp⟩

/-- `readObjectNext` ends an object at its closing brace, whether members were read or not. -/
theorem readObjectNext_eq_end_iff :
    readObjectNext isFirst cs = .ok (false, rest) ↔ ∃ z, Gap z ∧ cs = z ++ '}' :: rest := by
  rw [exists_gap_cons_iff (by decide), readObjectNext]
  cases skipGap cs with
  | nil => simp
  | cons c u => grind

/-- `readObjectNext` reaches the next key iff its quote stands behind a `Separator`. -/
theorem readObjectNext_eq_key_iff :
    readObjectNext isFirst cs = .ok (true, rest) ↔
      ∃ z a, Separator isFirst z ∧ Gap a ∧ cs = z ++ a ++ '"' :: rest := by
  refine Iff.trans ?_ (separated_iff.symm.trans (and_iff_right (by decide)))
  rw [readObjectNext]
  cases skipGap cs with
  | nil => simp
  | cons c u =>
      cases isFirst with
      | true => grind
      | false => grind

/-! ## fields -/

/-- What a member makes of a draft, if it may stand there. -/
def Draft.Takes (d : Draft) (m : Member) (d' : Draft) : Prop :=
  if m.key = "i" then d.id = none ∧ ∃ id, IdText m.value id ∧ d' = { d with id := some id }
  else if m.key = "str" then
    d.value = none ∧ ∃ value, StringText m.value value ∧ d' = { d with value := some value }
  else Written .value m.value ∧ d' = d

/-- What `readField` reads behind a key is a colon and a value that the draft `Takes`. -/
theorem takes_of_readField {key : String} (h : readField d key cs = .ok (d', rest)) :
    ∃ m c v, Gap m ∧ Gap c ∧ d.Takes { key, value := v } d' ∧ cs = m ++ ':' :: c ++ v ++ rest := by
  unfold readField at h
  split at h
  · contradiction
  next hid =>
  split at h
  · contradiction
  next hvalue =>
  split at h
  · contradiction
  next u hcolon =>
  obtain ⟨m, hm, hcs⟩ := readColon_eq_ok_iff.mp hcolon
  split at h
  · next hkey =>
    split at h
    · contradiction
    · next id v hread =>
      simp only [Except.ok.injEq, Prod.mk.injEq] at h
      obtain ⟨rfl, rfl⟩ := h
      obtain ⟨c, w, hc, hw, _, hu⟩ := readId_eq_ok_iff.mp hread
      refine ⟨m, c, w, hm, hc, ?_, by rw [hcs, hu]; simp⟩
      rw [Draft.Takes, if_pos hkey]
      exact ⟨by simpa [hkey] using hid, id, hw, rfl⟩
  · next hnoId =>
    split at h
    · next hkey =>
      split at h
      · contradiction
      · next value v hread =>
        simp only [Except.ok.injEq, Prod.mk.injEq] at h
        obtain ⟨rfl, rfl⟩ := h
        obtain ⟨c, w, hc, hw, hu⟩ := readValue_eq_ok_iff.mp hread
        refine ⟨m, c, w, hm, hc, ?_, by rw [hcs, hu]; simp⟩
        rw [Draft.Takes, if_neg hnoId, if_pos hkey]
        exact ⟨by simpa [hkey] using hvalue, value, hw, rfl⟩
    · next hnoValue =>
      split at h
      · contradiction
      · next v hread =>
        simp only [Except.ok.injEq, Prod.mk.injEq] at h
        obtain ⟨rfl, rfl⟩ := h
        obtain ⟨c, w, hc, hw, hu⟩ := written_of_skipValue hread
        refine ⟨m, c, w, hm, hc, ?_, by rw [hcs, hu]; simp⟩
        rw [Draft.Takes, if_neg hnoId, if_neg hnoValue]
        exact ⟨hw, rfl⟩

/-- A field that a draft `Takes` is not there yet. -/
theorem Draft.Takes.fresh {v : List Char} {key : String} (h : d.Takes { key, value := v } d') :
    ¬ (key = "i" ∧ d.id.isSome) ∧ ¬ (key = "str" ∧ d.value.isSome) := by
  unfold Takes at h
  dsimp only at h
  split at h
  · next hkey => simp [hkey, h.1]
  · next hnoId =>
    split at h
    · next hkey => simp [hkey, h.1]
    · next hnoValue => simp [hnoId, hnoValue]

/-- `readField` at the key of the id, which is not there yet, reads an id. -/
theorem readField_id {v : List Char} (h : d.Takes { key := "i", value := v } d')
    (hcolon : readColon cs = .ok rest) :
    readField d "i" cs = (readId rest).map fun p => ({ d with id := some p.1 }, p.2) := by
  rw [readField, if_neg h.fresh.1, if_neg h.fresh.2, hcolon]
  dsimp only
  rw [if_pos rfl]
  cases readId rest <;> rfl

theorem readField_value {v : List Char} (h : d.Takes { key := "str", value := v } d')
    (hcolon : readColon cs = .ok rest) :
    readField d "str" cs = (readValue rest).map fun p => ({ d with value := some p.1 }, p.2) := by
  rw [readField, if_neg h.fresh.1, if_neg h.fresh.2, hcolon]
  dsimp only
  rw [if_neg (by decide), if_pos rfl]
  cases readValue rest <;> rfl

/-- `readField` at any other key passes over the value and leaves the draft. -/
theorem readField_other {key : String} (hid : key ≠ "i") (hvalue : key ≠ "str")
    (hcolon : readColon cs = .ok rest) :
    readField d key cs = (skipValue rest).map fun r => (d, r) := by
  simp only [readField, hid, hvalue, hcolon, false_and, if_false]
  cases skipValue rest <;> rfl

/-- `readField` reads a value that the draft `Takes`, if what follows `EndsNumber`. -/
theorem readField_of_takes {m c v : List Char} {key : String} (hm : Gap m) (hc : Gap c)
    (h : d.Takes { key, value := v } d') (hrest : EndsNumber rest) :
    readField d key (m ++ ':' :: c ++ v ++ rest) = .ok (d', rest) := by
  have hcolon : readColon (m ++ ':' :: c ++ v ++ rest) = .ok (c ++ v ++ rest) :=
    readColon_eq_ok_iff.mpr ⟨m, hm, by simp⟩
  by_cases hid : key = "i"
  · subst hid
    rw [readField_id h hcolon]
    obtain ⟨-, id, hw, rfl⟩ := h
    rw [readId_eq_ok_iff.mpr ⟨c, v, hc, hw, hrest, rfl⟩]
    rfl
  · by_cases hvalue : key = "str"
    · subst hvalue
      rw [readField_value h hcolon]
      obtain ⟨-, value, hw, rfl⟩ := h
      rw [readValue_eq_ok_iff.mpr ⟨c, v, hc, hw, rfl⟩]
      rfl
    · rw [readField_other hid hvalue hcolon]
      rw [Draft.Takes, if_neg hid, if_neg hvalue] at h
      obtain ⟨hw, rfl⟩ := h
      rw [skipValue_of_written hc hw hrest]
      rfl

/-! ## all members -/

/-- The draft that an entry is made from. -/
def Draft.whole (e : Entry) : Draft :=
  { id := some e.id, value := some e.value }

/-- What members make of a draft, one after the other. -/
def Draft.Reads : Draft → List Member → Draft → Prop
  | d, [], d' => d = d'
  | d, m :: ms, d' => ∃ d₁, d.Takes m d₁ ∧ d₁.Reads ms d'

/-- `Draft.finish` gives an entry iff the draft is `Draft.whole`. -/
theorem Draft.finish_eq_ok_iff : d.finish cs = .ok (e, rest) ↔ d = .whole e ∧ cs = rest := by
  obtain ⟨id, value⟩ := d
  obtain ⟨eid, evalue⟩ := e
  cases id with
  | none => simp [finish, whole]
  | some id =>
      cases value with
      | none => simp [finish, whole]
      | some value => simp [finish, whole]

/-- `readMembers` reads member by member, with `readField`. -/
theorem readMembers_eq :
    readMembers isFirst d cs =
      match readObjectNext isFirst cs with
      | .error stop => .error stop
      | .ok (false, rest) => d.finish rest
      | .ok (true, rest) =>
        match readText rest with
        | .error stop => .error stop
        | .ok (key, rest) =>
          match readField d (String.ofList key) rest with
          | .error stop => .error stop
          | .ok (d, rest) => readMembers false d rest := by
  rw [readMembers]
  split
  · next h => simp only [h]
  · next h => simp only [h]
  · next h =>
    simp only [h]
    split
    · next h => simp only [h]
    · next h =>
      simp only [h]
      split
      all_goals next h => simp only [h]

/-- `readMembers` at the closing brace finishes the draft. -/
theorem readMembers_of_end (h : readObjectNext isFirst cs = .ok (false, rest)) :
    readMembers isFirst d cs = d.finish rest := by
  rw [readMembers_eq, h]

theorem readMembers_of_member {u v key : List Char} (h : readObjectNext isFirst cs = .ok (true, u))
    (hkey : readText u = .ok (key, v))
    (hfield : readField d (String.ofList key) v = .ok (d', rest)) :
    readMembers isFirst d cs = readMembers false d' rest := by
  rw [readMembers_eq, h]
  simp only [hkey, hfield]

/-- A key is read up to its closing quote. -/
theorem reads_key {z a k : List Char} {key : String} (hz : Separator isFirst z) (ha : Gap a)
    (hk : StringText k key) (rest : List Char) :
    ∃ u, readObjectNext isFirst (z ++ a ++ k ++ rest) = .ok (true, u) ∧
      readText u = .ok (key.toList, rest) := by
  obtain ⟨content, hcontent, rfl⟩ := hk
  refine ⟨content ++ '"' :: rest, ?_, readText_eq_ok_iff.mpr ⟨content, hcontent, rfl⟩⟩
  refine readObjectNext_eq_key_iff.mpr ⟨z, a, hz, ha, ?_⟩
  simp only [List.append_assoc, List.cons_append, List.nil_append]

/-- A member whose field is read is done. -/
theorem readMembers_of_field {z a k v : List Char} {key : String} (hz : Separator isFirst z)
    (ha : Gap a) (hk : StringText k key) (hfield : readField d key v = .ok (d', rest)) :
    readMembers isFirst d (z ++ a ++ k ++ v) = readMembers false d' rest := by
  obtain ⟨u, hnext, htext⟩ := reads_key hz ha hk v
  rw [← String.ofList_toList (s := key)] at hfield
  exact readMembers_of_member hnext htext hfield

/-- `readMembers` reads a member that the draft `Takes`. -/
theorem readMembers_of_memberText {z u : List Char} {m : Member} (hz : Separator isFirst z)
    (hu : MemberText u m) (htakes : d.Takes m d') (hrest : EndsNumber rest) :
    readMembers isFirst d (z ++ u ++ rest) = readMembers false d' rest := by
  cases hu with
  | @mk a k x c v key ha hk hx hc =>
      rw [← readMembers_of_field hz ha hk (readField_of_takes hx hc htakes hrest)]
      simp only [List.append_assoc, List.cons_append]

/-- An entry by `readMembers` is what its members make of the draft, as `Draft.Reads` says. -/
theorem reads_of_readMembers (h : readMembers isFirst d cs = .ok (e, rest)) :
    ∃ w ms, ItemsFrom MemberText '}' isFirst w ms ∧ d.Reads ms (.whole e) ∧ cs = w ++ rest := by
  fun_induction readMembers isFirst d cs with
  | case1 => contradiction
  | case2 isFirst d cs u hnext =>
      obtain ⟨z, hz, hcs⟩ := readObjectNext_eq_end_iff.mp hnext
      obtain ⟨hd, hu⟩ := Draft.finish_eq_ok_iff.mp h
      refine ⟨z ++ ['}'], [], itemsFrom_nil_iff.mpr ⟨z, hz, rfl⟩, hd, ?_⟩
      rw [hcs, hu, List.append_assoc, List.singleton_append]
  | case3 => contradiction
  | case4 => contradiction
  | case5 isFirst d cs u hnext _ key v hkey _ d₁ t hfield _ ih =>
      obtain ⟨z, a, hz, ha, hcs⟩ := readObjectNext_eq_key_iff.mp hnext
      obtain ⟨k, hk, hu⟩ := readText_eq_ok_iff.mp hkey
      obtain ⟨m, c, x, hm, hc, htakes, hv⟩ := takes_of_readField hfield
      obtain ⟨w, ms, hw, hreads, ht⟩ := ih h
      have hstring : StringText ('"' :: k ++ ['"']) (String.ofList key) := by
        refine ⟨k, ?_, rfl⟩
        rw [String.toList_ofList]
        exact hk
      have hitem := MemberText.mk (v := x) ha hstring hm hc
      refine ⟨_, _, itemsFrom_cons_iff.mpr ⟨z, _, w, hz, hitem, hw, rfl⟩, ⟨d₁, htakes, hreads⟩, ?_⟩
      rw [hcs, hu, hv, ht]
      simp only [List.append_assoc, List.cons_append, List.nil_append]

/-- Members that make a whole entry by `Draft.Reads` are read as that entry. -/
theorem readMembers_of_reads {ms : List Member} (hw : ItemsFrom MemberText '}' isFirst w ms)
    (h : d.Reads ms (.whole e)) (rest : List Char) :
    readMembers isFirst d (w ++ rest) = .ok (e, rest) := by
  induction ms generalizing isFirst d w with
  | nil =>
      obtain ⟨z, hz, rfl⟩ := itemsFrom_nil_iff.mp hw
      have hnext : readObjectNext isFirst (z ++ ['}'] ++ rest) = .ok (false, rest) :=
        readObjectNext_eq_end_iff.mpr ⟨z, hz, List.append_assoc ..⟩
      rw [readMembers_of_end hnext]
      exact Draft.finish_eq_ok_iff.mpr ⟨h, rfl⟩
  | cons m ms ih =>
      obtain ⟨z, u, t, hz, hu, ht, rfl⟩ := itemsFrom_cons_iff.mp hw
      obtain ⟨d₁, htakes, hreads⟩ := h
      have hnumber : EndsNumber (t ++ rest) := by
        refine ht.endsNumber ?_ rest
        exact fun cs => Bracket.endsNumber_close .object
      rw [List.append_assoc]
      exact (readMembers_of_memberText hz hu htakes hnumber).trans (ih ht hreads)

/-! ## fields that come once -/

/-- How often a field still comes that is to be `x` in the end: once if it is
unset, and never again if it is set. -/
def Awaits {α : Type} (field : Option α) (x : α) (n : Nat) : Prop :=
  (field = none ∧ n = 1) ∨ (field = some x ∧ n = 0)

/-- A field `Awaits` nothing more iff it is set. -/
theorem awaits_zero_iff {α : Type} {field : Option α} {x : α} :
    Awaits field x 0 ↔ field = some x := by
  simp [Awaits]

/-- A field that is not set `Awaits` its key once. -/
theorem awaits_succ_iff {α : Type} {field : Option α} {x : α} {n : Nat} :
    Awaits field x (n + 1) ↔ field = none ∧ n = 0 := by
  simp [Awaits]

/-- A field that is set `Awaits` nothing more, and keeps its value. -/
theorem awaits_some_iff {α : Type} {x y : α} {n : Nat} :
    Awaits (some y) x n ↔ y = x ∧ n = 0 := by
  simp [Awaits]

theorem countKey_cons (key : String) (m : Member) (ms : List Member) :
    countKey key (m :: ms) = countKey key ms + if m.key = key then 1 else 0 := by
  simp [countKey, List.countP_cons]

/-- `Draft.Reads` makes an entry of a draft iff each field comes as often as the draft `Awaits` it
and all values fit the entry. -/
theorem reads_whole_iff {ms : List Member} :
    d.Reads ms (.whole e) ↔
      Awaits d.id e.id (countKey "i" ms) ∧ Awaits d.value e.value (countKey "str" ms) ∧
        ∀ m ∈ ms, m.Fits e := by
  induction ms generalizing d with
  | nil =>
      have hcount (key : String) : countKey key [] = 0 := rfl
      rw [hcount, hcount, awaits_zero_iff, awaits_zero_iff]
      obtain ⟨id, value⟩ := d
      simp [Draft.Reads, Draft.whole]
  | cons m ms ih =>
      simp only [Draft.Reads, ih, Draft.Takes, countKey_cons, List.forall_mem_cons, Member.Fits]
      -- the step fixes the field of its own key, and leaves the count of the other alone
      by_cases hid : m.key = "i"
      · have hvalue : "i" ≠ "str" := by decide
        simp only [hid, hvalue, if_true, if_false, awaits_succ_iff, Nat.add_zero]
        constructor
        · intro h
          obtain ⟨_, ⟨hnone, id, hw, rfl⟩, hi, hs, hfits⟩ := h
          obtain ⟨heq, hcount⟩ := awaits_some_iff.mp hi
          exact ⟨⟨hnone, hcount⟩, hs, heq ▸ hw, hfits⟩
        · intro h
          obtain ⟨⟨hnone, hcount⟩, hs, hw, hfits⟩ := h
          exact ⟨_, ⟨hnone, e.id, hw, rfl⟩, awaits_some_iff.mpr ⟨rfl, hcount⟩, hs, hfits⟩
      · by_cases hvalue : m.key = "str"
        · have hid : "str" ≠ "i" := by decide
          simp only [hid, hvalue, if_true, if_false, awaits_succ_iff, Nat.add_zero]
          constructor
          · intro h
            obtain ⟨_, ⟨hnone, value, hw, rfl⟩, hi, hs, hfits⟩ := h
            obtain ⟨heq, hcount⟩ := awaits_some_iff.mp hs
            exact ⟨hi, ⟨hnone, hcount⟩, heq ▸ hw, hfits⟩
          · intro h
            obtain ⟨hi, ⟨hnone, hcount⟩, hw, hfits⟩ := h
            exact ⟨_, ⟨hnone, e.value, hw, rfl⟩, hi, awaits_some_iff.mpr ⟨rfl, hcount⟩, hfits⟩
        · simp only [hid, hvalue, if_false, Nat.add_zero]
          constructor
          · intro h
            obtain ⟨_, ⟨hw, rfl⟩, hi, hs, hfits⟩ := h
            exact ⟨hi, hs, hw, hfits⟩
          · intro h
            obtain ⟨hi, hs, hw, hfits⟩ := h
            exact ⟨d, ⟨hw, rfl⟩, hi, hs, hfits⟩

/-- `readMembers` gives an entry iff each field is there once and all values fit. -/
theorem readMembers_eq_ok_iff :
    readMembers true { id := none, value := none } cs = .ok (e, rest) ↔
      ∃ w ms, ItemsInside MemberText '}' w ms ∧ countKey "i" ms = 1 ∧ countKey "str" ms = 1 ∧
        (∀ m ∈ ms, m.Fits e) ∧ cs = w ++ rest := by
  have hawaits {α : Type} (x : α) (n : Nat) : Awaits none x n ↔ n = 1 := by simp [Awaits]
  constructor
  · intro h
    obtain ⟨w, ms, hw, hreads, hcs⟩ := reads_of_readMembers h
    obtain ⟨hi, hs, hfits⟩ := reads_whole_iff.mp hreads
    exact ⟨w, ms, hw, (hawaits _ _).mp hi, (hawaits _ _).mp hs, hfits, hcs⟩
  · intro h
    obtain ⟨w, ms, hw, hi, hs, hfits, rfl⟩ := h
    have hfrom : ItemsFrom MemberText '}' true w ms := hw
    refine readMembers_of_reads hfrom (reads_whole_iff.mpr ?_) rest
    exact ⟨(hawaits _ _).mpr hi, (hawaits _ _).mpr hs, hfits⟩

end PoolEnum.Table
