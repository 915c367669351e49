import PoolEnum.Proofs.Toml.Keys
import PoolEnum.Proofs.Toml.Text
import PoolEnum.Toml.Document

/-!
# PoolEnum.Proofs.Toml.Item

What is read on one line does not depend on the lines behind it: keys and items.

What makes no sense is passed over by marks alone, and that can go on in the next line: a
string that is not closed takes other lines along. So this is shown of keys that are names
(`readKeys_append`) and of items that have a value, down to the items within them
(`steady_readItem`).
-/

namespace PoolEnum.Toml

variable {more : List Char}

/-! ## keys -/

/-- Whether `c` may stand in a key without marks, whatever that says. -/
def inKey (c : Char) : Bool :=
  isBare c && !isSpace c && c ≠ '.'

/-- `readKey` at a quote: the string that `takeString` finds, unless it is one over several
lines. -/
theorem readKey_quote {c : Char} (hc : isQuote c) (cs : List Char) :
    readKey (c :: cs) =
      (if cs.take 2 = [c, c] then .unreadable
        else (takeString (c :: cs)).1.elim .unreadable .name, (takeString (c :: cs)).2) := by
  unfold readKey
  dsimp only
  rw [if_pos hc]

/-- `readKey` at any other character: all that is `inKey`, and a name only if each character of it
is `isKeyChar`. -/
theorem readKey_bare {c : Char} (hc : ¬ isQuote c) (cs : List Char) :
    readKey (c :: cs) =
      (if (c :: cs).takeWhile inKey = [] then .missing
        else if ((c :: cs).takeWhile inKey).all isKeyChar then
          .name (String.ofList ((c :: cs).takeWhile inKey))
        else .unreadable, (c :: cs).dropWhile inKey) := by
  unfold readKey
  dsimp only
  rw [if_neg hc]
  rfl

/-- `readKey` reads a name in the same way in front of other lines. -/
theorem readKey_append {cs rest : List Char} {name : String} (hline : OneLine cs)
    (h : readKey cs = (.name name, rest)) (hmore : Breaks more) :
    rest <:+ cs ∧ readKey (cs ++ more) = (.name name, rest ++ more) := by
  cases cs with
  | nil => simp [readKey] at h
  | cons c cs =>
      by_cases hc : isQuote c
      · rw [readKey_quote hc] at h
        obtain ⟨hname, rfl⟩ := Prod.mk.inj h
        have hmark : c ≠ '\n' ∧ c ≠ '\r' := hline.head
        split at hname
        · contradiction
        · next hshort =>
          cases htake : takeString (c :: cs) with
          | mk s? rest =>
              cases s? with
              | none => simp [htake] at hname
              | some s =>
                  obtain ⟨hsuffix, happend⟩ := takeString_append hline htake hmore
                  refine ⟨hsuffix, ?_⟩
                  rw [htake] at hname
                  rw [List.cons_append] at happend ⊢
                  rw [readKey_quote hc, if_neg (mt (take_two_append hmark hmore).mp hshort), happend]
                  exact Prod.ext hname rfl
      · rw [readKey_bare hc] at h
        obtain ⟨hname, rfl⟩ := Prod.mk.inj h
        refine ⟨List.dropWhile_suffix _, ?_⟩
        rw [List.cons_append, readKey_bare hc, ← List.cons_append,
          takeWhile_append_of_breaks hmore rfl rfl, dropWhile_append_of_breaks hmore rfl rfl, hname]

/-- All `keys` are names. -/
def Named (keys : Keys) : Prop :=
  ∀ key ∈ keys, ∃ name, key = .name name

/-- Keys that make a `KeyPath` are all names. -/
theorem named_of_path {keys : Keys} {path : KeyPath} (h : KeyPath.of keys = .ok path) :
    Named keys := by
  obtain ⟨names, hread, -⟩ := bind_eq_ok_iff.mp h
  have hnames := orMalformed_eq_ok_iff.mp hread
  clear h hread
  induction keys generalizing names with
  | nil => exact fun key hkey => absurd hkey List.not_mem_nil
  | cons key keys ih =>
      rw [List.mapM_cons] at hnames
      simp only [bind, Option.bind_eq_some_iff] at hnames
      obtain ⟨name, hname, names', hnames', -⟩ := hnames
      refine List.forall_mem_cons.mpr ⟨?_, ih names' hnames'⟩
      cases key with
      | name s => exact ⟨s, rfl⟩
      | unreadable => contradiction
      | missing => contradiction

section

variable {fuel : Nat} {key : Key} {cs behind after : List Char}

/-- `readKeyPath` at a dot: one key, and the path goes on behind the dot. -/
theorem readKeyPath_dot (hkey : readKey cs = (key, behind))
    (hdot : skipSpace behind = '.' :: after) :
    readKeyPath (fuel + 1) cs =
      (key :: (readKeyPath fuel (skipSpace after)).1, (readKeyPath fuel (skipSpace after)).2) := by
  rw [readKeyPath, hkey]
  dsimp only
  rw [hdot]
  rfl

/-- `readKeyPath` where no dot follows: this key is the last. -/
theorem readKeyPath_last (hkey : readKey cs = (key, behind))
    (hlast : ∀ after, skipSpace behind ≠ '.' :: after) :
    readKeyPath (fuel + 1) cs = ([key], skipSpace behind) := by
  rw [readKeyPath, hkey]
  dsimp only
  split
  · next after hdot => exact absurd hdot (hlast after)
  · rfl

end

/-- `readKeyPath` reads names in the same way in front of other lines, with any `fuel` that covers
the line. -/
theorem readKeyPath_append {fuel fuel' : Nat} {cs rest : List Char} {keys : Keys}
    (hline : OneLine cs) (h : readKeyPath fuel cs = (keys, rest)) (hnamed : Named keys)
    (hfuel : cs.length < fuel) (hfuel' : cs.length < fuel') (hmore : Breaks more) :
    rest <:+ cs ∧ readKeyPath fuel' (cs ++ more) = (keys, rest ++ more) := by
  induction fuel generalizing cs keys fuel' with
  | zero => omega
  | succ fuel ih =>
      obtain ⟨fuel', rfl⟩ : ∃ n, fuel' = n + 1 := ⟨fuel' - 1, by omega⟩
      cases hkey : readKey cs with
      | mk key behind =>
          by_cases hdot : ∃ after, skipSpace behind = '.' :: after
          · -- A dot: the path goes on behind it, with less text and less fuel.
            obtain ⟨after, hdot⟩ := hdot
            rw [readKeyPath_dot hkey hdot] at h
            obtain ⟨rfl, rfl⟩ := Prod.mk.inj h
            obtain ⟨⟨name, rfl⟩, hothers⟩ := List.forall_mem_cons.mp hnamed
            obtain ⟨hbehind, happend⟩ := readKey_append hline hkey hmore
            have hafter : after <:+ cs :=
              (List.suffix_cons '.' after).trans (hdot ▸ (skipSpace_suffix behind).trans hbehind)
            have hshort : (skipSpace after).length < cs.length := by
              have hlength := (skipSpace_suffix after).length_le
              have hlength' := (hdot ▸ (skipSpace_suffix behind).trans hbehind).length_le
              rw [List.length_cons] at hlength'
              omega
            have hfits : (skipSpace after).length < fuel' := by omega
            obtain ⟨hrest, hkeys⟩ := ih (hline.of_suffix ((skipSpace_suffix after).trans hafter))
              rfl hothers (by omega) hfits
            have hdot' : skipSpace (behind ++ more) = '.' :: (after ++ more) := by
              rw [skipSpace_append hmore, hdot, List.cons_append]
            refine ⟨hrest.trans ((skipSpace_suffix after).trans hafter), ?_⟩
            rw [readKeyPath_dot happend hdot', skipSpace_append hmore, hkeys]
          · have hlast := not_exists.mp hdot
            rw [readKeyPath_last hkey hlast] at h
            obtain ⟨rfl, rfl⟩ := Prod.mk.inj h
            obtain ⟨name, rfl⟩ := hnamed key List.mem_cons_self
            obtain ⟨hbehind, happend⟩ := readKey_append hline hkey hmore
            -- A line end is no dot, so the path does not go on in the next line either.
            have hlast' : ∀ after, skipSpace (behind ++ more) ≠ '.' :: after := by
              intro after
              rw [skipSpace_append hmore]
              cases hspace : skipSpace behind with
              | nil =>
                  obtain ⟨c, rest, rfl, rfl | rfl⟩ := hmore <;> simp
              | cons c front =>
                  intro heq
                  obtain ⟨rfl, -⟩ := List.cons.inj heq
                  exact hlast front hspace
            refine ⟨(skipSpace_suffix behind).trans hbehind, ?_⟩
            rw [readKeyPath_last happend hlast', skipSpace_append hmore]

/-- `readKeys` reads names in the same way in front of other lines. -/
theorem readKeys_append {cs rest : List Char} {keys : Keys} (hline : OneLine cs)
    (h : readKeys cs = (keys, rest)) (hnamed : Named keys) (hmore : Breaks more) :
    rest <:+ cs ∧ readKeys (cs ++ more) = (keys, rest ++ more) := by
  refine readKeyPath_append hline h hnamed (Nat.lt_succ_self _) ?_ hmore
  rw [List.length_append]
  omega

/-! ## items without marks -/

/-- `takeBare` stops where the line ends. -/
theorem takeBare_append (hmore : Breaks more) (fresh : Bool) (cs : List Char) :
    (takeBare fresh cs).2 <:+ cs ∧
      takeBare fresh (cs ++ more) = ((takeBare fresh cs).1, (takeBare fresh cs).2 ++ more) := by
  induction cs generalizing fresh with
  | nil =>
      refine ⟨List.suffix_refl _, ?_⟩
      obtain ⟨c, rest, rfl, rfl | rfl⟩ := hmore <;> rfl
  | cons c cs ih =>
      rw [List.cons_append, takeBare, takeBare]
      split
      · exact ⟨List.suffix_refl _, rfl⟩
      · obtain ⟨hsuffix, happend⟩ := ih (isSpace c || c == '.')
        rw [happend]
        exact ⟨hsuffix.trans (List.suffix_cons _ _), rfl⟩

/-- `readBare` `Stays`: what has no marks ends with its line. -/
theorem readBare_stays {cs rest : List Char} {item : Item}
    (h : readBare cs = some (item, rest)) : Stays readBare cs item rest := by
  unfold readBare at h
  dsimp only at h
  split at h
  · contradiction
  · next hsome =>
    obtain ⟨rfl, rfl⟩ := Prod.mk.inj (Option.some.inj h)
    refine ⟨(takeBare_append breaks_feed false cs).1, fun more hmore => ?_⟩
    unfold readBare
    rw [(takeBare_append hmore false cs).2]
    dsimp only
    rw [if_neg hsome]

/-! ## lists with commas -/

section

variable {α : Type} {mark : Char} {read : List Char → Option (α × List Char)}

/-- What a reader finds from behind an opening mark or a comma up to a closing mark. -/
inductive ReadsAll {α : Type} (mark : Char) (read : List Char → Option (α × List Char)) :
    List Char → List α → List Char → Prop
  | close {cs rest : List Char} (hfront : skipTrivia false cs = some (mark :: rest)) :
    ReadsAll mark read cs [] rest
  | last {c : Char} {cs front behind rest : List Char} {a : α}
    (hfront : skipTrivia false cs = some (c :: front)) (hc : c ≠ mark)
    (hread : read (c :: front) = some (a, behind))
    (hclose : skipTrivia false behind = some (mark :: rest)) : ReadsAll mark read cs [a] rest
  | cons {c : Char} {cs front behind after rest : List Char} {a : α} {as : List α}
    (hfront : skipTrivia false cs = some (c :: front)) (hc : c ≠ mark)
    (hread : read (c :: front) = some (a, behind))
    (hcomma : skipTrivia false behind = some (',' :: after))
    (hothers : ReadsAll mark read after as rest) : ReadsAll mark read cs (a :: as) rest

/-- `ReadsAll` goes on in the same way in front of a line end if each of its parts does. -/
theorem ReadsAll.append {cs rest : List Char} {as : List α} (h : ReadsAll mark read cs as rest)
    (hline : OneLine cs)
    (hstays : ∀ a ∈ as, ∀ cs rest, OneLine cs → read cs = some (a, rest) → Stays read cs a rest)
    (hmore : Breaks more) :
    rest <:+ cs ∧ ReadsAll mark read (cs ++ more) as (rest ++ more) := by
  induction h with
  | close hfront =>
      obtain ⟨hsuffix, happend⟩ := skipTrivia_append hline hfront more
      exact ⟨(List.suffix_cons _ _).trans hsuffix, .close happend⟩
  | last hfront hc hread hclose =>
      obtain ⟨hsuffix, happend⟩ := skipTrivia_append hline hfront more
      have hpart := hstays _ List.mem_cons_self _ _ (hline.of_suffix hsuffix) hread
      have hbehind := hpart.suffix.trans hsuffix
      obtain ⟨hsuffix', happend'⟩ := skipTrivia_append (hline.of_suffix hbehind) hclose more
      exact ⟨(List.suffix_cons _ _).trans (hsuffix'.trans hbehind),
        .last happend hc (hpart.append more hmore) happend'⟩
  | cons hfront hc hread hcomma _ ih =>
      obtain ⟨hpart, hothers⟩ := List.forall_mem_cons.mp hstays
      obtain ⟨hsuffix, happend⟩ := skipTrivia_append hline hfront more
      have hpart := hpart _ _ (hline.of_suffix hsuffix) hread
      have hbehind := hpart.suffix.trans hsuffix
      obtain ⟨hsuffix', happend'⟩ := skipTrivia_append (hline.of_suffix hbehind) hcomma more
      have hafter := (List.suffix_cons _ _).trans (hsuffix'.trans hbehind)
      obtain ⟨hrest, hall⟩ := ih (hline.of_suffix hafter) hothers
      exact ⟨hrest.trans hafter, .cons happend hc (hpart.append more hmore) happend' hall⟩

end

/-! ## items in brackets -/

/-- A reader of items `Stays` wherever what it reads has a value. -/
def Steady (readItem : List Char → Option (Item × List Char)) : Prop :=
  ∀ cs item rest value, OneLine cs → readItem cs = some (item, rest) → item.value = .ok value →
    Stays readItem cs item rest

section

variable {readItem : List Char → Option (Item × List Char)}

/-- What `readItems` reads `ReadsAll` describes, and `fuel` bounds the number of items. -/
theorem readsAll_of_readItems (hnil : readItem [] = none) {fuel : Nat} {cs rest : List Char}
    {items : List Item} (h : readItems readItem fuel cs = some (items, rest)) :
    ReadsAll ']' readItem cs items rest ∧ items.length ≤ fuel := by
  induction fuel generalizing cs items with
  | zero => contradiction
  | succ fuel ih =>
      unfold readItems at h
      simp only [bind, Option.bind_eq_some_iff] at h
      obtain ⟨front, hfront, h⟩ := h
      split at h
      · obtain ⟨rfl, rfl⟩ := Prod.mk.inj (Option.some.inj h)
        exact ⟨.close hfront, Nat.zero_le _⟩
      · next hc =>
        simp only [Option.bind_eq_some_iff] at h
        obtain ⟨⟨item, behind⟩, hitem, after, hafter, h⟩ := h
        obtain ⟨c, front, rfl⟩ : ∃ c rest, front = c :: rest := by
          refine List.exists_cons_of_ne_nil ?_
          rintro rfl
          rw [hnil] at hitem
          contradiction
        have hne : c ≠ ']' := by
          rintro rfl
          exact hc front rfl
        split at h
        · simp only [Option.bind_eq_some_iff] at h
          obtain ⟨⟨items', rest'⟩, hitems, h⟩ := h
          obtain ⟨rfl, rfl⟩ := Prod.mk.inj (Option.some.inj h)
          obtain ⟨hall, hlength⟩ := ih hitems
          exact ⟨.cons hfront hne hitem hafter hall, Nat.succ_le_succ hlength⟩
        · obtain ⟨rfl, rfl⟩ := Prod.mk.inj (Option.some.inj h)
          exact ⟨.last hfront hne hitem hafter, Nat.succ_le_succ (Nat.zero_le _)⟩
        · contradiction

/-- What `ReadsAll` describes `readItems` reads, with any `fuel` above the number of items. -/
theorem readItems_of_readsAll {fuel : Nat} {cs rest : List Char} {items : List Item}
    (h : ReadsAll ']' readItem cs items rest) (hfuel : items.length < fuel) :
    readItems readItem fuel cs = some (items, rest) := by
  induction h generalizing fuel with
  | close hfront =>
      obtain ⟨fuel, rfl⟩ : ∃ n, fuel = n + 1 := ⟨fuel - 1, by omega⟩
      simp [readItems, hfront]
  | last hfront hc hitem hclose =>
      obtain ⟨fuel, rfl⟩ : ∃ n, fuel = n + 1 := ⟨fuel - 1, by omega⟩
      simp [readItems, hfront, hc, hitem, hclose]
  | cons hfront hc hitem hcomma _ ih =>
      obtain ⟨fuel, rfl⟩ : ∃ n, fuel = n + 1 := ⟨fuel - 1, by omega⟩
      have hitems := ih (Nat.lt_of_succ_lt_succ hfuel)
      simp [readItems, hfront, hc, hitem, hcomma, hitems]

/-- Items have values by `valuesOf` only if each of them has one. -/
theorem exists_value_of_valuesOf {items : List Item} {values : List Value}
    (h : valuesOf items = .ok values) : ∀ item ∈ items, ∃ value, item.value = .ok value := by
  induction items generalizing values with
  | nil => exact fun item hitem => absurd hitem List.not_mem_nil
  | cons item items ih =>
      rw [valuesOf] at h
      obtain ⟨value, hvalue, h⟩ := bind_eq_ok_iff.mp h
      obtain ⟨values', hvalues, -⟩ := bind_eq_ok_iff.mp h
      exact List.forall_mem_cons.mpr ⟨⟨value, hvalue⟩, ih hvalues⟩

/-! ## bindings in braces -/

/-- An item that is `missing` has no value. -/
theorem value_missing : Item.missing.value = .error .malformed := by
  rfl

/-- An equals sign and an item that is there. -/
inductive ReadsBound (readItem : List Char → Option (Item × List Char)) (cs : List Char)
    (item : Item) (rest : List Char) : Prop
  | bound {c : Char} {front body : List Char}
    (hequals : skipTrivia false cs = some ('=' :: front))
    (hfront : skipTrivia false front = some (c :: body)) (hc : c ≠ '}')
    (hitem : readItem (c :: body) = some (item, rest)) : ReadsBound readItem cs item rest

/-- An item with a value that `readBound` reads is there, so `ReadsBound` describes it. -/
theorem readsBound_of_readBound (hnil : readItem [] = none) {cs rest : List Char} {item : Item}
    {value : Value} (h : readBound readItem cs = some (item, rest))
    (hvalue : item.value = .ok value) : ReadsBound readItem cs item rest := by
  have hthere : item ≠ .missing := by
    rintro rfl
    rw [value_missing] at hvalue
    contradiction
  unfold readBound at h
  simp only [bind, Option.bind_eq_some_iff] at h
  obtain ⟨equals, hequals, h⟩ := h
  split at h
  · obtain ⟨rfl, -⟩ := Prod.mk.inj (Option.some.inj h)
    exact absurd rfl hthere
  · simp only [Option.bind_eq_some_iff] at h
    obtain ⟨front, hmark, body, hbody, h⟩ := h
    obtain rfl := readMark_eq_some_iff.mp hmark
    split at h
    · obtain ⟨rfl, -⟩ := Prod.mk.inj (Option.some.inj h)
      exact absurd rfl hthere
    · next hc =>
      cases body with
      | nil =>
          rw [hnil] at h
          contradiction
      | cons c body =>
          refine .bound hequals hbody ?_ h
          rintro rfl
          exact hc body rfl

/-- What `ReadsBound` describes `readBound` reads. -/
theorem ReadsBound.readBound_eq {cs rest : List Char} {item : Item}
    (h : ReadsBound readItem cs item rest) : readBound readItem cs = some (item, rest) := by
  obtain ⟨hequals, hfront, hc, hitem⟩ := h
  simp [readBound, hequals, hfront, hc, hitem, readMark]

/-- `readBound` `Stays` for items with values, if the reader of items is `Steady`. -/
theorem readBound_stays (hnil : readItem [] = none) (hsteady : Steady readItem)
    {cs rest : List Char} {item : Item} {value : Value} (hline : OneLine cs)
    (h : readBound readItem cs = some (item, rest)) (hvalue : item.value = .ok value) :
    Stays (readBound readItem) cs item rest := by
  obtain ⟨hequals, hfront, hc, hitem⟩ := readsBound_of_readBound hnil h hvalue
  have hbehind := (List.suffix_cons _ _).trans (skipTrivia_append hline hequals []).1
  have hbody := (skipTrivia_append (hline.of_suffix hbehind) hfront []).1.trans hbehind
  have hstays := hsteady _ _ _ _ (hline.of_suffix hbody) hitem hvalue
  refine ⟨hstays.suffix.trans hbody, fun more hmore => ReadsBound.readBound_eq ?_⟩
  exact .bound (skipTrivia_append hline hequals more).2
    (skipTrivia_append (hline.of_suffix hbehind) hfront more).2 hc (hstays.append more hmore)

/-- Reads keys and the item that they are bound to. -/
def readBinding (readItem : List Char → Option (Item × List Char)) (cs : List Char) :
    Option ((Keys × Item) × List Char) :=
  (readBound readItem (readKeys cs).2).map fun (item, rest) => (((readKeys cs).1, item), rest)

/-- `readBinding` `Stays` for keys that are `Named` and items with values. -/
theorem readBinding_stays (hnil : readItem [] = none) (hsteady : Steady readItem)
    {cs rest : List Char} {keys : Keys} {item : Item} {value : Value} (hline : OneLine cs)
    (h : readBinding readItem cs = some ((keys, item), rest)) (hnamed : Named keys)
    (hvalue : item.value = .ok value) : Stays (readBinding readItem) cs (keys, item) rest := by
  obtain ⟨item, hbound, heq⟩ := map_fst_eq_some_iff.mp h
  obtain ⟨rfl, rfl⟩ := Prod.mk.inj heq
  have hkeys : readKeys cs = ((readKeys cs).1, (readKeys cs).2) := rfl
  have hequals := (readKeys_append hline hkeys hnamed breaks_feed).1
  have hstays := readBound_stays hnil hsteady (hline.of_suffix hequals) hbound hvalue
  refine ⟨hstays.suffix.trans hequals, fun more hmore => ?_⟩
  rw [readBinding, (readKeys_append hline hkeys hnamed hmore).2, hstays.append more hmore,
    Option.map_some]

/-- What `readInline` reads `ReadsAll` describes, and `fuel` bounds the number of bindings. -/
theorem readsAll_of_readInline {fuel : Nat} {cs rest : List Char}
    {bindings : List (Keys × Item)} (h : readInline readItem fuel cs = some (bindings, rest)) :
    ReadsAll '}' (readBinding readItem) cs bindings rest ∧ bindings.length ≤ fuel := by
  induction fuel generalizing cs bindings with
  | zero => contradiction
  | succ fuel ih =>
      unfold readInline at h
      simp only [bind, Option.bind_eq_some_iff] at h
      obtain ⟨front, hfront, h⟩ := h
      split at h
      · obtain ⟨rfl, rfl⟩ := Prod.mk.inj (Option.some.inj h)
        exact ⟨.close hfront, Nat.zero_le _⟩
      · next hc =>
        simp only [Option.bind_eq_some_iff] at h
        obtain ⟨⟨item, behind⟩, hbound, after, hafter, h⟩ := h
        have hbinding : readBinding readItem front = some (((readKeys front).1, item), behind) := by
          rw [readBinding, hbound, Option.map_some]
        obtain ⟨c, front, rfl⟩ : ∃ c rest, front = c :: rest := by
          refine List.exists_cons_of_ne_nil ?_
          rintro rfl
          contradiction
        have hne : c ≠ '}' := by
          rintro rfl
          exact hc front rfl
        split at h
        · simp only [Option.bind_eq_some_iff] at h
          obtain ⟨⟨bindings', rest'⟩, hbindings, h⟩ := h
          obtain ⟨rfl, rfl⟩ := Prod.mk.inj (Option.some.inj h)
          obtain ⟨hall, hlength⟩ := ih hbindings
          exact ⟨.cons hfront hne hbinding hafter hall, Nat.succ_le_succ hlength⟩
        · obtain ⟨rfl, rfl⟩ := Prod.mk.inj (Option.some.inj h)
          exact ⟨.last hfront hne hbinding hafter, Nat.succ_le_succ (Nat.zero_le _)⟩
        · contradiction

/-- What `ReadsAll` describes `readInline` reads, with any `fuel` above the number of bindings. -/
theorem readInline_of_readsAll {fuel : Nat} {cs rest : List Char}
    {bindings : List (Keys × Item)} (h : ReadsAll '}' (readBinding readItem) cs bindings rest)
    (hfuel : bindings.length < fuel) :
    readInline readItem fuel cs = some (bindings, rest) := by
  induction h generalizing fuel with
  | close hfront =>
      obtain ⟨fuel, rfl⟩ : ∃ n, fuel = n + 1 := ⟨fuel - 1, by omega⟩
      simp [readInline, hfront]
  | last hfront hc hread hclose =>
      obtain ⟨fuel, rfl⟩ : ∃ n, fuel = n + 1 := ⟨fuel - 1, by omega⟩
      obtain ⟨item, hbound, rfl⟩ := map_fst_eq_some_iff.mp hread
      simp [readInline, hfront, hc, hbound, hclose]
  | cons hfront hc hread hcomma _ ih =>
      obtain ⟨fuel, rfl⟩ : ∃ n, fuel = n + 1 := ⟨fuel - 1, by omega⟩
      obtain ⟨item, hbound, rfl⟩ := map_fst_eq_some_iff.mp hread
      have hbindings := ih (Nat.lt_of_succ_lt_succ hfuel)
      simp [readInline, hfront, hc, hbound, hcomma, hbindings]

/-- Bindings make entries only if each of them has keys that are names and an item with a
value. -/
theorem exists_value_of_entriesOf {entries entries' : Entries} {bindings : List (Keys × Item)}
    (h : entriesOf entries bindings = .ok entries') :
    ∀ b ∈ bindings, Named b.1 ∧ ∃ value, b.2.value = .ok value := by
  induction bindings generalizing entries with
  | nil => exact fun b hb => absurd hb List.not_mem_nil
  | cons b bindings ih =>
      obtain ⟨keys, item⟩ := b
      rw [entriesOf] at h
      obtain ⟨path, hpath, h⟩ := bind_eq_ok_iff.mp h
      obtain ⟨value, hvalue, h⟩ := bind_eq_ok_iff.mp h
      obtain ⟨between, -, h⟩ := bind_eq_ok_iff.mp h
      exact List.forall_mem_cons.mpr ⟨⟨named_of_path hpath, value, hvalue⟩, ih h⟩

end

/-! ## items -/

theorem readItem_nil (depth : Nat) : readItem depth [] = none := by
  cases depth <;> rfl

/-- `readItem` at a bracket: the items that `readItems` reads one level down. -/
theorem readItem_array (depth : Nat) (cs : List Char) :
    readItem (depth + 1) ('[' :: cs) =
      (readItems (readItem depth) (cs.length + 1) cs).map fun (items, rest) =>
        (.array items, rest) := by
  rw [readItem]
  cases readItems (readItem depth) ('[' :: cs).length cs <;> rfl

/-- `readItem` at a brace: the bindings that `readInline` reads one level down. -/
theorem readItem_inline (depth : Nat) (cs : List Char) :
    readItem (depth + 1) ('\x7b' :: cs) =
      (readInline (readItem depth) (cs.length + 1) cs).map fun (bindings, rest) =>
        (.inline bindings, rest) := by
  rw [readItem]
  cases readInline (readItem depth) ('\x7b' :: cs).length cs <;> rfl

/-- At depth 0, `readItem` opens no bracket and no brace. -/
theorem readItem_open {c : Char} (hopen : c = '[' ∨ c = '\x7b') (cs : List Char) :
    readItem 0 (c :: cs) = none := by
  rcases hopen with rfl | rfl <;> rfl

/-- An item that no bracket or brace opens. -/
theorem readItem_plain {c : Char} (hopen : ¬ (c = '[' ∨ c = '\x7b')) (depth : Nat)
    (cs : List Char) :
    readItem depth (c :: cs) =
      if isQuote c then some (.text (takeString (c :: cs)).1, (takeString (c :: cs)).2)
      else readBare (c :: cs) := by
  obtain ⟨hbracket, hbrace⟩ := not_or.mp hopen
  cases depth <;> rw [readItem] <;> simp_all

/-- `readItem` `Stays` at a string, and at what has no marks. -/
theorem readItem_plain_stays {depth : Nat} {c : Char} {cs rest : List Char} {item : Item}
    {value : Value} (hopen : ¬ (c = '[' ∨ c = '\x7b')) (hline : OneLine (c :: cs))
    (h : readItem depth (c :: cs) = some (item, rest)) (hvalue : item.value = .ok value) :
    Stays (readItem depth) (c :: cs) item rest := by
  rw [readItem_plain hopen] at h
  by_cases hc : isQuote c
  · rw [if_pos hc] at h
    obtain ⟨rfl, rfl⟩ := Prod.mk.inj (Option.some.inj h)
    cases htake : takeString (c :: cs) with
    | mk s? rest =>
        cases s? with
        | none => simp [htake, Item.value, orMalformed] at hvalue
        | some s =>
            refine ⟨(takeString_append hline htake breaks_feed).1, fun more hmore => ?_⟩
            have happend := (takeString_append hline htake hmore).2
            rw [List.cons_append] at happend ⊢
            rw [readItem_plain hopen, if_pos hc, happend]
  · rw [if_neg hc] at h
    have hstays := readBare_stays h
    refine ⟨hstays.suffix, fun more hmore => ?_⟩
    have happend := hstays.append more hmore
    rw [List.cons_append] at happend ⊢
    rw [readItem_plain hopen, if_neg hc, happend]

/-- `readItem` `Stays` at a bracket, if it is `Steady` one level down. -/
theorem readItem_array_stays {depth : Nat} {cs rest : List Char} {item : Item} {value : Value}
    (hsteady : Steady (readItem depth)) (hline : OneLine ('[' :: cs))
    (h : readItem (depth + 1) ('[' :: cs) = some (item, rest)) (hvalue : item.value = .ok value) :
    Stays (readItem (depth + 1)) ('[' :: cs) item rest := by
  rw [readItem_array] at h
  obtain ⟨items, hitems, rfl⟩ := map_fst_eq_some_iff.mp h
  obtain ⟨hall, hlength⟩ := readsAll_of_readItems (readItem_nil depth) hitems
  rw [Item.value] at hvalue
  obtain ⟨values, hvalues, -⟩ := bind_eq_ok_iff.mp hvalue
  have happend {more : List Char} (hmore : Breaks more) := by
    refine hall.append hline.tail (fun item hitem cs rest hcs hread => ?_) hmore
    obtain ⟨value, hvalue⟩ := exists_value_of_valuesOf hvalues item hitem
    exact hsteady _ _ _ _ hcs hread hvalue
  refine ⟨(happend breaks_feed).1.trans (List.suffix_cons _ _), fun more hmore => ?_⟩
  -- The fuel is the length of the text, which what follows only makes longer.
  have hfuel : items.length < (cs ++ more).length + 1 := by
    have hpos := hmore.length_pos
    rw [List.length_append]
    omega
  rw [List.cons_append, readItem_array, readItems_of_readsAll (happend hmore).2 hfuel,
    Option.map_some]

/-- `readItem` `Stays` at a brace, if it is `Steady` one level down. -/
theorem readItem_inline_stays {depth : Nat} {cs rest : List Char} {item : Item} {value : Value}
    (hsteady : Steady (readItem depth)) (hline : OneLine ('\x7b' :: cs))
    (h : readItem (depth + 1) ('\x7b' :: cs) = some (item, rest))
    (hvalue : item.value = .ok value) :
    Stays (readItem (depth + 1)) ('\x7b' :: cs) item rest := by
  rw [readItem_inline] at h
  obtain ⟨bindings, hbindings, rfl⟩ := map_fst_eq_some_iff.mp h
  obtain ⟨hall, hlength⟩ := readsAll_of_readInline hbindings
  rw [Item.value] at hvalue
  obtain ⟨entries, hentries, -⟩ := bind_eq_ok_iff.mp hvalue
  have happend {more : List Char} (hmore : Breaks more) := by
    refine hall.append hline.tail (fun b hb cs rest hcs hread => ?_) hmore
    obtain ⟨hnamed, value, hvalue⟩ := exists_value_of_entriesOf hentries b hb
    exact readBinding_stays (readItem_nil depth) hsteady hcs hread hnamed hvalue
  refine ⟨(happend breaks_feed).1.trans (List.suffix_cons _ _), fun more hmore => ?_⟩
  have hfuel : bindings.length < (cs ++ more).length + 1 := by
    have hpos := hmore.length_pos
    rw [List.length_append]
    omega
  rw [List.cons_append, readItem_inline, readInline_of_readsAll (happend hmore).2 hfuel,
    Option.map_some]

/-- `readItem` is `Steady`, by induction on how many brackets and braces may be open. -/
theorem steady_readItem (depth : Nat) : Steady (readItem depth) := by
  induction depth with
  | zero =>
      intro cs item rest value hline h hvalue
      cases cs with
      | nil => contradiction
      | cons c cs =>
          by_cases hopen : c = '[' ∨ c = '\x7b'
          · rw [readItem_open hopen] at h
            contradiction
          · exact readItem_plain_stays hopen hline h hvalue
  | succ depth ih =>
      intro cs item rest value hline h hvalue
      cases cs with
      | nil => contradiction
      | cons c cs =>
          by_cases hopen : c = '[' ∨ c = '\x7b'
          · rcases hopen with rfl | rfl
            · exact readItem_array_stays ih hline h hvalue
            · exact readItem_inline_stays ih hline h hvalue
          · exact readItem_plain_stays hopen hline h hvalue

end PoolEnum.Toml
