import PoolEnum.Proofs.Table.Scalar

/-!
# PoolEnum.Proofs.Table.Skip

Passing over values: `skipFrom` ends behind a value, whatever its depth, and
passes over nothing else.

The brackets that are open are a list in `skipFrom` and a nesting in `Written`.
`Closed` ties the two: the texts that end all that is open.
-/

namespace PoolEnum.Table

variable {cs rest w : List Char} {b : Bracket} {opened : List Bracket}

/-! ## brackets -/

/-- An opening bracket is no blank. -/
theorem Bracket.isGap_opening (b : Bracket) : isGap b.opening = false := by
  cases b <;> decide

theorem Bracket.isGap_close (b : Bracket) : isGap b.close = false := by
  cases b <;> decide

/-- A closing bracket `EndsNumber`. -/
theorem Bracket.endsNumber_close (b : Bracket) : EndsNumber (b.close :: cs) := by
  cases b <;> exact endsNumber_cons (by decide) (by decide) (by decide) (by decide)

theorem endsNumber_comma : EndsNumber (',' :: cs) :=
  endsNumber_cons (by decide) (by decide) (by decide) (by decide)

/-- A `Gap` in front of what `EndsNumber` does so too. -/
theorem Gap.endsNumber_append (h : Gap w) (hcs : EndsNumber cs) : EndsNumber (w ++ cs) := by
  cases w with
  | nil => exact hcs
  | cons c w =>
      have hc := h c List.mem_cons_self
      rcases hc with rfl | rfl | rfl | rfl
      all_goals exact endsNumber_cons (by decide) (by decide) (by decide) (by decide)

/-! ## the parts of a value -/

/-- `readColon` reads a colon, with any `Gap` in front. -/
theorem readColon_eq_ok_iff :
    readColon cs = .ok rest ↔ ∃ a, Gap a ∧ cs = a ++ ':' :: rest := by
  rw [exists_gap_cons_iff (by decide), readColon]
  cases skipGap cs with
  | nil => simp
  | cons c u => by_cases hc : c = ':' <;> simp [hc]

/-- To pass over a number is to read it with `readNumber` and forget what it is. -/
theorem map_readNumber_eq_ok_iff {negative : Bool} {atEnd : Cause} :
    (readNumber atEnd negative cs).map Prod.snd = .ok rest ↔
      ∃ l, readNumber atEnd negative cs = .ok (l, rest) := by
  cases readNumber atEnd negative cs with
  | error stop => simp [Except.map]
  | ok p => simp [Except.map, Prod.ext_iff]

/-- What `skipScalar` passes over is a `ScalarText`. -/
theorem scalarText_of_skipScalar (h : skipScalar cs = .ok rest) :
    ∃ w, ScalarText w ∧ cs = w ++ rest := by
  unfold skipScalar at h
  split at h
  · contradiction
  · rw [readWord_eq_ok_iff] at h
    exact ⟨['n', 'u', 'l', 'l'], .null, by rw [h]; rfl⟩
  · rw [readWord_eq_ok_iff] at h
    exact ⟨['t', 'r', 'u', 'e'], .yes, by rw [h]; rfl⟩
  · rw [readWord_eq_ok_iff] at h
    exact ⟨['f', 'a', 'l', 's', 'e'], .no, by rw [h]; rfl⟩
  · obtain ⟨l, hread⟩ := map_readNumber_eq_ok_iff.mp h
    obtain ⟨w, hw, hcs⟩ := unsigned_of_readNumber hread
    exact ⟨'-' :: w, .negative hw, by rw [hcs]; rfl⟩
  · obtain ⟨w, hw, hcs⟩ := skipText_eq_ok_iff.mp h
    exact ⟨'"' :: w ++ ['"'], .text hw, by simp [hcs]⟩
  · split at h
    · obtain ⟨l, hread⟩ := map_readNumber_eq_ok_iff.mp h
      obtain ⟨w, hw, hcs⟩ := unsigned_of_readNumber hread
      exact ⟨w, .unsigned hw, hcs⟩
    · contradiction

/-- `skipScalar` at a digit passes over a number. -/
theorem skipScalar_of_isDigit {c : Char} (hc : c.isDigit = true) (cs : List Char) :
    skipScalar (c :: cs) = (readNumber .invalidNumber false (c :: cs)).map Prod.snd := by
  unfold skipScalar
  split
  all_goals simp_all

/-- What is `Unsigned` begins with a digit. -/
theorem Unsigned.exists_cons (h : Unsigned w) : ∃ c cs, w = c :: cs ∧ c.isDigit = true := by
  obtain ⟨whole, f, x, hwhole, _, _, hw⟩ := h
  obtain ⟨c, cs, hcs, hc⟩ := hwhole.exists_cons
  rw [hcs] at hw
  exact ⟨c, cs ++ f ++ x, by rw [hw]; simp, hc⟩

/-- `skipScalar` passes over every `ScalarText`, if what follows `EndsNumber`. -/
theorem skipScalar_of_scalarText (hw : ScalarText w) (hrest : EndsNumber rest) :
    skipScalar (w ++ rest) = .ok rest := by
  cases hw with
  | null => exact readWord_eq_ok_iff.mpr rfl
  | yes => exact readWord_eq_ok_iff.mpr rfl
  | no => exact readWord_eq_ok_iff.mpr rfl
  | unsigned hw =>
      have hnumber : ∃ l, readNumber .invalidNumber false _ = .ok (l, rest) :=
        readNumber_of_unsigned hw hrest
      obtain ⟨l, hread⟩ := hnumber
      obtain ⟨c, cs, rfl, hc⟩ := hw.exists_cons
      rw [List.cons_append] at hread ⊢
      rw [skipScalar_of_isDigit hc, map_readNumber_eq_ok_iff]
      exact ⟨l, hread⟩
  | negative hw =>
      have hnumber : ∃ l, readNumber .invalidNumber true _ = .ok (l, rest) :=
        readNumber_of_unsigned hw hrest
      obtain ⟨l, hread⟩ := hnumber
      exact map_readNumber_eq_ok_iff.mpr ⟨l, hread⟩
  | @text w hw =>
      have hskip : skipText (w ++ '"' :: rest) = .ok rest := skipText_eq_ok_iff.mpr ⟨w, hw, rfl⟩
      rw [List.cons_append, List.cons_append, List.append_assoc, List.singleton_append]
      exact hskip

/-! ## what begins a value -/

/-- A `ScalarText` begins with neither a blank nor a bracket. -/
theorem ScalarText.exists_cons (h : ScalarText w) :
    ∃ c cs, w = c :: cs ∧ isGap c = false ∧ c ≠ '[' ∧ c ≠ '{' ∧ c ≠ ']' := by
  cases h with
  | null => exact ⟨'n', _, rfl, by decide⟩
  | yes => exact ⟨'t', _, rfl, by decide⟩
  | no => exact ⟨'f', _, rfl, by decide⟩
  | unsigned hw =>
      obtain ⟨c, cs, rfl, hc⟩ := hw.exists_cons
      refine ⟨c, cs, rfl, isGap_of_isDigit hc, ?_⟩
      refine ⟨?_, ?_, ?_⟩ <;> exact fun h => by simp [h] at hc
  | negative => exact ⟨'-', _, rfl, by decide⟩
  | text => exact ⟨'"', _, rfl, by decide⟩

/-- An item begins, after any blanks, with something other than the closing
bracket. -/
theorem Written.exists_head (h : Written (.item b) w) :
    ∃ a c v, Gap a ∧ isGap c = false ∧ c ≠ b.close ∧ w = a ++ c :: v := by
  cases h with
  | @element a v ha hv =>
      cases hv with
      | scalar hv =>
          obtain ⟨c, cs, rfl, hgap, _, _, hc⟩ := hv.exists_cons
          exact ⟨a, c, cs, ha, hgap, hc, rfl⟩
      | @bracketed b' v _ =>
          have hc : b'.opening ≠ ']' := by cases b' <;> decide
          exact ⟨a, b'.opening, v, ha, b'.isGap_opening, hc, rfl⟩
  | @member a key m c v ha _ _ _ _ =>
      exact ⟨a, '"', _, ha, by decide, by decide, by simp; rfl⟩

/-- Blanks in front of an item belong to it. -/
theorem Written.gap_append {a : List Char} (ha : Gap a) (h : Written (.item b) w) :
    Written (.item b) (a ++ w) := by
  cases h with
  | element ha' hv =>
      rw [← List.append_assoc]
      exact .element (ha.append ha') hv
  | member ha' hkey hm hc hv =>
      have hitem := Written.member (ha.append ha') hkey hm hc hv
      simp only [List.append_assoc, List.cons_append] at hitem ⊢
      exact hitem

/-- What follows an item ends a number. -/
theorem Written.endsNumber (h : Written (.after b) w) (rest : List Char) :
    EndsNumber (w ++ rest) := by
  cases h with
  | close hz =>
      rw [List.append_assoc]
      exact hz.endsNumber_append b.endsNumber_close
  | more hz _ _ =>
      rw [List.append_assoc, List.append_assoc]
      exact hz.endsNumber_append endsNumber_comma

/-! ## one step -/

/-- `skipFrom` where a value is expected. -/
theorem skipFrom_value_eq :
    skipFrom .value opened cs =
      match skipGap cs with
      | [] => .error (.next .endOfValue [])
      | c :: rest =>
        if c = '[' then skipFrom (.first .list) opened rest
        else if c = '{' then skipFrom (.first .object) opened rest
        else
          match skipScalar (c :: rest) with
          | .error stop => .error stop
          | .ok rest => skipFrom .next opened rest := by
  rw [skipFrom]
  split
  · next h => simp only [h]
  · next h =>
    simp only [h]
    congr 2
    split
    all_goals next h => simp only [h]

/-- `skipFrom` where a key is expected: the key, its colon, and then a value. -/
theorem skipFrom_member_eq :
    skipFrom .member opened cs =
      match skipGap cs with
      | [] => .error (.next .endOfObject [])
      | c :: rest =>
        if c = '"' then
          match skipText rest with
          | .error stop => .error stop
          | .ok rest =>
            match readColon rest with
            | .error stop => .error stop
            | .ok rest => skipFrom .value opened rest
        else .error (.next .keyNotString (c :: rest)) := by
  rw [skipFrom]
  split
  · next h => simp only [h]
  · next h =>
    simp only [h]
    congr 1
    split
    · next h => simp only [h]
    · next h =>
      simp only [h]
      split
      all_goals next h => simp only [h]

/-- `skipFrom` behind an opening bracket: the closing one, or an item. -/
theorem skipFrom_first_eq :
    skipFrom (.first b) opened cs =
      match skipGap cs with
      | [] => .error (.next b.endCause [])
      | c :: rest =>
        if c = b.close then skipFrom .next opened rest
        else skipFrom b.item (b :: opened) (c :: rest) := by
  rw [skipFrom]
  split
  all_goals next h => simp only [h]

/-- `skipFrom` behind a value: a comma and an item, or the closing bracket. -/
theorem skipFrom_next_eq :
    skipFrom .next (b :: opened) cs =
      match skipGap cs with
      | [] => .error (.next b.endCause [])
      | c :: rest =>
        if c = ',' then skipFrom b.item (b :: opened) rest
        else if c = b.close then skipFrom .next opened rest
        else .error (.next b.commaCause (c :: rest)) := by
  rw [skipFrom]
  split
  all_goals next h => simp only [h]

/-- `skipFrom` makes nothing of blanks where an item is expected. -/
theorem skipFrom_item_congr {u v : List Char} (h : skipGap u = skipGap v) :
    skipFrom b.item opened u = skipFrom b.item opened v := by
  cases b with
  | list => rw [Bracket.item, skipFrom_value_eq, skipFrom_value_eq, h]
  | object => rw [Bracket.item, skipFrom_member_eq, skipFrom_member_eq, h]

/-- `skipFrom` makes nothing of a `Gap` where a value is expected. -/
theorem skipFrom_value_gap {a : List Char} (ha : Gap a) (cs : List Char) :
    skipFrom .value opened (a ++ cs) = skipFrom .value opened cs :=
  skipFrom_item_congr (b := .list) (skipGap_append ha cs)

/-- `skipFrom` behind a value, at a comma. -/
theorem skipFrom_next_comma (h : skipGap cs = ',' :: rest) :
    skipFrom .next (b :: opened) cs = skipFrom b.item (b :: opened) rest := by
  rw [skipFrom_next_eq, h]
  rfl

theorem skipFrom_next_close (h : skipGap cs = b.close :: rest) :
    skipFrom .next (b :: opened) cs = skipFrom .next opened rest := by
  have hcomma : b.close ≠ ',' := by cases b <;> decide
  rw [skipFrom_next_eq, h]
  simp only [hcomma, if_false, if_true]

/-- `skipFrom` behind an opening bracket, at the closing one. -/
theorem skipFrom_first_close (h : skipGap cs = b.close :: rest) :
    skipFrom (.first b) opened cs = skipFrom .next opened rest := by
  rw [skipFrom_first_eq, h]
  simp only [if_true]

theorem skipFrom_first_item {c : Char} (h : skipGap cs = c :: rest) (hc : c ≠ b.close) :
    skipFrom (.first b) opened cs = skipFrom b.item (b :: opened) cs := by
  obtain ⟨hgap, -⟩ := skipGap_eq_cons_iff.mp h
  rw [skipFrom_first_eq, h]
  simp only [hc, if_false]
  exact skipFrom_item_congr (by rw [h, skipGap_cons hgap])

/-- The first item is passed over like any other. -/
theorem Written.skipFrom_first {u : List Char} (h : Written (.item b) u) (rest : List Char) :
    skipFrom (.first b) opened (u ++ rest) = skipFrom b.item (b :: opened) (u ++ rest) := by
  obtain ⟨a, c, v, ha, hgap, hc, rfl⟩ := h.exists_head
  have hskip : skipGap (a ++ c :: v ++ rest) = c :: (v ++ rest) := by
    rw [List.append_assoc, List.cons_append, skipGap_append_cons ha hgap]
  exact skipFrom_first_item hskip hc

/-- `skipFrom` passes over a key with `skipText` and `readColon`. -/
theorem skipFrom_member {u v : List Char} (h : skipGap cs = '"' :: u) (hkey : skipText u = .ok v)
    (hcolon : readColon v = .ok rest) :
    skipFrom .member opened cs = skipFrom .value opened rest := by
  rw [skipFrom_member_eq, h]
  simp only [if_true, hkey, hcolon]

/-- A key and its colon are passed over, and a value has to follow. -/
theorem skipFrom_of_key {a key m : List Char} (ha : Gap a) (hkey : LooseText key) (hm : Gap m) :
    skipFrom .member opened (a ++ '"' :: (key ++ '"' :: (m ++ ':' :: rest))) =
      skipFrom .value opened rest := by
  have hquote : skipGap (a ++ '"' :: (key ++ '"' :: (m ++ ':' :: rest))) =
      '"' :: (key ++ '"' :: (m ++ ':' :: rest)) := skipGap_append_cons ha (by decide) _
  have hskip : skipText (key ++ '"' :: (m ++ ':' :: rest)) = .ok (m ++ ':' :: rest) :=
    skipText_eq_ok_iff.mpr ⟨key, hkey, rfl⟩
  have hcolon : readColon (m ++ ':' :: rest) = .ok rest := readColon_eq_ok_iff.mpr ⟨m, hm, rfl⟩
  exact skipFrom_member hquote hskip hcolon

/-- `skipFrom` at an opening bracket: one more bracket is open. -/
theorem skipFrom_opening (b : Bracket) (opened : List Bracket) (cs : List Char) :
    skipFrom .value opened (b.opening :: cs) = skipFrom (.first b) opened cs := by
  rw [skipFrom_value_eq, skipGap_cons b.isGap_opening]
  cases b <;> rfl

/-- `skipFrom` at a value that holds no others: the bracket around it goes on. -/
theorem skipFrom_value_scalar {c : Char} {v : List Char} (h : skipGap cs = c :: v) (hl : c ≠ '[')
    (ho : c ≠ '{') (hscalar : skipScalar (c :: v) = .ok rest) :
    skipFrom .value opened cs = skipFrom .next opened rest := by
  rw [skipFrom_value_eq, h]
  simp only [hl, ho, if_false, hscalar]

/-! ## only values are passed over -/

/-- The texts that end all open brackets, the innermost first. -/
inductive Closed : List Bracket → List Char → Prop
  | nil : Closed [] []
  | cons {b : Bracket} {opened : List Bracket} {v w : List Char} :
      Written (.after b) v → Closed opened w → Closed (b :: opened) (v ++ w)

/-- The texts that `expecting` allows, with what ends all open brackets. -/
def Passable : Expecting → List Bracket → List Char → Prop
  | .value, opened, w => ∃ u v, Written (.item .list) u ∧ Closed opened v ∧ w = u ++ v
  | .member, opened, w => ∃ u v, Written (.item .object) u ∧ Closed opened v ∧ w = u ++ v
  | .first b, opened, w => ∃ u v, Written (.inside b) u ∧ Closed opened v ∧ w = u ++ v
  | .next, opened, w => Closed opened w

/-- An item is `Passable` up to the end of all open brackets. -/
theorem passable_item :
    Passable b.item opened w ↔ ∃ u v, Written (.item b) u ∧ Closed opened v ∧ w = u ++ v := by
  cases b <;> rfl

/-- An item, and what ends the bracket around it, from behind the item before. -/
theorem Closed.of_passable_item {z : List Char} (hz : Gap z)
    (h : Passable b.item (b :: opened) w) : Closed (b :: opened) (z ++ ',' :: w) := by
  obtain ⟨u, v, hu, hv, rfl⟩ := passable_item.mp h
  cases hv with
  | @cons b opened t v ht hv =>
      have hmore := Closed.cons (.more hz hu ht) hv
      simp only [List.append_assoc, List.cons_append] at hmore ⊢
      exact hmore

/-- The first item, and what ends the bracket around it. -/
theorem passable_first_of_item {a : List Char} (ha : Gap a)
    (h : Passable b.item (b :: opened) w) : Passable (.first b) opened (a ++ w) := by
  obtain ⟨u, v, hu, hv, rfl⟩ := passable_item.mp h
  cases hv with
  | @cons b opened t v ht hv =>
      refine ⟨a ++ u ++ t, v, .items (hu.gap_append ha) ht, hv, ?_⟩
      simp only [List.append_assoc]

/-- An opening bracket, and what is expected behind it. -/
theorem passable_of_opening {a : List Char} (ha : Gap a) (h : Passable (.first b) opened w) :
    Passable .value opened (a ++ b.opening :: w) := by
  obtain ⟨u, v, hu, hv, rfl⟩ := h
  refine ⟨_, v, .element ha (.bracketed hu), hv, ?_⟩
  simp only [List.append_assoc, List.cons_append]

/-- A key and its colon, and what is expected behind them. -/
theorem passable_of_key {a key m : List Char} (ha : Gap a) (hkey : LooseText key) (hm : Gap m)
    (h : Passable .value opened w) :
    Passable .member opened (a ++ '"' :: (key ++ '"' :: (m ++ ':' :: w))) := by
  obtain ⟨u, v, hu, hv, rfl⟩ := h
  cases hu with
  | element hc hu =>
      refine ⟨_, v, .member ha hkey hm hc hu, hv, ?_⟩
      simp only [List.append_assoc, List.cons_append]

/-- All that `skipFrom` passes over is `Passable`: what was expected, and the end of what is
open. -/
theorem passable_of_skipFrom {expecting : Expecting} (h : skipFrom expecting opened cs = .ok rest) :
    ∃ w, Passable expecting opened w ∧ cs = w ++ rest := by
  fun_induction skipFrom expecting opened cs with
  | case1 cs =>
      simp only [Except.ok.injEq] at h
      exact ⟨[], .nil, h⟩
  | case2 => contradiction
  | case3 cs b opened u _ hskip _ ih =>
      obtain ⟨_, z, hz, hcs⟩ := skipGap_eq_cons_iff.mp hskip
      obtain ⟨w, hw, hu⟩ := ih h
      refine ⟨z ++ ',' :: w, .of_passable_item hz hw, ?_⟩
      rw [hcs, hu, List.append_assoc, List.cons_append]
  | case4 cs b opened u _ hskip _ _ ih =>
      obtain ⟨_, z, hz, hcs⟩ := skipGap_eq_cons_iff.mp hskip
      obtain ⟨w, hw, hu⟩ := ih h
      refine ⟨z ++ [b.close] ++ w, .cons (.close hz) hw, ?_⟩
      rw [hcs, hu, List.append_assoc, List.append_assoc, List.singleton_append]
  | case5 => contradiction
  | case6 => contradiction
  | case7 cs b opened u _ hskip _ ih =>
      obtain ⟨_, z, hz, hcs⟩ := skipGap_eq_cons_iff.mp hskip
      obtain ⟨w, hw, hu⟩ := ih h
      refine ⟨z ++ [b.close] ++ w, ⟨z ++ [b.close], w, .empty hz, hw, rfl⟩, ?_⟩
      rw [hcs, hu, List.append_assoc, List.append_assoc, List.singleton_append]
  | case8 cs b opened c u hskip _ _ _ ih =>
      obtain ⟨_, a, ha, hcs⟩ := skipGap_eq_cons_iff.mp hskip
      obtain ⟨w, hw, hu⟩ := ih h
      refine ⟨a ++ w, passable_first_of_item ha hw, ?_⟩
      rw [hcs, hu, List.append_assoc]
  | case9 => contradiction
  | case10 => contradiction
  | case11 => contradiction
  | case12 cs opened u v hkey _ t hcolon _ hskip _ ih =>
      obtain ⟨_, a, ha, hcs⟩ := skipGap_eq_cons_iff.mp hskip
      obtain ⟨key, hkey, hu⟩ := skipText_eq_ok_iff.mp hkey
      obtain ⟨m, hm, hv⟩ := readColon_eq_ok_iff.mp hcolon
      obtain ⟨w, hw, ht⟩ := ih h
      refine ⟨_, passable_of_key ha hkey hm hw, ?_⟩
      rw [hcs, hu, hv, ht]
      simp only [List.append_assoc, List.cons_append]
  | case13 => contradiction
  | case14 => contradiction
  | case15 cs opened u hskip _ ih =>
      obtain ⟨_, a, ha, hcs⟩ := skipGap_eq_cons_iff.mp hskip
      obtain ⟨w, hw, hu⟩ := ih h
      refine ⟨_, passable_of_opening ha hw, ?_⟩
      rw [hcs, hu, List.append_assoc]
      rfl
  | case16 cs opened u hskip _ _ ih =>
      obtain ⟨_, a, ha, hcs⟩ := skipGap_eq_cons_iff.mp hskip
      obtain ⟨w, hw, hu⟩ := ih h
      refine ⟨_, passable_of_opening ha hw, ?_⟩
      rw [hcs, hu, List.append_assoc]
      rfl
  | case17 => contradiction
  | case18 cs opened c u hskip _ _ _ v hscalar _ ih =>
      obtain ⟨_, a, ha, hcs⟩ := skipGap_eq_cons_iff.mp hskip
      obtain ⟨x, hx, hu⟩ := scalarText_of_skipScalar hscalar
      obtain ⟨w, hw, hv⟩ := ih h
      refine ⟨_, ⟨_, w, .element ha (.scalar hx), hw, rfl⟩, ?_⟩
      rw [hcs, hu, hv]
      simp only [List.append_assoc]

/-! ## all values are passed over -/

/-- What is expected where a phrase stands. -/
def Phrase.expecting : Phrase → Expecting
  | value => .value
  | item b => b.item
  | inside b => .first b
  | after _ => .next

/-- The brackets that are open where a phrase stands, among those that are open
behind it. -/
def Phrase.within : Phrase → List Bracket → List Bracket
  | after b, opened => b :: opened
  | _, opened => opened

/-- `skipFrom` passes over a phrase that is `Written`, if what follows `EndsNumber`. -/
theorem skipFrom_of_written {p : Phrase} (h : Written p w) (opened : List Bracket)
    (rest : List Char) (hrest : EndsNumber rest) :
    skipFrom p.expecting (p.within opened) (w ++ rest) = skipFrom .next opened rest := by
  -- an item is followed by the end of its bracket or by a comma, so no number in it goes on
  induction h generalizing opened rest with
  | @scalar w hw =>
      obtain ⟨c, cs, hcs, hgap, hl, ho, _⟩ := hw.exists_cons
      have hscalar := skipScalar_of_scalarText hw hrest
      rw [hcs, List.cons_append] at hscalar ⊢
      exact skipFrom_value_scalar (skipGap_cons hgap _) hl ho hscalar
  | @bracketed b w _ ih =>
      rw [← ih opened rest hrest]
      exact skipFrom_opening b opened _
  | @element a v ha _ ih =>
      rw [← ih opened rest hrest, List.append_assoc]
      exact skipFrom_value_gap ha _
  | @member a key m c v ha hkey hm hc _ ih =>
      rw [← ih opened rest hrest]
      simp only [List.append_assoc, List.cons_append]
      exact (skipFrom_of_key ha hkey hm).trans (skipFrom_value_gap hc _)
  | @empty b z hz =>
      apply skipFrom_first_close
      rw [List.append_assoc, List.singleton_append, skipGap_append_cons hz b.isGap_close]
  | @items b u t hu ht ihu iht =>
      have hitem := ihu (b :: opened) (t ++ rest) (ht.endsNumber rest)
      rw [List.append_assoc]
      exact (hu.skipFrom_first _).trans (hitem.trans (iht opened rest hrest))
  | @close b z hz =>
      apply skipFrom_next_close
      rw [List.append_assoc, List.singleton_append, skipGap_append_cons hz b.isGap_close]
  | @more b z u t hz hu ht ihu iht =>
      have hitem := ihu (b :: opened) (t ++ rest) (ht.endsNumber rest)
      have hskip : skipGap (z ++ ',' :: u ++ t ++ rest) = ',' :: (u ++ (t ++ rest)) := by
        simp only [List.append_assoc, List.cons_append]
        rw [skipGap_append_cons hz (by decide)]
      exact (skipFrom_next_comma hskip).trans (hitem.trans (iht opened rest hrest))

/-! ## whole values -/

/-- What `skipValue` passes over is `Written` as a value, with the blanks in front of it. -/
theorem written_of_skipValue (h : skipValue cs = .ok rest) :
    ∃ a w, Gap a ∧ Written .value w ∧ cs = a ++ w ++ rest := by
  obtain ⟨w, ⟨u, v, hu, hv, hw⟩, hcs⟩ := passable_of_skipFrom h
  cases hu with
  | @element a u ha hu =>
      cases hv with
      | nil => exact ⟨a, u, ha, hu, by rw [hcs, hw, List.append_nil]⟩

/-- `skipValue` passes over a value that is `Written`, if what follows `EndsNumber`. -/
theorem skipValue_of_written {a : List Char} (ha : Gap a) (hw : Written .value w)
    (hrest : EndsNumber rest) : skipValue (a ++ w ++ rest) = .ok rest := by
  have hskip := skipFrom_of_written hw [] rest hrest
  rw [skipValue, List.append_assoc, skipFrom_value_gap ha]
  exact hskip.trans (by rw [skipFrom])

end PoolEnum.Table
