import Mathlib.Data.List.Forall2
import PoolEnum.Proofs.Toml.Item

/-!
# PoolEnum.Proofs.Toml.Document

Lines in front of others, and documents made of lines that each bind a key of the root table.

A `BindingLine` is a document by itself, and binds one key there. Lines that are joined keep
their meaning, because what is read on a line does not depend on the others
(`readLine_append`), and a key that is not bound yet is bound behind the others
(`insertDotted_append`). So the document of such lines has their entries, in their order.
-/

namespace PoolEnum.Toml

variable {more : List Char}

/-! ## one line in front of others -/

/-- `readLastItem` at a character that starts an item is `readItem`. -/
theorem readLastItem_cons {cs front : List Char} {c : Char} (hspace : skipSpace cs = c :: front)
    (hc : ¬ (c = '#' ∨ c = '\n' ∨ c = '\r')) :
    readLastItem cs = readItem maxDepth (c :: front) := by
  unfold readLastItem
  rw [hspace]
  dsimp only
  rw [if_neg hc]

/-- An item that has a value is there for `readItem` to read. -/
theorem exists_of_readLastItem {cs rest : List Char} {item : Item} {value : Value}
    (h : readLastItem cs = some (item, rest)) (hvalue : item.value = .ok value) :
    ∃ c front, skipSpace cs = c :: front ∧ ¬ (c = '#' ∨ c = '\n' ∨ c = '\r') ∧
      readItem maxDepth (c :: front) = some (item, rest) := by
  have hthere : item ≠ .missing := by
    rintro rfl
    rw [value_missing] at hvalue
    contradiction
  unfold readLastItem at h
  split at h
  · obtain ⟨rfl, -⟩ := Prod.mk.inj (Option.some.inj h)
    exact absurd rfl hthere
  · next c front hspace =>
    split at h
    · obtain ⟨rfl, -⟩ := Prod.mk.inj (Option.some.inj h)
      exact absurd rfl hthere
    · next hc => exact ⟨c, front, hspace, hc, h⟩

/-- `readLastItem` `Stays` for items with values. -/
theorem readLastItem_stays {cs rest : List Char} {item : Item} {value : Value} (hline : OneLine cs)
    (h : readLastItem cs = some (item, rest)) (hvalue : item.value = .ok value) :
    Stays readLastItem cs item rest := by
  obtain ⟨c, front, hspace, hc, hitem⟩ := exists_of_readLastItem h hvalue
  have hfront : c :: front <:+ cs := hspace ▸ skipSpace_suffix cs
  have hstays := steady_readItem maxDepth _ _ _ _ (hline.of_suffix hfront) hitem hvalue
  refine ⟨hstays.suffix.trans hfront, fun more hmore => ?_⟩
  have hspace' : skipSpace (cs ++ more) = c :: (front ++ more) := by
    rw [skipSpace_append hmore, hspace, List.cons_append]
  rw [readLastItem_cons hspace' hc]
  exact hstays.append more hmore

/-- `readLine` of a line that no bracket opens: keys, an equals sign, an item and an end. -/
theorem readLine_eq_some_iff {cs after : List Char} {line : Line} (hopen : cs.head? ≠ some '[') :
    readLine cs = some (line, after) ↔
      ∃ keys equals behind item rest, readKeys cs = (keys, equals) ∧
        readMark '=' equals = some behind ∧ readLastItem behind = some (item, rest) ∧
        readLineEnd rest = some after ∧ line = .binding keys item := by
  unfold readLine
  split
  · exact absurd rfl hopen
  · exact absurd rfl hopen
  · cases hkeys : readKeys cs with
    | mk keys equals =>
        simp only [bind, Option.bind_eq_some_iff, pure, Option.some.injEq, Prod.mk.injEq]
        constructor
        · rintro ⟨behind, hmark, ⟨item, rest⟩, hitem, after', hend, rfl, rfl⟩
          exact ⟨keys, equals, behind, item, rest, ⟨rfl, rfl⟩, hmark, hitem, hend, rfl⟩
        · rintro ⟨keys', equals', behind, item, rest, ⟨rfl, rfl⟩, hmark, hitem, hend, rfl⟩
          exact ⟨behind, hmark, (item, rest), hitem, after, hend, rfl, rfl⟩

/-- `readLineEnd` leaves nothing of text that is `OneLine`. -/
theorem readLineEnd_of_oneLine {cs rest : List Char} (hline : OneLine cs)
    (h : readLineEnd cs = some rest) : rest = [] := by
  have hbehind : OneLine (behindComment (skipSpace cs)) :=
    hline.of_suffix ((behindComment_suffix _).trans (skipSpace_suffix cs))
  rw [readLineEnd_eq, readNewline_of_oneLine hbehind] at h
  split at h
  · exact (Option.some.inj h).symm
  · contradiction

/-- Where `readNewline` succeeds, the text `Breaks` the line before it. -/
theorem breaks_of_readNewline {after : List Char} (h : readNewline more = some after) :
    Breaks more := by
  unfold readNewline at h
  split at h
  · exact ⟨_, _, rfl, .inl rfl⟩
  · exact ⟨_, _, rfl, .inr rfl⟩
  · contradiction

/-- `readLine` reads keys that are `Named` and an item that has a value in front of others as it
does alone. -/
theorem readLine_append {cs rest : List Char} {keys : Keys} {item : Item} {value : Value}
    (hline : OneLine cs) (hopen : cs.head? ≠ some '[')
    (h : readLine cs = some (.binding keys item, rest)) (hnamed : Named keys)
    (hvalue : item.value = .ok value) :
    rest = [] ∧ ∀ more after, readNewline more = some after →
      readLine (cs ++ more) = some (.binding keys item, after) := by
  obtain ⟨keys, equals, behind, item, end', hkeys, hmark, hitem, hend, heq⟩ :=
    (readLine_eq_some_iff hopen).mp h
  obtain ⟨rfl, rfl⟩ := Line.binding.inj heq
  have hequals := (readKeys_append hline hkeys hnamed breaks_feed).1
  obtain rfl := readMark_eq_some_iff.mp hmark
  have hbehind := (List.suffix_cons _ _).trans hequals
  have hstays := readLastItem_stays (hline.of_suffix hbehind) hitem hvalue
  have hend' := hline.of_suffix (hstays.suffix.trans hbehind)
  refine ⟨readLineEnd_of_oneLine hend' hend, fun more after hmore => ?_⟩
  have hbreaks := breaks_of_readNewline hmore
  have hopen' : (cs ++ more).head? ≠ some '[' := by
    cases cs with
    | nil => exact absurd (hequals.length_le) (by simp)
    | cons c cs => exact hopen
  refine (readLine_eq_some_iff hopen').mpr ⟨keys, _, behind ++ more, item, end' ++ more,
    (readKeys_append hline hkeys hnamed hbreaks).2, readMark_eq_some_iff.mpr rfl,
    hstays.append more hbreaks, ?_, rfl⟩
  rw [readLineEnd_append hend' hend hbreaks, hmore]

/-! ## lines that bind a key -/

/-- A line that starts with a key and, as a document of its own, binds `key` to `value`. -/
structure BindingLine where
  line : List Char
  key : String
  value : Value
  oneLine : OneLine line
  start : ∃ c rest, skipSpace line = c :: rest ∧ isKeyChar c
  meaning : parse (String.ofList line) = .ok [(key, value)]

/-- The entry that a line makes. -/
def BindingLine.entry (b : BindingLine) : String × Value :=
  (b.key, b.value)

/-- Lines with line ends between them. There may be one behind the last. -/
inductive JoinedLines : List BindingLine → List Char → Prop
  | none : JoinedLines [] []
  | last (b : BindingLine) : JoinedLines [b] b.line
  | cons {b : BindingLine} {lines : List BindingLine} {ending text : List Char}
    (hending : ending = ['\n'] ∨ ending = ['\r', '\n']) (h : JoinedLines lines text) :
    JoinedLines (b :: lines) (b.line ++ ending ++ text)

/-- What a line says that binds a key of the root table, if that is not bound yet. -/
inductive Says : Line → String × Value → Prop
  | binding {keys : Keys} {item : Item} {path : KeyPath} {value : Value} {b : String × Value}
    (hpath : KeyPath.of keys = .ok path) (hvalue : item.value = .ok value)
    (hinsert : insertDotted path.key value path.path [] = some [b]) :
    Says (.binding keys item) b

/-! ## lines alone -/

/-- A character that is `isKeyChar` is none that is not. -/
theorem ne_of_isKeyChar {c d : Char} (h : isKeyChar c) (hd : isKeyChar d = false) : c ≠ d := by
  rintro rfl
  rw [h] at hd
  contradiction

/-- A character that is `isKeyChar` starts no table, no comment and no line end, and is no
`byteOrderMark`. -/
theorem keyChar_ne {c : Char} (h : isKeyChar c) :
    c ≠ '[' ∧ c ≠ byteOrderMark ∧ ¬ (c = '#' ∨ c = '\n' ∨ c = '\r') := by
  refine ⟨ne_of_isKeyChar h rfl, ne_of_isKeyChar h rfl, ?_⟩
  rintro (hc | hc | hc)
  · exact ne_of_isKeyChar h rfl hc
  · exact ne_of_isKeyChar h rfl hc
  · exact ne_of_isKeyChar h rfl hc

/-- `readLines` at a character that starts a line: that line by `readLine`, then the others. -/
theorem readLines_eq_some_iff {fuel : Nat} {c : Char} {cs front : List Char} {lines : List Line}
    (hspace : skipSpace cs = c :: front) (hc : ¬ (c = '#' ∨ c = '\n' ∨ c = '\r')) :
    readLines (fuel + 1) cs = some lines ↔
      ∃ line rest lines', readLine (c :: front) = some (line, rest) ∧
        readLines fuel rest = some lines' ∧ lines = line :: lines' := by
  rw [readLines, hspace]
  dsimp only
  rw [if_neg hc]
  simp only [bind, Option.bind_eq_some_iff, pure, Option.some.injEq]
  constructor
  · rintro ⟨⟨line, rest⟩, hline, lines', hlines, rfl⟩
    exact ⟨line, rest, lines', hline, hlines, rfl⟩
  · rintro ⟨line, rest, lines', hline, hlines, rfl⟩
    exact ⟨(line, rest), hline, lines', hlines, rfl⟩

theorem eq_nil_of_readLines_nil {fuel : Nat} {lines : List Line}
    (h : readLines fuel [] = some lines) : lines = [] := by
  cases fuel with
  | zero => contradiction
  | succ fuel => exact (Option.some.inj h).symm

/-- `linesOf` without a `byteOrderMark` is `readLines`. -/
theorem linesOf_ofList {cs : List Char} (h : cs.head? ≠ some byteOrderMark) :
    linesOf (String.ofList cs) = readLines (cs.length + 1) cs := by
  unfold linesOf
  rw [String.toList_ofList]
  dsimp only
  rw [if_neg h]

namespace BindingLine

theorem ne_nil (b : BindingLine) : b.line ≠ [] := by
  obtain ⟨c, rest, hspace, -⟩ := b.start
  intro hnil
  rw [hnil] at hspace
  contradiction

/-- A `BindingLine` does not start with a `byteOrderMark`. -/
theorem head?_ne (b : BindingLine) : b.line.head? ≠ some byteOrderMark := by
  obtain ⟨c, rest, hspace, hc⟩ := b.start
  intro hhead
  obtain ⟨line, hline⟩ := List.head?_eq_some_iff.mp hhead
  have hself : skipSpace (byteOrderMark :: line) = byteOrderMark :: line := rfl
  rw [hline, hself] at hspace
  exact (keyChar_ne hc).2.1 (List.cons.inj hspace).1.symm

/-- What is read of a line alone, and in front of others. -/
theorem reads (b : BindingLine) :
    ∃ c front l, skipSpace b.line = c :: front ∧ isKeyChar c ∧ Says l b.entry ∧
      readLine (c :: front) = some (l, []) ∧
      ∀ more after, readNewline more = some after →
        readLine (c :: front ++ more) = some (l, after) := by
  obtain ⟨c, front, hspace, hc⟩ := b.start
  have hfront : OneLine (c :: front) := b.oneLine.of_suffix (hspace ▸ skipSpace_suffix b.line)
  obtain ⟨hbracket, -, hplain⟩ := keyChar_ne hc
  have hopen : (c :: front).head? ≠ some '[' := fun hhead => hbracket (Option.some.inj hhead)
  obtain ⟨lines, hlines, hmeaning⟩ := bind_eq_ok_iff.mp b.meaning
  rw [orMalformed_eq_ok_iff, linesOf_ofList b.head?_ne, readLines_eq_some_iff hspace hplain]
    at hlines
  obtain ⟨l, rest, lines', hread, hlines', rfl⟩ := hlines
  obtain ⟨keys, equals, behind, item, end', -, -, -, -, rfl⟩ := (readLine_eq_some_iff hopen).mp hread
  -- The document has a meaning, so the keys of its first line are names and its item has a
  -- value. Then nothing of the line is left, and there are no lines behind it.
  obtain ⟨p, hfold, hfinish⟩ := bind_eq_ok_iff.mp hmeaning
  rw [List.foldlM_cons] at hfold
  obtain ⟨p', hnext, hfold⟩ := bind_eq_ok_iff.mp hfold
  obtain ⟨path, hpath, hnext⟩ := bind_eq_ok_iff.mp hnext
  obtain ⟨v, hvalue, hnext⟩ := bind_eq_ok_iff.mp hnext
  obtain ⟨rfl, happend⟩ := readLine_append hfront hopen hread (named_of_path hpath) hvalue
  obtain rfl := eq_nil_of_readLines_nil hlines'
  obtain rfl := Except.ok.inj hfold
  have hbind := orMalformed_eq_ok_iff.mp hnext
  simp only [Progress.bind, within, bind, Option.bind_eq_some_iff, pure, Option.some.injEq] at hbind
  obtain ⟨root, hinsert, rfl⟩ := hbind
  obtain rfl := Except.ok.inj hfinish
  exact ⟨c, front, _, hspace, hc, .binding hpath hvalue hinsert, hread, happend⟩

end BindingLine

/-! ## lines that are joined -/

section

variable {lines : List BindingLine} {text : List Char}

theorem readNewline_ending {ending : List Char} (h : ending = ['\n'] ∨ ending = ['\r', '\n'])
    (text : List Char) : readNewline (ending ++ text) = some text := by
  rcases h with rfl | rfl <;> rfl

/-- `readLines` of `JoinedLines`: line by line, each `Says` its entry. -/
theorem readLines_of_joined (h : JoinedLines lines text) {fuel : Nat} (hfuel : lines.length < fuel) :
    ∃ ls, readLines fuel text = some ls ∧ List.Forall₂ Says ls (lines.map BindingLine.entry) := by
  induction h generalizing fuel with
  | none =>
      obtain ⟨fuel, rfl⟩ : ∃ n, fuel = n + 1 := ⟨fuel - 1, by omega⟩
      exact ⟨[], rfl, .nil⟩
  | last b =>
      obtain ⟨fuel, rfl⟩ : ∃ n, fuel = n + 2 := by
        rw [List.length_singleton] at hfuel
        exact ⟨fuel - 2, by omega⟩
      obtain ⟨c, front, l, hspace, hc, hsays, hread, -⟩ := b.reads
      refine ⟨[l], ?_, .cons hsays .nil⟩
      exact (readLines_eq_some_iff hspace (keyChar_ne hc).2.2).mpr ⟨l, [], [], hread, rfl, rfl⟩
  | @cons b lines ending text hending _ ih =>
      obtain ⟨fuel, rfl⟩ : ∃ n, fuel = n + 1 := ⟨fuel - 1, by omega⟩
      obtain ⟨c, front, l, hspace, hc, hsays, -, happend⟩ := b.reads
      obtain ⟨ls, hls, hall⟩ := ih (Nat.lt_of_succ_lt_succ hfuel)
      have hnewline := readNewline_ending hending text
      have hspace' : skipSpace (b.line ++ ending ++ text) = c :: (front ++ (ending ++ text)) := by
        rw [List.append_assoc, skipSpace_append (breaks_of_readNewline hnewline), hspace,
          List.cons_append]
      refine ⟨l :: ls, ?_, .cons hsays hall⟩
      exact (readLines_eq_some_iff hspace' (keyChar_ne hc).2.2).mpr
        ⟨l, text, ls, happend _ _ hnewline, hls, rfl⟩

/-- `JoinedLines` are at most as many as their characters. -/
theorem JoinedLines.length_le (h : JoinedLines lines text) : lines.length ≤ text.length := by
  induction h with
  | none => exact Nat.le_refl _
  | last b => exact List.length_pos_iff.mpr b.ne_nil
  | @cons b lines ending text hending _ ih =>
      have hpos := List.length_pos_iff.mpr b.ne_nil
      simp only [List.length_cons, List.length_append]
      omega

/-- `JoinedLines` do not start with a `byteOrderMark`. -/
theorem JoinedLines.head?_ne (h : JoinedLines lines text) : text.head? ≠ some byteOrderMark := by
  cases h with
  | none => simp
  | last b => exact b.head?_ne
  | @cons b lines ending text hending h =>
      rw [List.append_assoc, List.head?_append_of_ne_nil _ b.ne_nil]
      exact b.head?_ne

end

/-! ## keys that are not bound yet -/

/-- `alter` at a key that is not there yet puts it behind the others. -/
theorem alter_of_not_mem {key : String} {change : Option Value → Option Value} {entries : Entries}
    (h : key ∉ entries.map Prod.fst) :
    alter key change entries = (change none).map fun v => entries ++ [(key, v)] := by
  induction entries with
  | nil =>
      unfold alter
      cases change none <;> rfl
  | cons e entries ih =>
      obtain ⟨k, v⟩ := e
      rw [List.map_cons, List.mem_cons, not_or] at h
      have hk : ¬ k = key := fun heq => h.1 heq.symm
      unfold alter
      rw [if_neg hk, ih h.2]
      cases change none <;> rfl

/-- If `alter` makes one entry of none, it puts that behind entries with other keys. -/
theorem alter_append {key : String} {change : Option Value → Option Value} {entries : Entries}
    {b : String × Value} (h : alter key change [] = some [b])
    (hnew : b.1 ∉ entries.map Prod.fst) : alter key change entries = some (entries ++ [b]) := by
  rw [alter_of_not_mem List.not_mem_nil, Option.map_eq_some_iff] at h
  obtain ⟨v, hchange, hb⟩ := h
  obtain rfl : (key, v) = b := (List.cons.inj hb).1
  rw [alter_of_not_mem hnew, hchange, Option.map_some]

/-- If `insertDotted` makes one entry of none, it puts that behind entries with other keys. -/
theorem insertDotted_append {key : String} {value : Value} {path : List String} {entries : Entries}
    {b : String × Value} (h : insertDotted key value path [] = some [b])
    (hnew : b.1 ∉ entries.map Prod.fst) :
    insertDotted key value path entries = some (entries ++ [b]) := by
  cases path with
  | nil => exact alter_append h hnew
  | cons k path => exact alter_append h hnew

/-- An entry among `Distinct` ones has a key that is not in front of it. -/
theorem Distinct.not_mem {entries bindings : Entries} {b : String × Value}
    (h : Distinct (entries ++ b :: bindings)) : b.1 ∉ entries.map Prod.fst := by
  unfold Distinct at h
  rw [List.map_append, List.map_cons] at h
  intro hmem
  exact (List.nodup_append.mp h).2.2 _ hmem _ List.mem_cons_self rfl

/-- A line that `Says` a binding puts it behind the others by `Progress.next`. -/
theorem next_of_says {l : Line} {entries : Entries} {b : String × Value} (h : Says l b)
    (hnew : b.1 ∉ entries.map Prod.fst) :
    Progress.next { part := .table [], root := entries } l =
      .ok { part := .table [], root := entries ++ [b] } := by
  cases h with
  | binding hpath hvalue hinsert =>
      refine bind_eq_ok_iff.mpr ⟨_, hpath, bind_eq_ok_iff.mpr ⟨_, hvalue, ?_⟩⟩
      rw [orMalformed_eq_ok_iff]
      simp only [Progress.bind, within, insertDotted_append hinsert hnew]
      rfl

/-- Lines that each `Says` a binding make entries of them, behind those that are there, if all keys
are `Distinct`. -/
theorem foldlM_of_says {lines : List Line} {bindings entries : Entries}
    (h : List.Forall₂ Says lines bindings) (hdistinct : Distinct (entries ++ bindings)) :
    lines.foldlM Progress.next { part := .table [], root := entries } =
      .ok { part := .table [], root := entries ++ bindings } := by
  induction h generalizing entries with
  | nil =>
      rw [List.append_nil]
      rfl
  | @cons l b lines bindings hsays _ ih =>
      rw [List.foldlM_cons]
      refine bind_eq_ok_iff.mpr ⟨_, next_of_says hsays hdistinct.not_mem, ?_⟩
      rw [List.append_cons] at hdistinct
      rw [ih hdistinct, ← List.append_cons]

/-- `parse` of `JoinedLines` with `Distinct` keys: their entries, in their order. -/
theorem parse_of_joined {lines : List BindingLine} {text : List Char} (h : JoinedLines lines text)
    (hdistinct : Distinct (lines.map BindingLine.entry)) :
    parse (String.ofList text) = .ok (lines.map BindingLine.entry) := by
  obtain ⟨ls, hread, hsays⟩ := readLines_of_joined h (Nat.lt_succ_of_le h.length_le)
  have hfold : ls.foldlM Progress.next { part := .table [], root := [] } =
      .ok { part := .table [], root := lines.map BindingLine.entry } :=
    foldlM_of_says hsays hdistinct
  refine bind_eq_ok_iff.mpr ⟨ls, ?_, bind_eq_ok_iff.mpr ⟨_, hfold, rfl⟩⟩
  rw [orMalformed_eq_ok_iff, linesOf_ofList h.head?_ne]
  exact hread

/-! ## lines of a bare key and an item -/

/-- A character that is `isKeyChar` is `inKey`. -/
theorem inKey_of_isKeyChar {c : Char} (h : isKeyChar c) : inKey c = true := by
  have hnone : "=,[]\x7b\x7d#\r\n".toList.all (fun d => !isKeyChar d) = true := rfl
  have hbare : "=,[]\x7b\x7d#\r\n".toList.contains c = false := by
    rw [← Bool.not_eq_true, List.contains_iff_mem]
    intro hmem
    have hkey := List.all_eq_true.mp hnone c hmem
    rw [h] at hkey
    contradiction
  have hspace : c ≠ ' ' := ne_of_isKeyChar h rfl
  have htab : c ≠ '\t' := ne_of_isKeyChar h rfl
  have hdot : c ≠ '.' := ne_of_isKeyChar h rfl
  rw [inKey, isBare, hbare, isSpace]
  simp [hspace, htab, hdot]

/-- A character that is `isKeyChar` is no quote. -/
theorem isQuote_of_isKeyChar {c : Char} (h : isKeyChar c) : ¬ isQuote c := by
  rw [isQuote_iff]
  rintro (hquote | hquote)
  · exact ne_of_isKeyChar h rfl hquote
  · exact ne_of_isKeyChar h rfl hquote

/-- `readKeys` at a bare key: one name, and the blanks behind it are passed over. -/
theorem readKeys_bare {name blanks : List Char} (hne : name ≠ [])
    (hname : ∀ c ∈ name, isKeyChar c) (hblanks : ∀ c ∈ blanks, isSpace c) (rest : List Char) :
    readKeys (name ++ blanks ++ '=' :: rest) = ([.name (String.ofList name)], '=' :: rest) := by
  obtain ⟨c, cs, rfl⟩ := List.exists_cons_of_ne_nil hne
  have hc := hname c List.mem_cons_self
  have hinside : ∀ c' ∈ c :: cs, inKey c' = true := fun c' hc' => inKey_of_isKeyChar (hname c' hc')
  have hstop : (blanks ++ '=' :: rest).takeWhile inKey = [] ∧
      (blanks ++ '=' :: rest).dropWhile inKey = blanks ++ '=' :: rest := by
    cases blanks with
    | nil => exact ⟨rfl, rfl⟩
    | cons d blanks =>
        have hd : inKey d = false := by
          simp [inKey, hblanks d List.mem_cons_self]
        simp [hd]
  have hspace : skipSpace (blanks ++ '=' :: rest) = '=' :: rest := by
    rw [skipSpace, List.dropWhile_append_of_pos hblanks]
    rfl
  have hkey : readKey (c :: cs ++ blanks ++ '=' :: rest) =
      (.name (String.ofList (c :: cs)), blanks ++ '=' :: rest) := by
    rw [List.append_assoc, List.cons_append, readKey_bare (isQuote_of_isKeyChar hc),
      ← List.cons_append, List.takeWhile_append_of_pos hinside,
      List.dropWhile_append_of_pos hinside, hstop.1, hstop.2, List.append_nil,
      if_neg (List.cons_ne_nil c cs), if_pos (List.all_eq_true.mpr hname)]
  have hlast : ∀ after, skipSpace (blanks ++ '=' :: rest) ≠ '.' :: after := by
    intro after
    rw [hspace]
    simp
  rw [readKeys, readKeyPath_last hkey hlast, hspace]

/-- What stands behind an equals sign up to the end of its line, and its value. -/
inductive Denotes (body : List Char) (value : Value) : Prop
  | item {item : Item} {rest : List Char} (hline : OneLine body)
    (hitem : readLastItem body = some (item, rest)) (hend : readLineEnd rest = some [])
    (hvalue : item.value = .ok value) : Denotes body value

section

variable {name blanks body : List Char} {value : Value}

/-- A bare key, blanks, an equals sign and what `Denotes` a value are `OneLine`. -/
theorem oneLine_of_denotes (hname : ∀ c ∈ name, isKeyChar c) (hblanks : ∀ c ∈ blanks, isSpace c)
    (h : Denotes body value) : OneLine (name ++ blanks ++ '=' :: body) := by
  obtain ⟨⟨hfeed, hreturn⟩, -, -, -⟩ := h
  have hnot {d : Char} (hbody : d ∉ body) (hkey : isKeyChar d = false) (hspace : isSpace d = false)
      (hequals : d ≠ '=') : d ∉ name ++ blanks ++ '=' :: body := by
    simp only [List.mem_append, List.mem_cons, not_or]
    refine ⟨⟨fun hmem => ?_, fun hmem => ?_⟩, hequals, hbody⟩
    · exact ne_of_isKeyChar (hname d hmem) hkey rfl
    · rw [hblanks d hmem] at hspace
      contradiction
  exact ⟨hnot hfeed rfl rfl (by decide), hnot hreturn rfl rfl (by decide)⟩

/-- A text that starts with a bare key starts with a character that is `isKeyChar`. -/
theorem exists_key_start (hne : name ≠ []) (hname : ∀ c ∈ name, isKeyChar c) (rest : List Char) :
    ∃ c front, name ++ rest = c :: front ∧ skipSpace (name ++ rest) = c :: front ∧
      isKeyChar c := by
  obtain ⟨c, cs, rfl⟩ := List.exists_cons_of_ne_nil hne
  have hc := hname c List.mem_cons_self
  refine ⟨c, cs ++ rest, rfl, ?_, hc⟩
  have hspace : isSpace c = false := by
    have hblank : c ≠ ' ' := ne_of_isKeyChar hc rfl
    have htab : c ≠ '\t' := ne_of_isKeyChar hc rfl
    simp [isSpace, hblank, htab]
  simp [skipSpace, hspace]

/-- `parse` of a bare key and what `Denotes` a value: one entry. -/
theorem parse_of_denotes (hne : name ≠ []) (hname : ∀ c ∈ name, isKeyChar c)
    (hblanks : ∀ c ∈ blanks, isSpace c) (h : Denotes body value) :
    parse (String.ofList (name ++ blanks ++ '=' :: body)) = .ok [(String.ofList name, value)] := by
  obtain @⟨item, rest, -, hitem, hend, hvalue⟩ := h
  have hkeys := readKeys_bare hne hname hblanks body
  rw [List.append_assoc] at hkeys ⊢
  obtain ⟨c, front, hline, hspace, hc⟩ := exists_key_start hne hname (blanks ++ '=' :: body)
  obtain ⟨hbracket, hmark, hplain⟩ := keyChar_ne hc
  rw [hline] at hkeys hspace ⊢
  have hopen : (c :: front).head? ≠ some '[' := fun hhead => hbracket (Option.some.inj hhead)
  have hstart : (c :: front).head? ≠ some byteOrderMark :=
    fun hhead => hmark (Option.some.inj hhead)
  have hread := (readLine_eq_some_iff hopen).mpr
    ⟨_, _, _, _, _, hkeys, readMark_eq_some_iff.mpr rfl, hitem, hend, rfl⟩
  have hlines : linesOf (String.ofList (c :: front)) =
      some [.binding [.name (String.ofList name)] item] :=
    (linesOf_ofList hstart).trans
      ((readLines_eq_some_iff hspace hplain).mpr ⟨_, [], [], hread, rfl, rfl⟩)
  have hsays : Says (.binding [.name (String.ofList name)] item) (String.ofList name, value) :=
    .binding rfl hvalue rfl
  have hfold : [Line.binding [.name (String.ofList name)] item].foldlM Progress.next
      { part := .table [], root := [] } =
        .ok { part := .table [], root := [(String.ofList name, value)] } :=
    foldlM_of_says (.cons hsays .nil) (List.nodup_singleton _)
  exact bind_eq_ok_iff.mpr
    ⟨_, orMalformed_eq_ok_iff.mpr hlines, bind_eq_ok_iff.mpr ⟨_, hfold, rfl⟩⟩

/-- A bare key, an equals sign with blanks around it, and what has a value: each such line
binds its key to that. -/
def BindingLine.ofItem (name blanks body : List Char) (hne : name ≠ [])
    (hname : name.all isKeyChar) (hblanks : blanks.all isSpace) (h : Denotes body value) :
    BindingLine where
  line := name ++ blanks ++ '=' :: body
  key := String.ofList name
  value := value
  oneLine := oneLine_of_denotes (List.all_eq_true.mp hname) (List.all_eq_true.mp hblanks) h
  start := by
    rw [List.append_assoc]
    obtain ⟨c, front, -, hspace, hc⟩ :=
      exists_key_start hne (List.all_eq_true.mp hname) (blanks ++ '=' :: body)
    exact ⟨c, front, hspace, hc⟩
  meaning := parse_of_denotes hne (List.all_eq_true.mp hname) (List.all_eq_true.mp hblanks) h

end

end PoolEnum.Toml
