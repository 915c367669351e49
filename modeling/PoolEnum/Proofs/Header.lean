import PoolEnum.Proofs.Build
import PoolEnum.Proofs.Generation
import PoolEnum.Proofs.Table.Number

/-!
# PoolEnum.Proofs.Header

Reading a header back.

`Header.decode?` goes through a text line by line: the first line names the enum,
the last one is the closing brace, and each line between them is a record. On
headers whose names are identifiers (`Header.Named`) it undoes `Header.render`
and accepts nothing else (`decode?_eq_some_iff`), since neither identifiers nor
numbers have a separator in them. `HeaderText` says the same language without a
reader.
-/

namespace PoolEnum

open Table (Whole IdText)

/-- All names in a header are identifiers, as they are in every header that a build makes. -/
structure Header.Named (h : Header) : Prop where
  name : isIdentifier h.name = true
  records : ∀ r ∈ h.records, isIdentifier r.name = true

/-! ## reading -/

/-- Whether digits are written as a number is printed: there is one at least, and
only zero begins with a zero. -/
def isPrinted : List Char → Bool
  | [] => false
  | d :: ds => d.isDigit && ds.all Char.isDigit && (d != '0' || ds.isEmpty)

/-- The id that digits write, if 64 bits hold it. -/
def readId? (digits : List Char) : Option UInt64 :=
  let n := Nat.ofDigitChars 10 digits 0
  if isPrinted digits && n < UInt64.size then some (UInt64.ofNat n) else none

/-- The name that characters are, if they are an identifier. -/
def readName? (cs : List Char) : Option String :=
  if isIdentifier (String.ofList cs) then some (String.ofList cs) else none

/-- The name in the first line of a header. -/
def readTitle? (line : List Char) : Option String :=
  match line.splitOn ' ' with
  | [['e', 'n', 'u', 'm'], name, ['{']] => readName? name
  | _ => none

/-- The record in a line. -/
def readRecord? (line : List Char) : Option Record :=
  match line.splitOn ' ' with
  | ['\t' :: name, ['='], number] =>
    match number.splitOn ',' with
    | [digits, []] =>
      match readName? name, readId? digits with
      | some name, some id => some { name, id }
      | _, _ => none
    | _ => none
  | _ => none

/-- The records in the lines up to the closing brace, which is the last one. -/
def readBody? : List (List Char) → Option (List Record)
  | [] => none
  | line :: lines =>
    if line = ['}'] then
      if lines.isEmpty then some [] else none
    else
      match readRecord? line, readBody? lines with
      | some r, some rs => some (r :: rs)
      | _, _ => none

/-- The header that a text is. -/
def Header.decode? (text : String) : Option Header :=
  match text.toList.splitOn '\n' with
  | [] => none
  | title :: lines =>
    match readTitle? title, readBody? lines with
    | some name, some records => some { name, records }
    | _, _ => none

/-! ## texts -/

/-- A line of one record: a tab, an identifier, an id and the marks between. -/
def RecordText (w : String) : Prop :=
  ∃ name digits id, isIdentifier name = true ∧ IdText digits.toList id ∧
    w = "\t" ++ name ++ " = " ++ digits ++ ",\n"

/-- A header: its first line, lines of records, and a brace as the last character. -/
def HeaderText (w : String) : Prop :=
  ∃ name lines, isIdentifier name = true ∧ (∀ line ∈ lines, RecordText line) ∧
    w = "enum " ++ name ++ " \x7b\n" ++ String.join lines ++ "\x7d"

/-- A `RecordText` is the line of a record whose name is an identifier. -/
theorem recordText_iff {w : String} :
    RecordText w ↔ ∃ r : Record, isIdentifier r.name = true ∧ w = r.line := by
  constructor
  · intro h
    obtain ⟨name, digits, id, hname, hid, rfl⟩ := h
    refine ⟨{ name, id }, hname, ?_⟩
    have hdigits : digits = toString id.toNat := by
      rw [← String.toList_inj, Table.idText_iff.mp hid, Nat.toString_eq_ofList_toDigits,
        String.toList_ofList]
    rw [Record.line, hdigits]
  · intro h
    obtain ⟨⟨name, id⟩, hname, rfl⟩ := h
    refine ⟨name, toString id.toNat, id, hname, ?_, rfl⟩
    rw [Table.idText_iff, Nat.toString_eq_ofList_toDigits, String.toList_ofList]

/-- A `HeaderText` is what a header that is `Named` is rendered as. -/
theorem headerText_iff {w : String} :
    HeaderText w ↔ ∃ h : Header, h.Named ∧ h.render = w := by
  constructor
  · intro h
    obtain ⟨name, lines, hname, hlines, rfl⟩ := h
    have hrecords : ∃ records : List Record, lines = records.map Record.line ∧
        ∀ r ∈ records, isIdentifier r.name = true := by
      induction lines with
      | nil => exact ⟨[], rfl, by simp⟩
      | cons line lines ih =>
          obtain ⟨hline, hrest⟩ := List.forall_mem_cons.mp hlines
          obtain ⟨r, hr, rfl⟩ := recordText_iff.mp hline
          obtain ⟨records, rfl, hnames⟩ := ih hrest
          exact ⟨r :: records, rfl, List.forall_mem_cons.mpr ⟨hr, hnames⟩⟩
    obtain ⟨records, rfl, hnames⟩ := hrecords
    exact ⟨{ name, records }, ⟨hname, hnames⟩, rfl⟩
  · intro h
    obtain ⟨⟨name, records⟩, ⟨hname, hnames⟩, rfl⟩ := h
    refine ⟨name, records.map Record.line, hname, ?_, rfl⟩
    intro line hline
    obtain ⟨r, hr, rfl⟩ := List.mem_map.mp hline
    exact recordText_iff.mpr ⟨r, hnames r hr, rfl⟩

/-! ## separators -/

/-- `splitOn` cuts a text into the parts that it was put together from. -/
theorem splitOn_eq_iff {separator : Char} {cs : List Char} {parts : List (List Char)}
    (hne : parts ≠ []) (h : ∀ part ∈ parts, separator ∉ part) :
    cs.splitOn separator = parts ↔ cs = [separator].intercalate parts := by
  constructor
  · intro h
    rw [← h, List.intercalate_splitOn]
  · intro hcs
    rw [hcs, List.splitOn_intercalate separator h hne]

/-- Printed numbers have no characters but digits. -/
theorem not_mem_toDigits {c : Char} (n : Nat) (hc : c.isDigit = false) :
    c ∉ Nat.toDigits 10 n := by
  intro hmem
  rw [Nat.isDigit_of_mem_toDigits (by decide) (by decide) hmem] at hc
  contradiction

/-! ## names and numbers -/

/-- `isPrinted` tells the numbers that are `Whole`. -/
theorem isPrinted_iff {ds : List Char} : isPrinted ds = true ↔ Whole ds := by
  cases ds with
  | nil => simp [isPrinted, Whole, Table.Digits]
  | cons d ds =>
      simp only [isPrinted, Whole, Table.Digits, Bool.and_eq_true, Bool.or_eq_true,
        List.all_eq_true, bne_iff_ne, List.isEmpty_iff, List.cons.injEq, List.head?_cons]
      by_cases hd : d = '0'
      · have hdigit : d.isDigit = true := by rw [hd]; rfl
        grind
      · grind

/-- `readId?` reads ids exactly as they are printed. -/
theorem readId?_eq_some_iff {digits : List Char} {id : UInt64} :
    readId? digits = some id ↔ digits = Nat.toDigits 10 id.toNat := by
  rw [← Table.idText_iff, IdText, ← isPrinted_iff, readId?]
  split
  · next h =>
    rw [Bool.and_eq_true, decide_eq_true_eq] at h
    rw [Option.some.injEq, ← UInt64.toNat_inj, UInt64.toNat_ofNat_of_lt' h.2]
    simp [h.1]
  · next h =>
    rw [Bool.and_eq_true, decide_eq_true_eq] at h
    refine iff_of_false (by simp) ?_
    intro hid
    exact h ⟨hid.1, hid.2 ▸ UInt64.toNat_lt_size id⟩

/-- `readName?` reads identifiers as they are. -/
theorem readName?_eq_some_iff {cs : List Char} {name : String} :
    readName? cs = some name ↔ isIdentifier name = true ∧ cs = name.toList := by
  unfold readName?
  split
  · next h =>
    constructor
    · intro heq
      rw [← Option.some.inj heq]
      exact ⟨h, String.toList_ofList.symm⟩
    · intro heq
      rw [heq.2, String.ofList_toList]
  · next h =>
    refine iff_of_false (by simp) ?_
    intro heq
    rw [heq.2, String.ofList_toList] at h
    exact h heq.1

/-! ## lines -/

/-- The characters of a header's first line. -/
def titleLine (name : String) : List Char :=
  [' '].intercalate [['e', 'n', 'u', 'm'], name.toList, ['{']]

/-- The characters of a record's line. -/
def recordLine (r : Record) : List Char :=
  [' '].intercalate ['\t' :: r.name.toList, ['='], Nat.toDigits 10 r.id.toNat ++ [',']]

/-- `readTitle?` reads exactly what `titleLine` writes of identifiers. -/
theorem readTitle?_eq_some_iff {line : List Char} {name : String} :
    readTitle? line = some name ↔ isIdentifier name = true ∧ line = titleLine name := by
  constructor
  · intro h
    unfold readTitle? at h
    split at h
    · next cs hsplit =>
      obtain ⟨hname, rfl⟩ := readName?_eq_some_iff.mp h
      refine ⟨hname, ?_⟩
      rw [titleLine, ← hsplit, List.intercalate_splitOn]
    · contradiction
  · intro h
    obtain ⟨hname, rfl⟩ := h
    have hsplit : (titleLine name).splitOn ' ' = [['e', 'n', 'u', 'm'], name.toList, ['{']] := by
      apply (splitOn_eq_iff (by simp) _).mpr rfl
      have := not_mem_of_isIdentifier hname (c := ' ') rfl
      simpa
    rw [readTitle?, hsplit]
    exact readName?_eq_some_iff.mpr ⟨hname, rfl⟩

/-- `readRecord?` reads exactly what `recordLine` writes of records named by identifiers. -/
theorem readRecord?_eq_some_iff {line : List Char} {r : Record} :
    readRecord? line = some r ↔ isIdentifier r.name = true ∧ line = recordLine r := by
  constructor
  · intro h
    unfold readRecord? at h
    split at h
    · next cs number hsplit =>
      split at h
      · next digits hnumber =>
        split at h
        · next name id hname hid =>
          obtain ⟨hidentifier, rfl⟩ := readName?_eq_some_iff.mp hname
          have hdigits := readId?_eq_some_iff.mp hid
          have hcomma : number = Nat.toDigits 10 id.toNat ++ [','] := by
            have hjoin : [','].intercalate (number.splitOn ',') = number :=
              List.intercalate_splitOn ','
            rw [← hdigits, ← hjoin, hnumber]
            rfl
          rw [Option.some.injEq] at h
          subst h
          refine ⟨hidentifier, ?_⟩
          rw [recordLine, ← hcomma, ← hsplit, List.intercalate_splitOn]
        · contradiction
      · contradiction
    · contradiction
  · intro h
    obtain ⟨hname, rfl⟩ := h
    have hsplit : (recordLine r).splitOn ' ' =
        ['\t' :: r.name.toList, ['='], Nat.toDigits 10 r.id.toNat ++ [',']] := by
      apply (splitOn_eq_iff (by simp) _).mpr rfl
      have hblank := not_mem_of_isIdentifier hname (c := ' ') rfl
      have hdigits := not_mem_toDigits r.id.toNat (c := ' ') rfl
      simp [hblank, hdigits]
    have hcomma : (Nat.toDigits 10 r.id.toNat ++ [',']).splitOn ',' =
        [Nat.toDigits 10 r.id.toNat, []] := by
      have hdigits := not_mem_toDigits r.id.toNat (c := ',') rfl
      rw [splitOn_eq_iff (by simp) (by simpa)]
      rfl
    simp only [readRecord?, hsplit, hcomma, readName?_eq_some_iff.mpr ⟨hname, rfl⟩,
      readId?_eq_some_iff.mpr rfl]

/-- A `titleLine` has no line feed in it. -/
theorem feed_not_mem_titleLine {name : String} (h : isIdentifier name = true) :
    '\n' ∉ titleLine name := by
  have hname := not_mem_of_isIdentifier h (c := '\n') rfl
  simpa [titleLine, List.intercalate_cons_cons]

theorem feed_not_mem_recordLine {r : Record} (h : isIdentifier r.name = true) :
    '\n' ∉ recordLine r := by
  have hname := not_mem_of_isIdentifier h (c := '\n') rfl
  have hdigits := not_mem_toDigits r.id.toNat (c := '\n') rfl
  simp [recordLine, List.intercalate_cons_cons, hname, hdigits]

/-- No `recordLine` is the closing brace. -/
theorem recordLine_ne_brace (r : Record) : recordLine r ≠ ['}'] := by
  simp [recordLine, List.intercalate_cons_cons]

/-- `readBody?` reads lines up to the brace iff each is the `recordLine` of its record. -/
theorem readBody?_eq_some_iff {lines : List (List Char)} {records : List Record} :
    readBody? lines = some records ↔
      (∀ r ∈ records, isIdentifier r.name = true) ∧
        lines = records.map recordLine ++ [['}']] := by
  induction lines generalizing records with
  | nil => simp [readBody?]
  | cons line lines ih =>
      rw [readBody?]
      split
      · next hbrace =>
        rw [hbrace]
        cases records with
        | nil => cases lines <;> simp
        | cons r records =>
            refine iff_of_false (by cases lines <;> simp) ?_
            intro h
            rw [List.map_cons, List.cons_append, List.cons.injEq] at h
            exact recordLine_ne_brace r h.2.1.symm
      · next hbrace =>
        constructor
        · intro h
          split at h
          · next r rs hr hrs =>
            obtain ⟨hname, rfl⟩ := readRecord?_eq_some_iff.mp hr
            obtain ⟨hnames, rfl⟩ := ih.mp hrs
            rw [← Option.some.inj h]
            exact ⟨List.forall_mem_cons.mpr ⟨hname, hnames⟩, rfl⟩
          · contradiction
        · intro h
          obtain ⟨hnames, hlines⟩ := h
          cases records with
          | nil =>
              rw [List.map_nil, List.nil_append, List.cons.injEq] at hlines
              exact absurd hlines.1 hbrace
          | cons r records =>
              obtain ⟨hname, hnames⟩ := List.forall_mem_cons.mp hnames
              rw [List.map_cons, List.cons_append, List.cons.injEq] at hlines
              simp only [readRecord?_eq_some_iff.mpr ⟨hname, hlines.1⟩,
                ih.mpr ⟨hnames, hlines.2⟩]

/-- `Record.line` is the `recordLine` and a line feed. -/
theorem toList_line (r : Record) : r.line.toList = recordLine r ++ ['\n'] := by
  simp [Record.line, recordLine]

/-- What follows the first line of a header are the lines of its records and the
brace. -/
theorem intercalate_body (records : List Record) :
    ['\n'].intercalate (records.map recordLine ++ [['}']]) =
      records.flatMap (fun r => r.line.toList) ++ ['}'] := by
  induction records with
  | nil => rfl
  | cons r records ih =>
      rw [List.map_cons, List.cons_append, List.intercalate_cons_of_ne_nil (by simp), ih,
        List.flatMap_cons, toList_line]
      simp

/-- `render` puts the lines of a header together with line feeds between them. -/
theorem toList_render (h : Header) :
    h.render.toList =
      ['\n'].intercalate (titleLine h.name :: (h.records.map recordLine ++ [['}']])) := by
  rw [List.intercalate_cons_of_ne_nil (by simp), intercalate_body]
  simp [Header.render, titleLine, String.toList_join, List.flatMap_map]

namespace Header

/-- `decode?` reads a header iff that is `Named` and the text is what it is rendered as. -/
theorem decode?_eq_some_iff {text : String} {h : Header} :
    decode? text = some h ↔ h.Named ∧ h.render = text := by
  constructor
  · intro hread
    unfold decode? at hread
    split at hread
    · contradiction
    · next title lines hsplit =>
      split at hread
      · next name records htitle hbody =>
        obtain ⟨hname, rfl⟩ := readTitle?_eq_some_iff.mp htitle
        obtain ⟨hnames, rfl⟩ := readBody?_eq_some_iff.mp hbody
        rw [← Option.some.inj hread]
        refine ⟨⟨hname, hnames⟩, ?_⟩
        rw [← String.toList_inj, toList_render, ← hsplit, List.intercalate_splitOn]
      · contradiction
  · intro hrender
    obtain ⟨⟨hname, hnames⟩, rfl⟩ := hrender
    have hfeed : ∀ line ∈ titleLine h.name :: (h.records.map recordLine ++ [['}']]),
        '\n' ∉ line := by
      intro line hline
      rcases List.mem_cons.mp hline with rfl | hline
      · exact feed_not_mem_titleLine hname
      rcases List.mem_append.mp hline with hline | hline
      · obtain ⟨r, hr, rfl⟩ := List.mem_map.mp hline
        exact feed_not_mem_recordLine (hnames r hr)
      · rw [List.mem_singleton.mp hline]
        decide
    have hsplit := (splitOn_eq_iff (by simp) hfeed).mpr (toList_render h)
    simp only [decode?, hsplit, readTitle?_eq_some_iff.mpr ⟨hname, rfl⟩,
      readBody?_eq_some_iff.mpr ⟨hnames, rfl⟩]

/-- Two headers that are `Named` and rendered alike are one. -/
theorem Named.eq_of_render_eq {h h' : Header} (hn : h.Named) (hn' : h'.Named)
    (heq : h.render = h'.render) : h = h' := by
  have hread : decode? h.render = some h := decode?_eq_some_iff.mpr ⟨hn, rfl⟩
  rw [decode?_eq_some_iff.mpr ⟨hn', heq.symm⟩] at hread
  exact (Option.some.inj hread).symm

end Header

/-! ## built headers -/

/-- A generator only has an enum name that is an identifier. -/
theorem Generator.isIdentifier_enumName (g : Generator) :
    isIdentifier g.settings.enumName = true :=
  (Settings.fault?_eq_none_iff.mp g.accepted).1

/-- A header that `build` made is `Named`. -/
theorem named_of_build {g : Generator} {entries : List Entry} {made : Generation}
    (h : g.build entries = .ok made) : made.header.Named := by
  obtain ⟨assigned, hmakes⟩ := Generator.build_eq_ok_iff.mp h
  obtain ⟨claims, hgranted, hrecords⟩ := granted_of_build h
  constructor
  · rw [hmakes.name]
    exact g.isIdentifier_enumName
  · intro r hr
    have hlength := hgranted.length_eq.trans (length_candidates _)
    have hname : r.name ∈ claims.map Claim.name := by
      rw [hrecords, (sortById_perm _).mem_iff] at hr
      rw [← map_name_boundRecords hlength]
      exact List.mem_map_of_mem hr
    obtain ⟨c, hc, hname⟩ := List.mem_map.mp hname
    rw [← hname]
    refine (isValidName_iff.mp (hgranted.isValidName_name ?_ c hc)).1
    intro candidate hcandidate
    obtain ⟨e, -, rfl⟩ := List.mem_map.mp hcandidate
    exact isValidName_derive e.value

/-- A rendered header reads back. On every header of identifiers the reader
undoes `render`, so no two of them are rendered alike; what it accepts, and what
the rules of `HeaderText` describe, are the texts of these headers and no others;
and every header that is built is one of them. -/
theorem decode_render :
    (∀ h : Header, h.Named → Header.decode? h.render = some h) ∧
    (∀ h h' : Header, h.Named → h'.Named → h.render = h'.render → h = h') ∧
    (∀ text, HeaderText text ↔ ∃ h : Header, h.Named ∧ h.render = text) ∧
    (∀ text h, Header.decode? text = some h → h.Named ∧ h.render = text) ∧
    ∀ (g : Generator) entries made, g.build entries = .ok made →
      made.header.Named ∧ Header.decode? made.header.render = some made.header := by
  refine ⟨?_, ?_, fun _ => headerText_iff, fun _ _ => Header.decode?_eq_some_iff.mp, ?_⟩
  · intro h hn
    exact Header.decode?_eq_some_iff.mpr ⟨hn, rfl⟩
  · intro h h' hn hn' heq
    exact hn.eq_of_render_eq hn' heq
  · intro g entries made hbuild
    have hn := named_of_build hbuild
    exact ⟨hn, Header.decode?_eq_some_iff.mpr ⟨hn, rfl⟩⟩

end PoolEnum
