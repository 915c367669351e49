import PoolEnum.Text.Hex

/-!
# PoolEnum.Toml.Text

Blanks, line ends, comments and strings of a TOML document.

All readers take the front off a text and give what follows it, or nothing if
the front is not what they read. Where a string ends can be told even if it cannot
be read.
-/

namespace PoolEnum.Toml

/-! ## blanks and comments -/

/-- Whether `c` may stand in a comment and, for itself, in a string on one line:
anything but control characters, save for the tab. -/
def isPlain (c : Char) : Bool :=
  c == '\t' || (' ' ≤ c && c != '\x7f')

/-- Whether `c` is a blank within a line. -/
def isSpace (c : Char) : Bool :=
  c == ' ' || c == '\t'

/-- The text without the blanks at its front. -/
def skipSpace (cs : List Char) : List Char :=
  cs.dropWhile isSpace

/-- Reads a line end: a line feed, with or without a carriage return before it. -/
def readNewline : List Char → Option (List Char)
  | '\n' :: cs => some cs
  | '\r' :: '\n' :: cs => some cs
  | _ => none

/-- Reads the rest of a line that has nothing but blanks and a comment, and its
end, which may be that of the text. -/
def readLineEnd (cs : List Char) : Option (List Char) :=
  let cs := skipSpace cs
  let cs := if cs.head? = some '#' then cs.dropWhile isPlain else cs
  if cs.isEmpty then some [] else readNewline cs

/-- Passes over blanks, line ends and comments. `inComment` tells that the
characters before are those of a comment. -/
def skipTrivia (inComment : Bool) : List Char → Option (List Char)
  | [] => some []
  | '\n' :: cs => skipTrivia false cs
  | '\r' :: '\n' :: cs => skipTrivia false cs
  | c :: cs =>
    if inComment then if isPlain c then skipTrivia true cs else none
    else if isSpace c then skipTrivia false cs
    else if c = '#' then skipTrivia true cs
    else some (c :: cs)

/-- Reads one given character. -/
def readMark (mark : Char) : List Char → Option (List Char)
  | [] => none
  | c :: cs => if c = mark then some cs else none

/-! ## escapes -/

/-- Reads so many hexadecimal digits. -/
def readHex : (count : Nat) → (value : Nat) → List Char → Option (Nat × List Char)
  | 0, value, cs => some (value, cs)
  | _ + 1, _, [] => none
  | count + 1, value, c :: cs => do readHex count (value * 16 + (← hexDigit c)) cs

/-- Reads a character by its code point in so many digits. -/
def readCodePoint (count : Nat) (cs : List Char) : Option (Char × List Char) := do
  let (n, cs) ← readHex count 0 cs
  if n.isValidChar then some (Char.ofNat n, cs) else none

/-- The character of a short escape. -/
def shortEscape : Char → Option Char
  | 'b' => some '\x08'
  | 't' => some '\t'
  | 'n' => some '\n'
  | 'f' => some '\x0c'
  | 'r' => some '\r'
  | 'e' => some '\x1b'
  | '"' => some '"'
  | '\\' => some '\\'
  | _ => none

/-- The number of hexadecimal digits in an escape by code point. -/
def escapeDigits : Char → Option Nat
  | 'x' => some 2
  | 'u' => some 4
  | 'U' => some 8
  | _ => none

/-- Reads what follows a backslash. -/
def readEscape : List Char → Option (Char × List Char)
  | [] => none
  | c :: cs =>
    match shortEscape c, escapeDigits c with
    | some e, _ => some (e, cs)
    | none, some count => readCodePoint count cs
    | none, none => none

/-- `readHex` leaves no more than it was given. -/
theorem readHex_length {count value n : Nat} {cs rest : List Char}
    (h : readHex count value cs = some (n, rest)) : rest.length ≤ cs.length := by
  induction count generalizing value cs with
  | zero =>
    simp only [readHex, Option.some.injEq, Prod.mk.injEq] at h
    exact Nat.le_of_eq (congrArg List.length h.2.symm)
  | succ count ih =>
    cases cs with
    | nil => simp [readHex] at h
    | cons c cs =>
      simp only [readHex, bind, Option.bind] at h
      split at h
      · contradiction
      · have := ih h
        simp only [List.length_cons]
        omega

theorem readCodePoint_length {count : Nat} {cs rest : List Char} {c : Char}
    (h : readCodePoint count cs = some (c, rest)) : rest.length ≤ cs.length := by
  simp only [readCodePoint, bind, Option.bind] at h
  split at h
  · contradiction
  · next p hp =>
    obtain ⟨n, rest'⟩ := p
    have := readHex_length hp
    dsimp only at h
    split at h
    · simp only [Option.some.injEq, Prod.mk.injEq] at h
      rw [← h.2]
      exact this
    · contradiction

/-- `readEscape` takes at least one character, so `readBasic` and `readLong` end. -/
theorem readEscape_length {cs rest : List Char} {c : Char} (h : readEscape cs = some (c, rest)) :
    rest.length < cs.length := by
  unfold readEscape at h
  split at h
  · contradiction
  · next d cs =>
    split at h
    · simp only [Option.some.injEq, Prod.mk.injEq] at h
      rw [← h.2]
      simp
    · have := readCodePoint_length h
      simp only [List.length_cons]
      omega
    · contradiction

/-! ## strings on one line -/

/-- Reads a string in double quotes from behind the opening one. -/
def readBasic (cs : List Char) : Option (List Char × List Char) :=
  match cs with
  | [] => none
  | c :: rest =>
    if c = '"' then some ([], rest)
    else if c = '\\' then
      match h : readEscape rest with
      | none => none
      | some (e, rest) =>
        have := readEscape_length h
        (readBasic rest).map fun (s, rest) => (e :: s, rest)
    else if isPlain c then (readBasic rest).map fun (s, rest) => (c :: s, rest)
    else none
termination_by cs.length
decreasing_by all_goals simp only [List.length_cons] at *; omega

/-- The mark that encloses strings without escapes. -/
def apostrophe : Char := '\x27'

/-- Whether `c` encloses strings. -/
def isQuote (c : Char) : Bool :=
  c == '"' || c == apostrophe

/-- Reads a string in apostrophes from behind the opening one. -/
def readLiteral : List Char → Option (List Char × List Char)
  | [] => none
  | c :: cs =>
    if c = apostrophe then some ([], cs)
    else if isPlain c then (readLiteral cs).map fun (s, rest) => (c :: s, rest)
    else none

/-! ## strings over several lines -/

/-- The marks at the front of a text, and what follows them. -/
def takeMarks (mark : Char) (cs : List Char) : List Char × List Char :=
  (cs.takeWhile (· = mark), cs.dropWhile (· = mark))

/-- Passes over blanks and line ends. -/
def skipLines : List Char → List Char
  | ' ' :: cs => skipLines cs
  | '\t' :: cs => skipLines cs
  | '\n' :: cs => skipLines cs
  | '\r' :: '\n' :: cs => skipLines cs
  | cs => cs

/-- The text behind a backslash that ends its line, with all blanks and line ends
that follow; nothing if it does not end its line. -/
def skipLineBreak (cs : List Char) : Option (List Char) :=
  (readNewline (skipSpace cs)).map skipLines

theorem length_skipLines_le (cs : List Char) : (skipLines cs).length ≤ cs.length := by
  fun_induction skipLines cs with
  | case1 cs ih => simp only [List.length_cons]; omega
  | case2 cs ih => simp only [List.length_cons]; omega
  | case3 cs ih => simp only [List.length_cons]; omega
  | case4 cs ih => simp only [List.length_cons]; omega
  | case5 cs => exact Nat.le_refl _

theorem readNewline_length {cs rest : List Char} (h : readNewline cs = some rest) :
    rest.length < cs.length := by
  unfold readNewline at h
  split at h
  · obtain rfl := Option.some.inj h
    exact Nat.lt_succ_self _
  · obtain rfl := Option.some.inj h
    exact Nat.lt_succ_of_lt (Nat.lt_succ_self _)
  · exact absurd h (by simp)

theorem length_skipSpace_le (cs : List Char) : (skipSpace cs).length ≤ cs.length :=
  (List.dropWhile_sublist _).length_le

/-- `skipLineBreak` takes at least the line end. -/
theorem skipLineBreak_length {cs rest : List Char} (h : skipLineBreak cs = some rest) :
    rest.length < cs.length := by
  simp only [skipLineBreak, Option.map_eq_some_iff] at h
  obtain ⟨after, hn, rfl⟩ := h
  have := readNewline_length hn
  have := length_skipSpace_le cs
  have := length_skipLines_le after
  omega

/-- `takeMarks` at a mark takes at least that, so `readLong` ends. -/
theorem length_takeMarks_lt {mark : Char} {cs : List Char} :
    (takeMarks mark (mark :: cs)).2.length < (mark :: cs).length := by
  have := (List.dropWhile_sublist (l := cs) (fun c => decide (c = mark))).length_le
  simp only [takeMarks, List.dropWhile_cons, decide_true, if_true, List.length_cons]
  omega

/-- Reads a string over several lines from behind its opening marks. Three marks
end it, and up to two before those belong to it. `escapes` tells whether a
backslash is one. -/
def readLong (mark : Char) (escapes : Bool) (cs : List Char) : Option (List Char × List Char) :=
  match cs with
  | [] => none
  | c :: rest =>
    if hc : c = mark then
      let marks := (takeMarks mark (c :: rest)).1
      have : (takeMarks mark (c :: rest)).2.length < (c :: rest).length :=
        hc ▸ length_takeMarks_lt
      if marks.length < 3 then
        (readLong mark escapes (takeMarks mark (c :: rest)).2).map fun (s, rest) =>
          (marks ++ s, rest)
      else if marks.length < 6 then some (marks.drop 3, (takeMarks mark (c :: rest)).2)
      else none
    else if c = '\\' ∧ escapes then
      match hb : skipLineBreak rest with
      | some rest =>
        have := skipLineBreak_length hb
        readLong mark escapes rest
      | none =>
        match he : readEscape rest with
        | none => none
        | some (e, rest) =>
          have := readEscape_length he
          (readLong mark escapes rest).map fun (s, rest) => (e :: s, rest)
    else if c = '\n' ∨ isPlain c ∨ (c = '\r' ∧ rest.head? = some '\n') then
      (readLong mark escapes rest).map fun (s, rest) => (c :: s, rest)
    else none
termination_by cs.length
decreasing_by all_goals simp only [List.length_cons] at *; omega

/-- The text without a line end at its front. -/
def dropNewline (cs : List Char) : List Char :=
  (readNewline cs).getD cs

/-- Reads a string with any of its four pairs of marks. -/
def readString (cs : List Char) : Option (String × List Char) := do
  let (s, rest) ←
    match cs with
    | '"' :: '"' :: '"' :: cs => readLong '"' true (dropNewline cs)
    | '"' :: cs => readBasic cs
    | a :: b :: c :: cs =>
      if a = apostrophe ∧ b = apostrophe ∧ c = apostrophe then
        readLong apostrophe false (dropNewline cs)
      else if a = apostrophe then readLiteral (b :: c :: cs)
      else none
    | a :: cs => if a = apostrophe then readLiteral cs else none
    | [] => none
  return (String.ofList s, rest)

/-! ## strings that cannot be read -/

/-- The text behind a string on one line, from behind its opening mark on: behind
the closing mark, or at the end of the line. -/
def skipShort (mark : Char) (escapes : Bool) : List Char → List Char
  | [] => []
  | '\\' :: c :: cs =>
    if escapes ∧ (c = '"' ∨ c = '\\') then skipShort mark escapes cs
    else skipShort mark escapes (c :: cs)
  | c :: cs =>
    if c = mark then cs else if c = '\n' then c :: cs else skipShort mark escapes cs

/-- The text without up to so many marks at its front. -/
def dropMarks (mark : Char) : (most : Nat) → List Char → List Char
  | 0, cs => cs
  | _ + 1, [] => []
  | most + 1, c :: cs => if c = mark then dropMarks mark most cs else c :: cs

/-- The text behind a string over several lines, from behind its opening marks on:
behind three marks and up to two more, or at the end of the text. -/
def skipLong (mark : Char) (escapes : Bool) : List Char → List Char
  | [] => []
  | '\\' :: c :: cs =>
    if escapes ∧ (c = '"' ∨ c = '\\') then skipLong mark escapes cs
    else skipLong mark escapes (c :: cs)
  | c :: cs =>
    if (c :: cs).take 3 = [mark, mark, mark] then dropMarks mark 5 (c :: cs)
    else skipLong mark escapes cs

/-- The text behind a string, from its opening marks on. -/
def skipString : List Char → List Char
  | [] => []
  | mark :: cs =>
    if cs.take 2 = [mark, mark] then skipLong mark (mark == '"') (cs.drop 2)
    else skipShort mark (mark == '"') cs

/-- A string, if it can be read, and what follows it in any case. -/
def takeString (cs : List Char) : Option String × List Char :=
  match readString cs with
  | some (s, rest) => (some s, rest)
  | none => (none, skipString cs)

end PoolEnum.Toml
