import PoolEnum.Table.Stop
import PoolEnum.Text.Hex

/-!
# PoolEnum.Table.Text

Strings of a table, read from behind their opening quote.

A string is a run of pieces and a closing quote. `readPiece` reads one piece: a
character that stands for itself, a short escape, or a code unit in four
hexadecimal digits; two units that form a surrogate pair are one piece.
`skipPiece` passes over a piece of a string nobody asked for, where a unit may
be any, and so needs no partner.
-/

namespace PoolEnum.Table

/-! ## hexadecimal digits -/

/-- The value of four hexadecimal digits. -/
def hexUnit (a b c d : Char) : Option Nat := do
  return ((← hexDigit a) * 16 + (← hexDigit b)) * 256 + (← hexDigit c) * 16 + (← hexDigit d)

/-- Four bytes that are not all hexadecimal digits. Fewer than four left is the
end of the text, whatever they are. -/
def unitFault (cs : List Char) : Stop :=
  if byteSize cs < 4 then .here .endOfString []
  else { cause := .invalidEscape, unread := cs, bytes := 4 }

/-- Reads a code unit in four hexadecimal digits. -/
def readUnit (cs : List Char) : Reading Nat :=
  match cs with
  | a :: b :: c :: d :: rest =>
    match hexUnit a b c d with
    | some n => .ok (n, rest)
    | none => .error (unitFault cs)
  | _ => .error (unitFault cs)

/-- A unit takes characters off the text. -/
theorem readUnit_length {cs rest : List Char} {n : Nat} (h : readUnit cs = .ok (n, rest)) :
    rest.length < cs.length := by
  unfold readUnit at h
  split at h
  · split at h
    · simp only [Except.ok.injEq, Prod.mk.injEq] at h
      obtain ⟨_, rfl⟩ := h
      simp only [List.length_cons]
      omega
    · contradiction
  · contradiction

/-! ## escapes -/

/-- The character of a short escape. -/
def shortEscape : Char → Option Char
  | '"' => some '"'
  | '\\' => some '\\'
  | '/' => some '/'
  | 'b' => some '\x08'
  | 'f' => some '\x0c'
  | 'n' => some '\n'
  | 'r' => some '\r'
  | 't' => some '\t'
  | _ => none

/-- Whether a code unit is the first half of a surrogate pair. -/
def isHighSurrogate (n : Nat) : Bool :=
  0xD800 ≤ n && n ≤ 0xDBFF

/-- Whether a code unit is the second half of a surrogate pair. -/
def isLowSurrogate (n : Nat) : Bool :=
  0xDC00 ≤ n && n ≤ 0xDFFF

/-- The character of a surrogate pair. -/
def pairChar (high low : Nat) : Char :=
  Char.ofNat (0x10000 + (high - 0xD800) * 1024 + (low - 0xDC00))

/-- Reads the second half of a surrogate pair. Both the backslash and the `u`
are read before they are found missing. -/
def readPartner (high : Nat) : List Char → Reading Char
  | [] => .error (.here .endOfString [])
  | '\\' :: [] => .error (.here .endOfString [])
  | '\\' :: 'u' :: cs =>
    match readUnit cs with
    | .ok (low, rest) =>
      if isLowSurrogate low then .ok (pairChar high low, rest)
      else .error (.here .loneSurrogate rest)
    | .error stop => .error stop
  | '\\' :: cs => .error (.next .unpairedSurrogate cs)
  | cs => .error (.next .unpairedSurrogate cs)

/-- Reads a character that is written as code units. -/
def readUnits (cs : List Char) : Reading Char :=
  match readUnit cs with
  | .ok (n, rest) =>
    if isLowSurrogate n then .error (.here .loneSurrogate rest)
    else if isHighSurrogate n then readPartner n rest
    else .ok (Char.ofNat n, rest)
  | .error stop => .error stop

/-- Reads what follows a backslash. -/
def readEscape : List Char → Reading Char
  | [] => .error (.here .endOfString [])
  | 'u' :: cs => readUnits cs
  | c :: cs =>
    match shortEscape c with
    | some e => .ok (e, cs)
    | none => .error (.next .invalidEscape (c :: cs))

/-- Reads one piece of a string, or its closing quote. -/
def readPiece : List Char → Reading (Option Char)
  | [] => .error (.here .endOfString [])
  | '"' :: cs => .ok (none, cs)
  | '\\' :: cs =>
    match readEscape cs with
    | .ok (c, rest) => .ok (some c, rest)
    | .error stop => .error stop
  | c :: cs =>
    if c < ' ' then .error (.next .controlCharacter (c :: cs)) else .ok (some c, cs)

/-- Passes over what follows a backslash in a string nobody asked for. -/
def skipEscape : List Char → Except Stop (List Char)
  | [] => .error (.here .endOfString [])
  | 'u' :: cs => (readUnit cs).map Prod.snd
  | c :: cs => if (shortEscape c).isSome then .ok cs else .error (.next .invalidEscape (c :: cs))

/-- Passes over one piece of a string, or its closing quote, and tells whether
it was a piece. A control character is complained about before it is read. -/
def skipPiece : List Char → Reading Bool
  | [] => .error (.here .endOfString [])
  | '"' :: cs => .ok (false, cs)
  | '\\' :: cs => (skipEscape cs).map (true, ·)
  | c :: cs =>
    if c < ' ' then .error (.here .controlCharacter (c :: cs)) else .ok (true, cs)

/-! ## pieces take characters off the text -/

theorem readPartner_length {high : Nat} {cs rest : List Char} {c : Char}
    (h : readPartner high cs = .ok (c, rest)) : rest.length < cs.length := by
  unfold readPartner at h
  split at h
  · contradiction
  · contradiction
  · next cs =>
    split at h
    · next low rest' hu =>
      have := readUnit_length hu
      split at h
      · simp only [Except.ok.injEq, Prod.mk.injEq] at h
        obtain ⟨_, rfl⟩ := h
        simp only [List.length_cons]
        omega
      · contradiction
    · contradiction
  · contradiction
  · contradiction

theorem readUnits_length {cs rest : List Char} {c : Char} (h : readUnits cs = .ok (c, rest)) :
    rest.length < cs.length := by
  unfold readUnits at h
  split at h
  · next n rest' hu =>
    have := readUnit_length hu
    split at h
    · contradiction
    · split at h
      · have := readPartner_length h
        omega
      · simp only [Except.ok.injEq, Prod.mk.injEq] at h
        obtain ⟨_, rfl⟩ := h
        exact this
  · contradiction

theorem readEscape_length {cs rest : List Char} {c : Char} (h : readEscape cs = .ok (c, rest)) :
    rest.length < cs.length := by
  unfold readEscape at h
  split at h
  · contradiction
  · have := readUnits_length h
    simp only [List.length_cons]
    omega
  · split at h
    · simp only [Except.ok.injEq, Prod.mk.injEq] at h
      obtain ⟨_, rfl⟩ := h
      simp
    · contradiction

theorem readPiece_length {cs rest : List Char} {p : Option Char}
    (h : readPiece cs = .ok (p, rest)) : rest.length < cs.length := by
  unfold readPiece at h
  split at h
  · contradiction
  · simp only [Except.ok.injEq, Prod.mk.injEq] at h
    obtain ⟨_, rfl⟩ := h
    simp
  · split at h
    · next c rest' he =>
      have := readEscape_length he
      simp only [Except.ok.injEq, Prod.mk.injEq] at h
      obtain ⟨_, rfl⟩ := h
      simp only [List.length_cons]
      omega
    · contradiction
  · split at h
    · contradiction
    · simp only [Except.ok.injEq, Prod.mk.injEq] at h
      obtain ⟨_, rfl⟩ := h
      simp

theorem skipPiece_length {cs rest : List Char} {p : Bool} (h : skipPiece cs = .ok (p, rest)) :
    rest.length < cs.length := by
  unfold skipPiece at h
  split at h
  · contradiction
  · simp only [Except.ok.injEq, Prod.mk.injEq] at h
    obtain ⟨_, rfl⟩ := h
    simp
  · next cs =>
    cases he : skipEscape cs with
    | error stop => simp [he, Except.map] at h
    | ok r =>
      simp only [he, Except.map, Except.ok.injEq, Prod.mk.injEq] at h
      obtain ⟨_, rfl⟩ := h
      unfold skipEscape at he
      split at he
      · contradiction
      · next cs =>
        cases hu : readUnit cs with
        | error stop => simp [hu, Except.map] at he
        | ok p =>
          obtain ⟨n, rest'⟩ := p
          have := readUnit_length hu
          simp only [hu, Except.map, Except.ok.injEq] at he
          subst he
          simp only [List.length_cons]
          omega
      · split at he
        · simp only [Except.ok.injEq] at he
          subst he
          simp only [List.length_cons]
          omega
        · contradiction
  · split at h
    · contradiction
    · simp only [Except.ok.injEq, Prod.mk.injEq] at h
      obtain ⟨_, rfl⟩ := h
      simp

/-! ## whole strings -/

/-- Reads a string up to and with its closing quote. -/
def readText (cs : List Char) : Reading (List Char) :=
  match h : readPiece cs with
  | .ok (none, rest) => .ok ([], rest)
  | .ok (some c, rest) =>
    have := readPiece_length h
    match readText rest with
    | .ok (text, rest) => .ok (c :: text, rest)
    | .error stop => .error stop
  | .error stop => .error stop
termination_by cs.length

/-- Passes over a string up to and with its closing quote. -/
def skipText (cs : List Char) : Except Stop (List Char) :=
  match h : skipPiece cs with
  | .ok (false, rest) => .ok rest
  | .ok (true, rest) =>
    have := skipPiece_length h
    skipText rest
  | .error stop => .error stop
termination_by cs.length

theorem readText_length {cs rest text : List Char} (h : readText cs = .ok (text, rest)) :
    rest.length < cs.length := by
  fun_induction readText cs generalizing text with
  | case1 cs rest' hp =>
    simp only [Except.ok.injEq, Prod.mk.injEq] at h
    obtain ⟨_, rfl⟩ := h
    exact readPiece_length hp
  | case2 cs c rest' hp _ text' rest'' ht ih =>
    simp only [Except.ok.injEq, Prod.mk.injEq] at h
    obtain ⟨_, rfl⟩ := h
    exact Nat.lt_trans (ih ht) (readPiece_length hp)
  | case3 => contradiction
  | case4 => contradiction

theorem skipText_length {cs rest : List Char} (h : skipText cs = .ok rest) :
    rest.length < cs.length := by
  fun_induction skipText cs with
  | case1 cs rest' hp =>
    simp only [Except.ok.injEq] at h
    subst h
    exact skipPiece_length hp
  | case2 cs rest' hp _ ih => exact Nat.lt_trans (ih h) (skipPiece_length hp)
  | case3 => contradiction

end PoolEnum.Table
