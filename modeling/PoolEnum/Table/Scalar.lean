import PoolEnum.Table.Number
import PoolEnum.Table.Text

/-!
# PoolEnum.Table.Scalar

The values of a table that hold no others, and the blanks between values.

`readFound` says what stands at a place where one kind of value is wanted, so
that a value of another kind can be named. Lists and objects are not entered.
-/

namespace PoolEnum.Table

/-! ## blanks -/

/-- Whether `c` may stand between the values of a table. -/
def isGap (c : Char) : Bool :=
  c == ' ' || c == '\t' || c == '\n' || c == '\r'

/-- The text without the blanks at its front. -/
def skipGap (cs : List Char) : List Char :=
  cs.dropWhile isGap

theorem length_skipGap_le (cs : List Char) : (skipGap cs).length ≤ cs.length :=
  (List.dropWhile_sublist _).length_le

theorem length_lt_of_skipGap {cs rest : List Char} {c : Char} (h : skipGap cs = c :: rest) :
    rest.length < cs.length := by
  have := length_skipGap_le cs
  rw [h, List.length_cons] at this
  omega

/-! ## words -/

/-- Reads the rest of a word. -/
def readWord : (word : List Char) → List Char → Except Stop (List Char)
  | [], cs => .ok cs
  | _ :: _, [] => .error (.here .endOfValue [])
  | w :: ws, c :: cs => if c = w then readWord ws cs else .error (.next .expectedWord (c :: cs))

theorem readWord_length {word cs rest : List Char} (h : readWord word cs = .ok rest) :
    rest.length ≤ cs.length := by
  induction word generalizing cs with
  | nil => simp_all [readWord]
  | cons w ws ih =>
    cases cs with
    | nil => simp [readWord] at h
    | cons c cs =>
      simp only [readWord] at h
      split at h
      · have := ih h
        simp only [List.length_cons]
        omega
      · contradiction

/-! ## what stands at a place -/

/-- Reads a number that is wanted, from behind its sign, and says what it is. -/
def readFoundNumber (negative : Bool) (cs : List Char) : Reading Found :=
  match readNumber .endOfValue negative cs with
  | .ok (l, rest) =>
    match l.found rest with
    | .ok found => .ok (found, rest)
    | .error stop => .error stop
  | .error stop => .error stop

/-- Reads a word that begins with a known letter. -/
def readFoundWord (found : Found) (word cs : List Char) : Reading Found :=
  (readWord word cs).map (found, ·)

/-- Says what stands at the front of a text. -/
def readFound (cs : List Char) : Reading Found :=
  match skipGap cs with
  | [] => .error (.next .endOfValue [])
  | 'n' :: rest => readFoundWord .null ['u', 'l', 'l'] rest
  | 't' :: rest => readFoundWord (.boolean true) ['r', 'u', 'e'] rest
  | 'f' :: rest => readFoundWord (.boolean false) ['a', 'l', 's', 'e'] rest
  | '-' :: rest => readFoundNumber true rest
  | '"' :: rest =>
    match readText rest with
    | .ok (text, rest) => .ok (.text (String.ofList text), rest)
    | .error stop => .error stop
  | '[' :: rest => .ok (.sequence, '[' :: rest)
  | '{' :: rest => .ok (.map, '{' :: rest)
  | c :: rest =>
    if c.isDigit then readFoundNumber false (c :: rest)
    else .error (.next .expectedValue (c :: rest))

/-- The complaint about what stands at the front of a text, where something
else was wanted. -/
def mismatchAt (wanted : Wanted) (cs : List Char) : Stop :=
  match readFound cs with
  | .ok (found, rest) => .here (.mismatch { found, wanted }) rest
  | .error stop => stop

/-! ## the two fields of an entry -/

/-- Reads an id. -/
def readId (cs : List Char) : Reading UInt64 :=
  match readFound cs with
  | .ok (.integer (.ofNat n), rest) => .ok (UInt64.ofNat n, rest)
  | .ok (found, rest) => .error (.here (.mismatch { found, wanted := .id }) rest)
  | .error stop => .error stop

/-- Reads a text. -/
def readValue (cs : List Char) : Reading String :=
  match readFound cs with
  | .ok (.text text, rest) => .ok (text, rest)
  | .ok (found, rest) => .error (.here (.mismatch { found, wanted := .text }) rest)
  | .error stop => .error stop

/-! ## lengths -/

theorem readFoundNumber_length {negative : Bool} {cs rest : List Char} {f : Found}
    (h : readFoundNumber negative cs = .ok (f, rest)) : rest.length < cs.length := by
  unfold readFoundNumber at h
  split at h
  · next l rest' hn =>
    split at h
    · simp only [Except.ok.injEq, Prod.mk.injEq] at h
      rw [← h.2]
      exact readNumber_length hn
    · contradiction
  · contradiction

theorem readFoundWord_length {found f : Found} {word cs rest : List Char}
    (h : readFoundWord found word cs = .ok (f, rest)) : rest.length ≤ cs.length := by
  unfold readFoundWord at h
  cases hw : readWord word cs with
  | error stop => simp [hw, Except.map] at h
  | ok r =>
    simp only [hw, Except.map, Except.ok.injEq, Prod.mk.injEq] at h
    rw [← h.2]
    exact readWord_length hw

/-- `readFound` leaves no more than it was given. -/
theorem readFound_length {cs rest : List Char} {f : Found} (h : readFound cs = .ok (f, rest)) :
    rest.length ≤ cs.length := by
  unfold readFound at h
  split at h
  · contradiction
  · next hs =>
    have := length_lt_of_skipGap hs
    have := readFoundWord_length h
    omega
  · next hs =>
    have := length_lt_of_skipGap hs
    have := readFoundWord_length h
    omega
  · next hs =>
    have := length_lt_of_skipGap hs
    have := readFoundWord_length h
    omega
  · next hs =>
    have := length_lt_of_skipGap hs
    have := readFoundNumber_length h
    omega
  · next hs =>
    have := length_lt_of_skipGap hs
    split at h
    · next ht =>
      have := readText_length ht
      simp only [Except.ok.injEq, Prod.mk.injEq] at h
      rw [← h.2]
      omega
    · contradiction
  · next hs =>
    have := length_lt_of_skipGap hs
    simp only [Except.ok.injEq, Prod.mk.injEq] at h
    rw [← h.2, List.length_cons]
    omega
  · next hs =>
    have := length_lt_of_skipGap hs
    simp only [Except.ok.injEq, Prod.mk.injEq] at h
    rw [← h.2, List.length_cons]
    omega
  · next hs =>
    have := length_lt_of_skipGap hs
    split at h
    · have := readFoundNumber_length h
      rw [List.length_cons] at this
      omega
    · contradiction

theorem readId_length {cs rest : List Char} {id : UInt64} (h : readId cs = .ok (id, rest)) :
    rest.length ≤ cs.length := by
  unfold readId at h
  split at h
  · next hf =>
    simp only [Except.ok.injEq, Prod.mk.injEq] at h
    rw [← h.2]
    exact readFound_length hf
  · contradiction
  · contradiction

theorem readValue_length {cs rest : List Char} {s : String} (h : readValue cs = .ok (s, rest)) :
    rest.length ≤ cs.length := by
  unfold readValue at h
  split at h
  · next hf =>
    simp only [Except.ok.injEq, Prod.mk.injEq] at h
    rw [← h.2]
    exact readFound_length hf
  · contradiction
  · contradiction

end PoolEnum.Table
