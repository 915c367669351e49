import PoolEnum.Entry
import PoolEnum.Table.Skip

/-!
# PoolEnum.Table.Entries

A string table: a list of entries, each an object with the members `i` and
`str`, or a list of the two values in that order. Members with other keys may
stand anywhere and are passed over. No comma may stand before a closing bracket.

`parseEntries` reads a whole text. Its faults carry the place at which reading
could not go on; what is wrong with an entry as a whole (a field missing or
given twice, a list too short) is noticed with the end of the entry read, if
that comes next.
-/

namespace PoolEnum.Table

/-! ## between items -/

/-- Reads on to the next item of a list, or past its end, and tells whether
there is an item. -/
def readListNext (isFirst : Bool) (cs : List Char) : Reading Bool :=
  match skipGap cs with
  | [] => .error (.next .endOfList [])
  | c :: rest =>
    if c = ']' then .ok (false, rest)
    else if isFirst then .ok (true, c :: rest)
    else if c = ',' then
      match skipGap rest with
      | [] => .error (.next .endOfValue [])
      | d :: rest =>
        if d = ']' then .error (.next .trailingComma (d :: rest)) else .ok (true, d :: rest)
    else .error (.next .expectedListCommaOrEnd (c :: rest))

/-- Reads on to the inside of the next key of an object, or past its end, and
tells whether there is a key. -/
def readObjectNext (isFirst : Bool) (cs : List Char) : Reading Bool :=
  match skipGap cs with
  | [] => .error (.next .endOfObject [])
  | c :: rest =>
    if c = '}' then .ok (false, rest)
    else if isFirst then
      if c = '"' then .ok (true, rest) else .error (.next .keyNotString (c :: rest))
    else if c = ',' then
      match skipGap rest with
      | [] => .error (.next .endOfValue [])
      | d :: rest =>
        if d = '"' then .ok (true, rest)
        else if d = '}' then .error (.next .trailingComma (d :: rest))
        else .error (.next .keyNotString (d :: rest))
    else .error (.next .expectedObjectCommaOrEnd (c :: rest))

/-- The text behind the end of an object, if that comes next. -/
def skipObjectEnd (cs : List Char) : List Char :=
  match skipGap cs with
  | '}' :: rest => rest
  | rest => rest

/-- `readListNext` leaves no more than it was given. -/
theorem readListNext_length {isFirst more : Bool} {cs rest : List Char}
    (h : readListNext isFirst cs = .ok (more, rest)) : rest.length ≤ cs.length := by
  unfold readListNext at h
  split at h
  · contradiction
  · next c rest' hs =>
    have := length_lt_of_skipGap hs
    split at h
    · simp only [Except.ok.injEq, Prod.mk.injEq] at h
      rw [← h.2]
      omega
    · split at h
      · simp only [Except.ok.injEq, Prod.mk.injEq] at h
        rw [← h.2, List.length_cons]
        omega
      · split at h
        · split at h
          · contradiction
          · next hd =>
            have := length_lt_of_skipGap hd
            split at h
            · contradiction
            · simp only [Except.ok.injEq, Prod.mk.injEq] at h
              rw [← h.2, List.length_cons]
              omega
        · contradiction

/-- `readObjectNext` takes at least one character, so `readMembers` ends. -/
theorem readObjectNext_length {isFirst more : Bool} {cs rest : List Char}
    (h : readObjectNext isFirst cs = .ok (more, rest)) : rest.length < cs.length := by
  unfold readObjectNext at h
  split at h
  · contradiction
  · next c rest' hs =>
    have := length_lt_of_skipGap hs
    split at h
    · simp only [Except.ok.injEq, Prod.mk.injEq] at h
      rw [← h.2]
      omega
    · split at h
      · split at h
        · simp only [Except.ok.injEq, Prod.mk.injEq] at h
          rw [← h.2]
          omega
        · contradiction
      · split at h
        · split at h
          · contradiction
          · next hd =>
            have := length_lt_of_skipGap hd
            split at h
            · simp only [Except.ok.injEq, Prod.mk.injEq] at h
              rw [← h.2]
              omega
            · split at h <;> contradiction
        · contradiction

/-! ## entries -/

/-- The fields of an object that were read so far. -/
structure Draft where
  id : Option UInt64
  value : Option String
  deriving DecidableEq, Repr

/-- The entry of an object that has ended. -/
def Draft.finish (d : Draft) (rest : List Char) : Reading Entry :=
  match d.id, d.value with
  | some id, some value => .ok ({ id, value }, rest)
  | none, _ => .error (.here (.missingField "i") rest)
  | _, none => .error (.here (.missingField "str") rest)

/-- Reads the rest of a member whose key was just read. A field that was read
before is refused without a look at what follows its key. -/
def readField (d : Draft) (key : String) (cs : List Char) : Reading Draft :=
  if key = "i" ∧ d.id.isSome then
    .error (.here (.duplicateField "i") (skipObjectEnd cs))
  else if key = "str" ∧ d.value.isSome then
    .error (.here (.duplicateField "str") (skipObjectEnd cs))
  else
    match readColon cs with
    | .error stop => .error stop
    | .ok rest =>
      if key = "i" then
        match readId rest with
        | .error stop => .error stop
        | .ok (id, rest) => .ok ({ d with id := some id }, rest)
      else if key = "str" then
        match readValue rest with
        | .error stop => .error stop
        | .ok (value, rest) => .ok ({ d with value := some value }, rest)
      else
        match skipValue rest with
        | .error stop => .error stop
        | .ok rest => .ok (d, rest)

theorem readField_length {d d' : Draft} {key : String} {cs rest : List Char}
    (h : readField d key cs = .ok (d', rest)) : rest.length < cs.length := by
  unfold readField at h
  split at h
  · contradiction
  split at h
  · contradiction
  split at h
  · contradiction
  next hc =>
    have := readColon_length hc
    split at h
    · split at h
      · contradiction
      · next hi =>
        have := readId_length hi
        simp only [Except.ok.injEq, Prod.mk.injEq] at h
        rw [← h.2]
        omega
    · split at h
      · split at h
        · contradiction
        · next hv =>
          have := readValue_length hv
          simp only [Except.ok.injEq, Prod.mk.injEq] at h
          rw [← h.2]
          omega
      · split at h
        · contradiction
        · next hs =>
          have := skipValue_length hs
          simp only [Except.ok.injEq, Prod.mk.injEq] at h
          rw [← h.2]
          omega

/-- Reads the members of an object and its end. -/
def readMembers (isFirst : Bool) (d : Draft) (cs : List Char) : Reading Entry :=
  match hn : readObjectNext isFirst cs with
  | .error stop => .error stop
  | .ok (false, rest) => d.finish rest
  | .ok (true, rest) =>
    have := readObjectNext_length hn
    match hk : readText rest with
    | .error stop => .error stop
    | .ok (key, rest) =>
      have := readText_length hk
      match hf : readField d (String.ofList key) rest with
      | .error stop => .error stop
      | .ok (d, rest) =>
        have := readField_length hf
        readMembers false d rest
termination_by cs.length

/-- Reads the end of a list of two values. -/
def readPairEnd (cs : List Char) : Except Stop (List Char) :=
  match skipGap cs with
  | [] => .error (.next .endOfList [])
  | c :: rest =>
    if c = ']' then .ok rest
    else if c = ',' then
      match skipGap rest with
      | ']' :: rest => .error (.next .trailingComma (']' :: rest))
      | rest => .error (.next .trailingCharacters rest)
    else .error (.next .trailingCharacters (c :: rest))

/-- Reads an entry that is a list, from behind its opening bracket. -/
def readPair (cs : List Char) : Reading Entry :=
  match readListNext true cs with
  | .error stop => .error stop
  | .ok (false, rest) => .error (.here (.shortEntry 0) rest)
  | .ok (true, rest) =>
    match readId rest with
    | .error stop => .error stop
    | .ok (id, rest) =>
      match readListNext false rest with
      | .error stop => .error stop
      | .ok (false, rest) => .error (.here (.shortEntry 1) rest)
      | .ok (true, rest) =>
        match readValue rest with
        | .error stop => .error stop
        | .ok (value, rest) =>
          match readPairEnd rest with
          | .error stop => .error stop
          | .ok rest => .ok ({ id, value }, rest)

/-- Reads an entry. -/
def readEntry (cs : List Char) : Reading Entry :=
  match skipGap cs with
  | '{' :: rest => readMembers true { id := none, value := none } rest
  | '[' :: rest => readPair rest
  | rest => .error (mismatchAt .entry rest)

theorem Draft.finish_rest {d : Draft} {cs rest : List Char} {e : Entry}
    (h : d.finish cs = .ok (e, rest)) : rest = cs := by
  unfold Draft.finish at h
  split at h <;> simp_all

theorem readMembers_length {isFirst : Bool} {d : Draft} {cs rest : List Char} {e : Entry}
    (h : readMembers isFirst d cs = .ok (e, rest)) : rest.length < cs.length := by
  fun_induction readMembers isFirst d cs with
  | case1 => contradiction
  | case2 isFirst d cs rest' hn =>
    rw [Draft.finish_rest h]
    exact readObjectNext_length hn
  | case3 => contradiction
  | case4 => contradiction
  | case5 isFirst d cs rest₁ hn _ key rest₂ hk _ d' rest₃ hf _ ih =>
    have := ih h
    omega

theorem readPairEnd_length {cs rest : List Char} (h : readPairEnd cs = .ok rest) :
    rest.length < cs.length := by
  unfold readPairEnd at h
  split at h
  · contradiction
  · next hs =>
    split at h
    · simp only [Except.ok.injEq] at h
      subst h
      exact length_lt_of_skipGap hs
    · split at h
      · split at h <;> contradiction
      · contradiction

theorem readPair_length {cs rest : List Char} {e : Entry} (h : readPair cs = .ok (e, rest)) :
    rest.length < cs.length := by
  unfold readPair at h
  split at h
  · contradiction
  · contradiction
  next h₁ =>
    split at h
    · contradiction
    next h₂ =>
      split at h
      · contradiction
      · contradiction
      next h₃ =>
        split at h
        · contradiction
        next h₄ =>
          split at h
          · contradiction
          next h₅ =>
            have := readListNext_length h₁
            have := readId_length h₂
            have := readListNext_length h₃
            have := readValue_length h₄
            have := readPairEnd_length h₅
            simp only [Except.ok.injEq, Prod.mk.injEq] at h
            rw [← h.2]
            omega

/-- `readEntry` takes at least one character, so `readEntries` ends. -/
theorem readEntry_length {cs rest : List Char} {e : Entry} (h : readEntry cs = .ok (e, rest)) :
    rest.length < cs.length := by
  unfold readEntry at h
  split at h
  · next hs =>
    have := length_lt_of_skipGap hs
    have := readMembers_length h
    omega
  · next hs =>
    have := length_lt_of_skipGap hs
    have := readPair_length h
    omega
  · contradiction

/-! ## tables -/

/-- Reads the entries of a table and the end of the list. -/
def readEntries (isFirst : Bool) (cs : List Char) : Reading (List Entry) :=
  match hn : readListNext isFirst cs with
  | .error stop => .error stop
  | .ok (false, rest) => .ok ([], rest)
  | .ok (true, rest) =>
    have := readListNext_length hn
    match he : readEntry rest with
    | .error stop => .error stop
    | .ok (e, rest) =>
      have := readEntry_length he
      match readEntries false rest with
      | .error stop => .error stop
      | .ok (es, rest) => .ok (e :: es, rest)
termination_by cs.length

/-- Reads a table that is the whole text. -/
def readTable (cs : List Char) : Except Stop (List Entry) :=
  match skipGap cs with
  | '[' :: rest =>
    match readEntries true rest with
    | .error stop => .error stop
    | .ok (es, rest) =>
      match skipGap rest with
      | [] => .ok es
      | rest => .error (.next .trailingCharacters rest)
  | rest => .error (mismatchAt .sequence rest)

/-- The entries of a string table in table order. -/
def parseEntries (text : String) : Except Fault (List Entry) :=
  match readTable text.toList with
  | .ok es => .ok es
  | .error stop => .error (stop.fault text.toList)

end PoolEnum.Table
