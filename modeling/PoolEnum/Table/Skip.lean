import PoolEnum.Table.Scalar

/-!
# PoolEnum.Table.Skip

Passing over the values of members that an entry does not have.

Such a value may be any value of any depth. `skipFrom` keeps the brackets that
are open as a list, so that depth costs no more than that list; what may come
next is one of four things.
-/

namespace PoolEnum.Table

/-- What encloses a value. -/
inductive Bracket
  | list
  | object
  deriving DecidableEq, Repr

/-- What may come next in a value that is passed over. -/
inductive Expecting
  /-- A value. -/
  | value
  /-- A key, its colon and a value. -/
  | member
  /-- The first item of what was just opened, or its end. -/
  | first (b : Bracket)
  /-- After a whole value, a comma or the end of what encloses it. -/
  | next
  deriving DecidableEq, Repr

namespace Bracket

/-- The closing bracket. -/
def close : Bracket → Char
  | list => ']'
  | object => '}'

/-- What is wrong if the text ends before the closing bracket. -/
def endCause : Bracket → Cause
  | list => .endOfList
  | object => .endOfObject

/-- What is wrong if something else stands where a comma may. -/
def commaCause : Bracket → Cause
  | list => .expectedListCommaOrEnd
  | object => .expectedObjectCommaOrEnd

/-- The items between the brackets. -/
def item : Bracket → Expecting
  | list => .value
  | object => .member

end Bracket

/-- One for a state that may hand the text on as it is. -/
def Expecting.slack : Expecting → Nat
  | first _ => 1
  | _ => 0

theorem Bracket.slack_item (b : Bracket) : b.item.slack = 0 := by
  cases b <;> rfl

/-! ## the parts of a value -/

/-- Reads the colon after a key. -/
def readColon (cs : List Char) : Except Stop (List Char) :=
  match skipGap cs with
  | [] => .error (.next .endOfObject [])
  | c :: rest => if c = ':' then .ok rest else .error (.next .expectedColon (c :: rest))

/-- Passes over a value that holds no others. -/
def skipScalar : List Char → Except Stop (List Char)
  | [] => .error (.next .endOfValue [])
  | 'n' :: rest => readWord ['u', 'l', 'l'] rest
  | 't' :: rest => readWord ['r', 'u', 'e'] rest
  | 'f' :: rest => readWord ['a', 'l', 's', 'e'] rest
  | '-' :: rest => (readNumber .invalidNumber true rest).map Prod.snd
  | '"' :: rest => skipText rest
  | c :: rest =>
    if c.isDigit then (readNumber .invalidNumber false (c :: rest)).map Prod.snd
    else .error (.next .expectedValue (c :: rest))

theorem readColon_length {cs rest : List Char} (h : readColon cs = .ok rest) :
    rest.length < cs.length := by
  unfold readColon at h
  split at h
  · contradiction
  · next hs =>
    split at h
    · simp only [Except.ok.injEq] at h
      subst h
      exact length_lt_of_skipGap hs
    · contradiction

theorem length_lt_of_map_readNumber {atEnd : Cause} {negative : Bool} {cs rest : List Char}
    (h : (readNumber atEnd negative cs).map Prod.snd = .ok rest) : rest.length < cs.length := by
  cases hn : readNumber atEnd negative cs with
  | error stop => simp [hn, Except.map] at h
  | ok p =>
    obtain ⟨l, r⟩ := p
    simp only [hn, Except.map, Except.ok.injEq] at h
    subst h
    exact readNumber_length hn

theorem skipScalar_length {cs rest : List Char} (h : skipScalar cs = .ok rest) :
    rest.length < cs.length := by
  unfold skipScalar at h
  split at h
  · contradiction
  · have := readWord_length h
    simp only [List.length_cons]
    omega
  · have := readWord_length h
    simp only [List.length_cons]
    omega
  · have := readWord_length h
    simp only [List.length_cons]
    omega
  · have := length_lt_of_map_readNumber h
    simp only [List.length_cons]
    omega
  · have := skipText_length h
    simp only [List.length_cons]
    omega
  · split at h
    · exact length_lt_of_map_readNumber h
    · contradiction

/-! ## whole values -/

/-- Passes over what `expecting` allows and all that it makes follow, up to the
end of the outermost of the open brackets. -/
def skipFrom (expecting : Expecting) (opened : List Bracket) (cs : List Char) :
    Except Stop (List Char) :=
  match expecting, opened with
  | .next, [] => .ok cs
  | .next, b :: opened =>
    match h : skipGap cs with
    | [] => .error (.next b.endCause [])
    | c :: rest =>
      have := length_lt_of_skipGap h
      have := b.slack_item
      if c = ',' then skipFrom b.item (b :: opened) rest
      else if c = b.close then skipFrom .next opened rest
      else .error (.next b.commaCause (c :: rest))
  | .first b, opened =>
    match h : skipGap cs with
    | [] => .error (.next b.endCause [])
    | c :: rest =>
      have := length_lt_of_skipGap h
      have := b.slack_item
      if c = b.close then skipFrom .next opened rest
      else skipFrom b.item (b :: opened) (c :: rest)
  | .member, opened =>
    match h : skipGap cs with
    | [] => .error (.next .endOfObject [])
    | c :: rest =>
      have := length_lt_of_skipGap h
      if c = '"' then
        match hk : skipText rest with
        | .error stop => .error stop
        | .ok rest =>
          have := skipText_length hk
          match hc : readColon rest with
          | .error stop => .error stop
          | .ok rest =>
            have := readColon_length hc
            skipFrom .value opened rest
      else .error (.next .keyNotString (c :: rest))
  | .value, opened =>
    match h : skipGap cs with
    | [] => .error (.next .endOfValue [])
    | c :: rest =>
      have := length_lt_of_skipGap h
      if c = '[' then skipFrom (.first .list) opened rest
      else if c = '{' then skipFrom (.first .object) opened rest
      else
        match hs : skipScalar (c :: rest) with
        | .error stop => .error stop
        | .ok rest =>
          have := skipScalar_length hs
          skipFrom .next opened rest
termination_by 2 * cs.length + expecting.slack
decreasing_by all_goals simp only [Expecting.slack, List.length_cons] at *; omega

/-- Passes over one value. -/
def skipValue (cs : List Char) : Except Stop (List Char) :=
  skipFrom .value [] cs

theorem skipFrom_length {expecting : Expecting} {opened : List Bracket} {cs rest : List Char}
    (h : skipFrom expecting opened cs = .ok rest) : rest.length ≤ cs.length := by
  fun_induction skipFrom expecting opened cs <;> simp_all <;> omega

theorem skipValue_length {cs rest : List Char} (h : skipValue cs = .ok rest) :
    rest.length ≤ cs.length :=
  skipFrom_length h

end PoolEnum.Table
