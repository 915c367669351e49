import PoolEnum.Decimal.Style
import PoolEnum.Table.Stop

/-!
# PoolEnum.Table.Number

Numbers of a table: how they are written, and what they are.

`readNumber` reads the digits of a number from behind its sign. Where a number
is only passed over that is all. Where it is wanted, `Literal.found` says what
it is: an integer if it is written without point and exponent and fits 64 bits,
else a floating-point number, which nothing in a table wants, so that only its
text matters.

The value of a floating-point number is worked out in steps, and each step
rounds: the digits that fit 64 bits are taken as one integer, and that is
multiplied or divided by a power of ten.
-/

namespace PoolEnum.Table

/-- A number as written. -/
structure Literal where
  negative : Bool
  /-- The digits before the point. -/
  whole : List Char
  /-- The digits after the point; none if there is no point. -/
  fraction : List Char
  /-- Whether the exponent is negative, and its digits. -/
  exponent : Option (Bool × List Char)
  deriving DecidableEq, Repr

/-! ## digits -/

/-- The digits at the front of a text, and the rest. -/
def takeDigits (cs : List Char) : List Char × List Char :=
  (cs.takeWhile Char.isDigit, cs.dropWhile Char.isDigit)

/-- Reads the digits before the point. Only a lone zero may begin with one.
`atEnd` is what is wrong with a text that ends where a digit has to stand. -/
def readWhole (atEnd : Cause) : List Char → Reading (List Char)
  | [] => .error (.next atEnd [])
  | c :: cs =>
    if c = '0' then
      if cs.head?.any Char.isDigit then .error (.next .invalidNumber cs) else .ok ([c], cs)
    else if c.isDigit then .ok (takeDigits (c :: cs))
    else .error (.next .invalidNumber (c :: cs))

/-- Reads digits of which there has to be at least one. -/
def readDigits (atEnd : Cause) : List Char → Reading (List Char)
  | [] => .error (.next atEnd [])
  | c :: cs =>
    if c.isDigit then .ok (takeDigits (c :: cs)) else .error (.next .invalidNumber (c :: cs))

/-- Reads a point and the digits after it, if there is a point. -/
def readFraction (atEnd : Cause) : List Char → Reading (List Char)
  | '.' :: cs => readDigits atEnd cs
  | cs => .ok ([], cs)

/-- Whether the exponent is negative, and the text behind its sign. -/
def takeSign : List Char → Bool × List Char
  | '+' :: cs => (false, cs)
  | '-' :: cs => (true, cs)
  | cs => (false, cs)

/-- Reads an exponent, if there is one. -/
def readExponent (atEnd : Cause) : List Char → Reading (Option (Bool × List Char))
  | [] => .ok (none, [])
  | c :: cs =>
    if c = 'e' ∨ c = 'E' then
      let (negative, digits) := takeSign cs
      match readDigits atEnd digits with
      | .ok (digits, rest) => .ok (some (negative, digits), rest)
      | .error stop => .error stop
    else .ok (none, c :: cs)

/-- Reads a number from behind its sign. -/
def readNumber (atEnd : Cause) (negative : Bool) (cs : List Char) :
    Except Stop (Literal × List Char) := do
  let (whole, cs) ← readWhole atEnd cs
  let (fraction, cs) ← readFraction atEnd cs
  let (exponent, cs) ← readExponent atEnd cs
  return ({ negative, whole, fraction, exponent }, cs)

/-! ## numbers take characters off the text -/

theorem length_takeDigits_le (cs : List Char) : (takeDigits cs).2.length ≤ cs.length :=
  (List.dropWhile_sublist _).length_le

/-- `takeDigits` takes a digit that is there. -/
theorem length_takeDigits_lt {c : Char} (cs : List Char) (h : c.isDigit = true) :
    (takeDigits (c :: cs)).2.length < (c :: cs).length := by
  have := length_takeDigits_le cs
  simp only [takeDigits, List.dropWhile_cons, h, if_true, List.length_cons] at this ⊢
  omega

theorem readWhole_length {atEnd : Cause} {cs ds rest : List Char}
    (h : readWhole atEnd cs = .ok (ds, rest)) : rest.length < cs.length := by
  unfold readWhole at h
  split at h
  · contradiction
  · next c cs =>
    split at h
    · split at h
      · contradiction
      · simp only [Except.ok.injEq, Prod.mk.injEq] at h
        obtain ⟨_, rfl⟩ := h
        simp
    · split at h
      · next hd =>
        have := length_takeDigits_lt cs hd
        simp only [Except.ok.injEq] at h
        rwa [h] at this
      · contradiction

theorem readDigits_length {atEnd : Cause} {cs ds rest : List Char}
    (h : readDigits atEnd cs = .ok (ds, rest)) : rest.length < cs.length := by
  unfold readDigits at h
  split at h
  · contradiction
  · next c cs =>
    split at h
    · next hd =>
      have := length_takeDigits_lt cs hd
      simp only [Except.ok.injEq] at h
      rwa [h] at this
    · contradiction

theorem readFraction_length {atEnd : Cause} {cs ds rest : List Char}
    (h : readFraction atEnd cs = .ok (ds, rest)) : rest.length ≤ cs.length := by
  unfold readFraction at h
  split at h
  · have := readDigits_length h
    simp only [List.length_cons]
    omega
  · simp only [Except.ok.injEq, Prod.mk.injEq] at h
    simp [h.2]

theorem length_takeSign_le (cs : List Char) : (takeSign cs).2.length ≤ cs.length := by
  unfold takeSign
  split <;> simp

theorem readExponent_length {atEnd : Cause} {cs rest : List Char}
    {e : Option (Bool × List Char)} (h : readExponent atEnd cs = .ok (e, rest)) :
    rest.length ≤ cs.length := by
  unfold readExponent at h
  split at h
  · simp only [Except.ok.injEq, Prod.mk.injEq] at h
    simp [← h.2]
  · next c cs =>
    split at h
    · have hs := length_takeSign_le cs
      dsimp only at h
      split at h
      · next ds rest' hd =>
        have := readDigits_length hd
        simp only [Except.ok.injEq, Prod.mk.injEq] at h
        rw [← h.2, List.length_cons]
        omega
      · contradiction
    · simp only [Except.ok.injEq, Prod.mk.injEq] at h
      simp [← h.2]

/-- `readNumber` takes at least one digit. -/
theorem readNumber_length {atEnd : Cause} {negative : Bool} {cs rest : List Char} {l : Literal}
    (h : readNumber atEnd negative cs = .ok (l, rest)) : rest.length < cs.length := by
  unfold readNumber at h
  simp only [bind, Except.bind, pure, Except.pure] at h
  split at h
  · contradiction
  · next w hw =>
    split at h
    · contradiction
    · next f hf =>
      split at h
      · contradiction
      · next e he =>
        obtain ⟨_, w⟩ := w
        obtain ⟨_, f⟩ := f
        obtain ⟨_, e⟩ := e
        have hw := readWhole_length hw
        have hf := readFraction_length hf
        have he := readExponent_length he
        dsimp only at hf he
        simp only [Except.ok.injEq, Prod.mk.injEq] at h
        rw [← h.2]
        omega

/-! ## values -/

/-- The value of a digit. -/
def digitValue (c : Char) : Nat :=
  c.toNat - 48

/-- The number that digits continue `n` to, up to the digit that would take it
above `most`, and the digits from that one on. -/
def absorb (most : Nat) (n : Nat) : List Char → Nat × List Char
  | [] => (n, [])
  | c :: cs =>
    let next := n * 10 + digitValue c
    if next ≤ most then absorb most next cs else (n, c :: cs)

/-- The greatest unsigned integer of 64 bits. -/
def maxWord : Nat := Nat.pow 2 64 - 1

/-- The greatest exponent that is worked out. -/
def maxExponent : Nat := Nat.pow 2 31 - 1

/-- A power of ten as a double, for exponents up to 308. -/
def powerOfTen (n : Nat) : Float :=
  Float.ofScientific 1 false n

/-- `x` divided by a power of ten, as many places at once as a double has. -/
def scaleDown (x : Float) (places : Nat) : Float :=
  if places ≤ 308 then x / powerOfTen places
  else if x == 0 then x
  else scaleDown (x / powerOfTen 308) (places - 308)
termination_by places

/-- `n · 10^exponent` as a double, unless that is infinite. -/
def scale (n : Nat) (exponent : Int) : Option Float :=
  let x := Float.ofNat n
  if exponent < 0 then some (scaleDown x exponent.natAbs)
  else if x == 0 then some x
  else if exponent ≤ 308 then
    let y := x * powerOfTen exponent.toNat
    if y.isInf then none else some y
  else none

/-- How floating-point numbers of a table are shown: with all their places if
these are few, and the even digit where two are equally near. -/
def tableStyle : DecimalStyle :=
  { least := some (-5), most := some 15, tie := .even }

namespace Literal

/-- The number that a literal means when no 64 bits hold it as an integer.
`rest` is what follows the literal. -/
def floating (l : Literal) (rest : List Char) : Except Stop Found :=
  let shown (x : Float) : Found := .float (finiteText tableStyle (if l.negative then -x else x))
  let scaled (n : Nat) (exponent : Int) : Except Stop Found :=
    match scale n exponent with
    | some x => .ok (shown x)
    | none => .error (.here .numberOutOfRange rest)
  let (n, dropped) := absorb maxWord 0 l.whole
  let (n, left) := absorb maxWord n l.fraction
  let places : Int := (dropped.length : Int) - (l.fraction.length - left.length : Nat)
  match l.exponent with
  | none => scaled n places
  | some (down, digits) =>
    match absorb maxExponent 0 digits with
    | (exponent, []) => scaled n (if down then places - exponent else places + exponent)
    | (_, beyond) =>
      if n = 0 ∨ down then .ok (shown 0)
      else .error (.here .numberOutOfRange (beyond.drop 1 ++ rest))

/-- What a literal is. `rest` is what follows it. -/
def found (l : Literal) (rest : List Char) : Except Stop Found :=
  match l.fraction, l.exponent, absorb maxWord 0 l.whole with
  | [], none, (n, []) =>
    if !l.negative then .ok (.integer n)
    else if 0 < n ∧ n ≤ Nat.pow 2 63 then .ok (.integer (-(n : Int)))
    else l.floating rest
  | _, _, _ => l.floating rest

end Literal

end PoolEnum.Table
