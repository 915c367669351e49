import PoolEnum.Table.Entries

/-!
# PoolEnum.Proofs.Table.Grammar

The language of string tables, as rules about the characters alone.

Each rule says of a text `w` what it writes: `StringText w s` a string,
`IdText w id` an id, `EntryText w e` an entry and `TableText w es` a table. What
is only passed over has no meaning, so `Written` merely tells which texts are
values. A list is described from one of its ends: `ItemsInside` from behind its
opening bracket, `ItemsAfter` from behind an item, both up to and with the
closing bracket. Hence a comma is always followed by an item.
-/

namespace PoolEnum.Table

/-! ## blanks -/

/-- Blanks, if any. -/
def Gap (w : List Char) : Prop :=
  ∀ c ∈ w, c = ' ' ∨ c = '\t' ∨ c = '\n' ∨ c = '\r'

/-- What `P` describes, with blanks in front. -/
def Spaced {α : Type} (P : List Char → α → Prop) (w : List Char) (x : α) : Prop :=
  ∃ a v, Gap a ∧ P v x ∧ w = a ++ v

/-! ## numbers -/

/-- One digit or more. -/
def Digits (w : List Char) : Prop :=
  w ≠ [] ∧ ∀ c ∈ w, c.isDigit = true

/-- The digits of a whole number, of which only zero begins with a zero. -/
def Whole (w : List Char) : Prop :=
  w = ['0'] ∨ (Digits w ∧ w.head? ≠ some '0')

/-- A point and digits, or nothing. -/
def Fraction (w : List Char) : Prop :=
  w = [] ∨ ∃ ds, Digits ds ∧ w = '.' :: ds

/-- The mark of an exponent, its sign and its digits, or nothing. -/
def Exponent (w : List Char) : Prop :=
  w = [] ∨ ∃ e sign ds, (e = 'e' ∨ e = 'E') ∧ (sign = [] ∨ sign = ['+'] ∨ sign = ['-']) ∧
    Digits ds ∧ w = e :: sign ++ ds

/-- A number of any size, behind its sign. -/
def Unsigned (w : List Char) : Prop :=
  ∃ whole fraction exponent, Whole whole ∧ Fraction fraction ∧ Exponent exponent ∧
    w = whole ++ fraction ++ exponent

/-- An unsigned whole number of 64 bits. -/
def IdText (w : List Char) (id : UInt64) : Prop :=
  Whole w ∧ Nat.ofDigitChars 10 w 0 = id.toNat

/-! ## strings -/

/-- A hexadecimal digit, in either case, and its value. -/
def HexDigit (c : Char) (n : Nat) : Prop :=
  n < 16 ∧ (c = n.digitChar ∨ c = n.digitChar.toUpper)

/-- Four hexadecimal digits and the code unit they write. -/
def UnitText (w : List Char) (n : Nat) : Prop :=
  ∃ a b c d i j k l, w = [a, b, c, d] ∧ HexDigit a i ∧ HexDigit b j ∧ HexDigit c k ∧
    HexDigit d l ∧ n = ((i * 16 + j) * 16 + k) * 16 + l

/-- What stands behind the backslash of a short escape, and the character it
writes. -/
def ShortEscape (c e : Char) : Prop :=
  (c, e) ∈ [('"', '"'), ('\\', '\\'), ('/', '/'), ('b', '\x08'), ('f', '\x0C'), ('n', '\n'),
    ('r', '\r'), ('t', '\t')]

/-- A character of a string as it may be written. Code units of surrogates stand
in pairs, and a pair is one character. -/
inductive PieceText : List Char → Char → Prop
  /-- As it is, unless it is a quote, a backslash or a control character. -/
  | plain {c : Char} : ' ' ≤ c → c ≠ '"' → c ≠ '\\' → PieceText [c] c
  | short {c e : Char} : ShortEscape c e → PieceText ['\\', c] e
  | unit {w : List Char} {n : Nat} : UnitText w n → ¬ (0xD800 ≤ n ∧ n ≤ 0xDFFF) →
      PieceText ('\\' :: 'u' :: w) (Char.ofNat n)
  | pair {w v : List Char} {high low : Nat} :
      UnitText w high → 0xD800 ≤ high → high ≤ 0xDBFF →
      UnitText v low → 0xDC00 ≤ low → low ≤ 0xDFFF →
      PieceText ('\\' :: 'u' :: w ++ '\\' :: 'u' :: v)
        (Char.ofNat (0x10000 + (high - 0xD800) * 0x400 + (low - 0xDC00)))

/-- What stands between the quotes of a string, and the characters it writes. -/
inductive ContentText : List Char → List Char → Prop
  | nil : ContentText [] []
  | cons {w v cs : List Char} {c : Char} :
      PieceText w c → ContentText v cs → ContentText (w ++ v) (c :: cs)

/-- A string in its quotes. -/
def StringText (w : List Char) (s : String) : Prop :=
  ∃ content, ContentText content s.toList ∧ w = '"' :: content ++ ['"']

/-- A piece of a string that is passed over, where a code unit may be any. -/
inductive LoosePiece : List Char → Prop
  | plain {c : Char} : ' ' ≤ c → c ≠ '"' → c ≠ '\\' → LoosePiece [c]
  | short {c e : Char} : ShortEscape c e → LoosePiece ['\\', c]
  | unit {w : List Char} {n : Nat} : UnitText w n → LoosePiece ('\\' :: 'u' :: w)

/-- What may stand between the quotes of a string that is passed over. -/
inductive LooseText : List Char → Prop
  | nil : LooseText []
  | cons {w v : List Char} : LoosePiece w → LooseText v → LooseText (w ++ v)

/-! ## values that are passed over -/

/-- The opening bracket. -/
def Bracket.opening : Bracket → Char
  | list => '['
  | object => '{'

/-- A word, a number or a string. -/
inductive ScalarText : List Char → Prop
  | null : ScalarText ['n', 'u', 'l', 'l']
  | yes : ScalarText ['t', 'r', 'u', 'e']
  | no : ScalarText ['f', 'a', 'l', 's', 'e']
  | unsigned {w : List Char} : Unsigned w → ScalarText w
  | negative {w : List Char} : Unsigned w → ScalarText ('-' :: w)
  | text {w : List Char} : LooseText w → ScalarText ('"' :: w ++ ['"'])

/-- What a value is made of. -/
inductive Phrase
  | value
  /-- An item between brackets, with the blanks in front of it: of a list a
  value, of an object a key, a colon and a value. -/
  | item (b : Bracket)
  /-- All from behind an opening bracket up to and with the closing one. -/
  | inside (b : Bracket)
  /-- All from behind an item up to and with the closing bracket. -/
  | after (b : Bracket)

/-- The texts of values of any depth. -/
inductive Written : Phrase → List Char → Prop
  | scalar {w : List Char} : ScalarText w → Written .value w
  | bracketed {b : Bracket} {w : List Char} :
      Written (.inside b) w → Written .value (b.opening :: w)
  | element {a v : List Char} : Gap a → Written .value v → Written (.item .list) (a ++ v)
  | member {a key m c v : List Char} : Gap a → LooseText key → Gap m → Gap c →
      Written .value v → Written (.item .object) (a ++ '"' :: key ++ '"' :: m ++ ':' :: c ++ v)
  | empty {b : Bracket} {z : List Char} : Gap z → Written (.inside b) (z ++ [b.close])
  | items {b : Bracket} {u t : List Char} :
      Written (.item b) u → Written (.after b) t → Written (.inside b) (u ++ t)
  | close {b : Bracket} {z : List Char} : Gap z → Written (.after b) (z ++ [b.close])
  | more {b : Bracket} {z u t : List Char} : Gap z → Written (.item b) u →
      Written (.after b) t → Written (.after b) (z ++ ',' :: u ++ t)

/-! ## lists of things -/

/-- Things from behind one of them up to and with the closing bracket. -/
inductive ItemsAfter {α : Type} (P : List Char → α → Prop) (close : Char) :
    List Char → List α → Prop
  | close {z : List Char} : Gap z → ItemsAfter P close (z ++ [close]) []
  | more {z u t : List Char} {x : α} {xs : List α} : Gap z → P u x →
      ItemsAfter P close t xs → ItemsAfter P close (z ++ ',' :: u ++ t) (x :: xs)

/-- Things from behind the opening bracket up to and with the closing one. -/
inductive ItemsInside {α : Type} (P : List Char → α → Prop) (close : Char) :
    List Char → List α → Prop
  | empty {z : List Char} : Gap z → ItemsInside P close (z ++ [close]) []
  | items {u t : List Char} {x : α} {xs : List α} : P u x →
      ItemsAfter P close t xs → ItemsInside P close (u ++ t) (x :: xs)

/-! ## tables -/

/-- A member of an entry's object: its key as it reads, and its value as it is
written. -/
structure Member where
  key : String
  value : List Char

/-- A member with the blanks in front of it. -/
inductive MemberText : List Char → Member → Prop
  | mk {a k m c v : List Char} {key : String} : Gap a → StringText k key → Gap m → Gap c →
      MemberText (a ++ k ++ m ++ ':' :: c ++ v) { key, value := v }

/-- Whether the value of a member is what its key asks for in the object of
`e`: the id, the text, or any value at all. -/
def Member.Fits (e : Entry) (m : Member) : Prop :=
  if m.key = "i" then IdText m.value e.id
  else if m.key = "str" then StringText m.value e.value
  else Written .value m.value

/-- How often a key stands among members. -/
def countKey (key : String) (ms : List Member) : Nat :=
  ms.countP fun m => m.key = key

/-- An entry: an object that has the two keys once each, among any others, or a
list of the id and the text. -/
inductive EntryText : List Char → Entry → Prop
  | object {w : List Char} {ms : List Member} {e : Entry} :
      ItemsInside MemberText '}' w ms → countKey "i" ms = 1 → countKey "str" ms = 1 →
      (∀ m ∈ ms, m.Fits e) → EntryText ('{' :: w) e
  | pair {a i m c s z : List Char} {id : UInt64} {value : String} :
      Gap a → IdText i id → Gap m → Gap c → StringText s value → Gap z →
      EntryText ('[' :: a ++ i ++ m ++ ',' :: c ++ s ++ z ++ [']']) { id, value }

/-- A table: a list of entries with blanks around it. -/
def TableText (w : List Char) (es : List Entry) : Prop :=
  ∃ a body z, Gap a ∧ ItemsInside (Spaced EntryText) ']' body es ∧ Gap z ∧
    w = a ++ '[' :: body ++ z

end PoolEnum.Table
