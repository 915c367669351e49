import PoolEnum.Text.Hidden

/-!
# PoolEnum.Text.Quoted

A text between double quotes, every character of it visible: five characters
have short escapes, the hidden ones (`PoolEnum.Text.Hidden`) are written by code
point in hexadecimal, and all others stand for themselves.
-/

namespace PoolEnum

/-- The written form of one character. -/
def quoteChar (c : Char) : String :=
  if c = '\x00' then "\\0"
  else if c = '\t' then "\\t"
  else if c = '\n' then "\\n"
  else if c = '\r' then "\\r"
  else if c = '"' then "\\\""
  else if c = '\\' then "\\\\"
  else if isHidden c then
    "\\u\x7b" ++ String.ofList (Nat.toDigits 16 c.toNat) ++ "\x7d"
  else c.toString

/-- The written form of a text. -/
def quote (s : String) : String :=
  "\"" ++ String.join (s.toList.map quoteChar) ++ "\""

end PoolEnum
