import PoolEnum.Decimal.Style
import PoolEnum.Mismatch
import PoolEnum.Settings
import PoolEnum.Toml.Document

/-!
# PoolEnum.Settings.Document

Settings from a TOML document.

Each setting has a key and a default, so the empty document is one, and no other
keys are allowed. Keys are looked at in the order of their characters, wherever
they stand in the document; the first one that is unknown or has a value of the
wrong kind is reported. Only then is the whole checked as settings.
-/

namespace PoolEnum

/-- What is wrong with a settings document. -/
inductive DocumentFault
  /-- It is no TOML document. -/
  | toml (fault : Toml.Fault)
  /-- A key that is no setting. -/
  | unknownKey (key : String)
  /-- A value of the wrong kind. -/
  | mismatch (m : Mismatch)
  /-- A number that has no value, or one too large to be shown. -/
  | number
  /-- Settings that are refused. -/
  | refused (f : SettingsFault)
  deriving DecidableEq, Repr

/-- The keys of settings, as they are listed. -/
def settingKeys : List String := ["input", "output", "enum_name", "id_limit"]

/-- What a value of the wrong kind or an unknown key is called. Other faults of a
document have no words of their own. -/
def DocumentFault.reason? : DocumentFault → Option String
  | toml _ => none
  | unknownKey key =>
    some ("unknown field " ++ marked key ++ ", expected one of " ++
      ", ".intercalate (settingKeys.map marked))
  | mismatch m => some m.message
  | number => none
  | refused _ => none

/-- The fault in words. -/
def DocumentFault.message : DocumentFault → String
  | refused f => f.message
  | toml .tooDeep => "recursion limit\n"
  | fault => "TOML parse error\n" ++ fault.reason?.getD "malformed document" ++ "\n"

namespace Toml

/-- How floating-point numbers of a document are shown: with all their places, and
the larger digit where two are equally near. -/
def documentStyle : DecimalStyle :=
  { least := none, most := none, tie := .up }

/-- The text of a number, unless it is beyond the range of doubles. -/
def FloatLiteral.text? : FloatLiteral → Option String
  | nan => some "NaN"
  | infinite negative => some (if negative then "-inf" else "inf")
  | finite negative mantissa exponent =>
    let size : Int := digitCount mantissa + exponent
    let magnitude : Option Float :=
      if mantissa = 0 ∨ size < -400 then some 0
      else if 400 < size then none
      else
        let x := Float.ofScientific mantissa (exponent < 0) exponent.natAbs
        if x.isInf then none else some x
    magnitude.map fun x => finiteText documentStyle (if negative then -x else x)

/-- A value as a reader of settings meets it. -/
def Value.found : Value → Except DocumentFault Found
  | text s => .ok (.text s)
  | integer n =>
    if -(Nat.pow 2 63 : Int) ≤ n ∧ n < Nat.pow 2 64 then .ok (.integer n)
    else if -(Nat.pow 2 127 : Int) ≤ n ∧ n < Nat.pow 2 128 then .ok (.wide n)
    else .error .number
  | float x =>
    match x.text? with
    | some s => .ok (.float s)
    | none => .error .number
  | unreadable => .error .number
  | boolean b => .ok (.boolean b)
  | moment => .ok .map
  | array _ => .ok .sequence
  | tables _ => .ok .sequence
  | table _ _ => .ok .map

/-- A value as a text. -/
def Value.asText (wanted : Wanted) (v : Value) : Except DocumentFault String :=
  match v.found with
  | .ok (.text s) => .ok s
  | .ok found => .error (.mismatch { found, wanted })
  | .error fault => .error fault

/-- A value as an id. -/
def Value.asId (v : Value) : Except DocumentFault UInt64 :=
  match v.found with
  | .ok (.integer (.ofNat n)) => .ok (UInt64.ofNat n)
  | .ok found => .error (.mismatch { found, wanted := .id })
  | .error fault => .error fault

/-- Entries in the order of their keys. -/
def sortEntries (entries : Entries) : Entries :=
  entries.mergeSort fun a b => a.1 ≤ b.1

end Toml

namespace Settings

/-- Settings with one of them changed. -/
def set (s : Settings) (key : String) (v : Toml.Value) : Except DocumentFault Settings :=
  if key = "input" then (v.asText .path).map fun path => { s with input := path }
  else if key = "output" then (v.asText .path).map fun path => { s with output := path }
  else if key = "enum_name" then (v.asText .text).map fun name => { s with enumName := name }
  else if key = "id_limit" then v.asId.map fun limit => { s with idLimit := limit }
  else .error (.unknownKey key)

/-- Settings with several of them changed, one after another. -/
def setAll (s : Settings) : Toml.Entries → Except DocumentFault Settings
  | [] => .ok s
  | (key, v) :: entries =>
    match s.set key v with
    | .ok s => s.setAll entries
    | .error fault => .error fault

/-- The settings of a document. -/
def ofDocument (text : String) : Except DocumentFault Settings :=
  match Toml.parse text with
  | .error fault => .error (.toml fault)
  | .ok entries =>
    match setAll {} (Toml.sortEntries entries) with
    | .error fault => .error fault
    | .ok s =>
      match s.fault? with
      | some fault => .error (.refused fault)
      | none => .ok s

end Settings

end PoolEnum
