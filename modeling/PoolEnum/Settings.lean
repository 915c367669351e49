import PoolEnum.Files.Path
import PoolEnum.Name.Basic

/-!
# PoolEnum.Settings

The settings of a run, their defaults, and which of them are acceptable.

A `Generator` is settings that passed the check, so everything that runs on
one can rely on an enum name that is an identifier and on a limit above zero.
-/

namespace PoolEnum

/-- Where to read, where to write, and how the enum is made. -/
structure Settings where
  /-- The string table. -/
  input : String := "data/re/strs.json"
  /-- The enum file, replaced if it is there. -/
  output : String := "str_enum.h"
  /-- The name of the enum. It may be longer than `maxNameLength`. -/
  enumName : String := "StrPoolCodes"
  /-- The first reserved id. -/
  idLimit : UInt64 := 10000
  deriving DecidableEq, Repr

/-- Why settings are refused. -/
inductive SettingsFault
  | notIdentifier (enumName : String)
  | zeroLimit
  deriving DecidableEq, Repr

/-- The reason in words. -/
def SettingsFault.message : SettingsFault → String
  | notIdentifier enumName => "enum_name '" ++ enumName ++ "' is not a valid identifier"
  | zeroLimit => "id_limit must be greater than zero"

namespace Settings

/-- What is wrong with the settings, the enum name first. -/
def fault? (s : Settings) : Option SettingsFault :=
  if !isIdentifier s.enumName then some (.notIdentifier s.enumName)
  else if s.idLimit = 0 then some .zeroLimit
  else none

/-- Settings are accepted iff the enum has a name and some id is not reserved. -/
theorem fault?_eq_none_iff {s : Settings} :
    s.fault? = none ↔ isIdentifier s.enumName ∧ s.idLimit ≠ 0 := by
  unfold fault?
  cases isIdentifier s.enumName <;> by_cases hlimit : s.idLimit = 0 <;> simp [hlimit]

/-- Of two faults that of the enum name counts. -/
theorem fault?_eq_some_iff {s : Settings} {fault : SettingsFault} :
    s.fault? = some fault ↔ ¬ (isIdentifier s.enumName ∧ s.idLimit ≠ 0) ∧
      fault = if isIdentifier s.enumName then .zeroLimit else .notIdentifier s.enumName := by
  unfold fault?
  cases isIdentifier s.enumName <;> by_cases hlimit : s.idLimit = 0 <;> simp [hlimit, eq_comm]

/-- Whether two settings mean the same: paths count by their steps. -/
def same (s t : Settings) : Bool :=
  Path.steps s.input == Path.steps t.input && Path.steps s.output == Path.steps t.output &&
    s.enumName == t.enumName && s.idLimit == t.idLimit

end Settings

/-- Settings that are acceptable. -/
structure Generator where
  settings : Settings
  accepted : settings.fault? = none

/-- Settings as a generator, unless they are refused. -/
def Generator.ofSettings (s : Settings) : Except SettingsFault Generator :=
  match h : s.fault? with
  | none => .ok { settings := s, accepted := h }
  | some fault => .error fault

end PoolEnum
