import PoolEnum.Proofs.Settings.Document
import PoolEnum.Proofs.Toml.Document

/-!
# PoolEnum.Proofs.Settings.Lines

Settings from lines that each bind a key, in any order.

The entries of such a document are those of its lines (`Toml.parse_of_joined`), and settings
only depend on which entries there are (`Settings.ofEntries_eq_of_perm`).
-/

namespace PoolEnum

open Toml (BindingLine Denotes JoinedLines Distinct Entries)

/-! ## limits above zero -/

/-- An integer `Fits` no key but `id_limit`. -/
theorem Fits.eq_idLimit {key : String} {n : Int} (h : Fits key (.integer n)) :
    key = "id_limit" := by
  cases h
  rfl

/-- What `Fits` the key `id_limit` is an integer that 64 bits hold. -/
theorem Fits.exists_natural {key : String} {v : Toml.Value} (h : Fits key v)
    (hkey : key = "id_limit") : ∃ n : Nat, n < UInt64.size ∧ v = .integer n := by
  cases h with
  | input path => exact absurd hkey (by decide)
  | output path => exact absurd hkey (by decide)
  | enumName name => exact absurd hkey (by decide)
  | idLimit n hn => exact ⟨n, hn, rfl⟩

/-- The limit that fitting entries give is zero iff one of them says so. -/
theorem naturalAt_ne_zero_iff {entries : Entries} (hkeys : Distinct entries)
    (hfits : ∀ e ∈ entries, Fits e.1 e.2) :
    Toml.naturalAt entries "id_limit" 10000 ≠ 0 ↔ ∀ e ∈ entries, e.2 ≠ .integer 0 := by
  constructor
  · intro hne e he hzero
    obtain ⟨key, v⟩ := e
    obtain rfl : v = .integer 0 := hzero
    obtain rfl := (hfits _ he).eq_idLimit
    have hlookup := (Toml.lookup_eq_some_iff_mem hkeys).mpr he
    exact hne (by rw [Toml.naturalAt, hlookup]; rfl)
  · intro hall
    unfold Toml.naturalAt
    cases hlookup : entries.lookup "id_limit" with
    | none =>
        dsimp only
        decide
    | some v =>
        have hmem := (Toml.lookup_eq_some_iff_mem hkeys).mp hlookup
        obtain ⟨n, hn, rfl⟩ := (hfits _ hmem).exists_natural rfl
        have hne : n ≠ 0 := by
          rintro rfl
          exact hall _ hmem rfl
        intro hzero
        have hnat := congrArg UInt64.toNat hzero
        dsimp only at hnat
        rw [Int.toNat_natCast, UInt64.toNat_ofNat_of_lt' hn] at hnat
        exact hne hnat

namespace Settings

/-- What `ofDocument` makes of settings does not depend on the order of the lines. -/
theorem ofDocument_lines (lines : List BindingLine)
    (hkeys : (lines.map BindingLine.key).Nodup) :
    let entries := lines.map BindingLine.entry
    let enumName := Toml.textAt entries "enum_name" "StrPoolCodes"
    ∃ outcome : Except DocumentFault Settings,
      (∀ lines' text, lines'.Perm lines → JoinedLines lines' text →
        ofDocument (String.ofList text) = outcome) ∧
      ((∃ s, outcome = .ok s) ↔
        (∀ b ∈ lines, Fits b.key b.value ∧ b.value ≠ .integer 0) ∧ isIdentifier enumName) ∧
      (∀ s, outcome = .ok s → s = {
        input := Toml.textAt entries "input" "data/re/strs.json"
        output := Toml.textAt entries "output" "str_enum.h"
        enumName
        idLimit := Toml.naturalAt entries "id_limit" 10000 }) ∧
      ∀ fault, outcome = .error fault →
        (∃ b ∈ lines, Offends b.key b.value fault ∧
          ∀ other ∈ lines, ¬ Fits other.key other.value → b.key ≤ other.key) ∨
        (∀ b ∈ lines, Fits b.key b.value) ∧
          fault = .refused (if isIdentifier enumName then .zeroLimit else .notIdentifier enumName) := by
  intro entries enumName
  have hdistinct : Distinct entries := by
    unfold Distinct
    rw [List.map_map]
    exact hkeys
  have hentry : ∀ b ∈ lines, b.entry ∈ entries := fun b hb => List.mem_map_of_mem hb
  refine ⟨ofEntries entries, ?order, ?_⟩
  case order =>
    intro lines' text hperm hjoined
    have hentries : (lines'.map BindingLine.entry).Perm entries := hperm.map _
    have hdistinct' := hdistinct.of_perm hentries.symm
    rw [ofDocument_of_parse (Toml.parse_of_joined hjoined hdistinct'),
      ofEntries_eq_of_perm hentries hdistinct']
  -- What is left only looks at how the entries settle.
  have hsettles := settles_ofEntries hdistinct
  generalize ofEntries entries = outcome at hsettles
  cases hsettles with
  | accepted hfits hcheck =>
      obtain ⟨hname, hlimit⟩ := fault?_eq_none_iff.mp hcheck
      have hpositive := (naturalAt_ne_zero_iff hdistinct hfits).mp hlimit
      refine ⟨?success, fun s hs => (Except.ok.inj hs).symm, fun fault hfault => ?fault⟩
      case success =>
        refine ⟨fun _ => ⟨fun b hb => ?_, hname⟩, fun _ => ⟨_, rfl⟩⟩
        exact ⟨hfits _ (hentry b hb), hpositive _ (hentry b hb)⟩
      case fault => contradiction
  | refused hfits hcheck =>
      obtain ⟨hbad, rfl⟩ := fault?_eq_some_iff.mp hcheck
      have hlines : ∀ b ∈ lines, Fits b.key b.value := fun b hb => hfits _ (hentry b hb)
      refine ⟨⟨fun ⟨s, hs⟩ => ?failure, fun ⟨hgood, hname⟩ => ?success⟩, fun s hs => ?failure',
        fun fault hfault => .inr ⟨hlines, (Except.error.inj hfault).symm⟩⟩
      case failure => contradiction
      case failure' => contradiction
      case success =>
        refine absurd ⟨hname, ?_⟩ hbad
        refine (naturalAt_ne_zero_iff hdistinct hfits).mpr fun e he => ?_
        obtain ⟨b, hb, rfl⟩ := List.mem_map.mp he
        exact (hgood b hb).2
  | offended hmem hoffends hleast =>
      obtain ⟨b, hb, heq⟩ := List.mem_map.mp hmem
      obtain ⟨rfl, rfl⟩ := Prod.mk.inj heq
      refine ⟨⟨fun ⟨s, hs⟩ => ?failure, fun ⟨hgood, _⟩ => ?success⟩, fun s hs => ?failure',
        fun fault hfault => .inl ⟨b, hb, ?first⟩⟩
      case failure => contradiction
      case failure' => contradiction
      case success => exact absurd (hgood b hb).1 hoffends.not_fits
      case first =>
        obtain rfl := Except.error.inj hfault
        exact ⟨hoffends, fun other hother => hleast _ (hentry other hother)⟩

/-- What stands behind the equals sign of a line with a path `Denotes` that path. -/
theorem denotes_path : Denotes " \"codes.h\"".toList (.text "codes.h") := by
  have hitem : Toml.readLastItem " \"codes.h\"".toList = some (.text (some "codes.h"), []) := by
    cbv
  exact .item ⟨by decide, by decide⟩ hitem rfl rfl

/-- What stands behind the equals sign of a line with a number `Denotes` that number. -/
theorem denotes_number : Denotes " 100".toList (.integer 100) :=
  .item ⟨by decide, by decide⟩ rfl rfl rfl

/-- A line with a path for the output. -/
def outputLine : BindingLine :=
  .ofItem "output".toList [' '] " \"codes.h\"".toList (by decide) rfl rfl denotes_path

/-- A line with a limit. -/
def limitLine : BindingLine :=
  .ofItem "id_limit".toList [' '] " 100".toList (by decide) rfl rfl denotes_number

/-- The entries of two lines that settings can take over. -/
theorem map_entry_fitting :
    [outputLine, limitLine].map BindingLine.entry =
      [("output", .text "codes.h"), ("id_limit", .integer 100)] := by
  rfl

/-- Both of these lines fit, and neither says zero. -/
theorem fits_fitting :
    ∀ b ∈ [outputLine, limitLine], Fits b.key b.value ∧ b.value ≠ .integer 0 := by
  have htext : Toml.Value.text "codes.h" ≠ .integer 0 := by simp
  have hpositive : Toml.Value.integer 100 ≠ .integer 0 := by simp
  rw [List.forall_mem_cons, List.forall_mem_singleton]
  exact ⟨⟨.output "codes.h", htext⟩, .idLimit 100 (by decide), hpositive⟩

/-- A line with a key that is no setting. -/
def unknownLine : BindingLine :=
  .ofItem "colour".toList [' '] " true".toList (by decide) rfl rfl
    (.item ⟨by decide, by decide⟩ rfl rfl rfl)

/-- The key of `unknownLine`, as it is written. -/
theorem key_unknownLine : unknownLine.key = "colour" :=
  String.ofList_toList

/-- The entry of `unknownLine` does not fit: its key is no setting. -/
theorem not_fits_unknownLine : ¬ Fits unknownLine.key unknownLine.value := by
  intro hfits
  have hmem := hfits.mem_settingKeys
  rw [key_unknownLine] at hmem
  exact absurd hmem (by decide)

/-- The fault of `unknownLine` tells its key. -/
theorem eq_unknownKey_of_offends {fault : DocumentFault}
    (h : Offends unknownLine.key unknownLine.value fault) : fault = .unknownKey "colour" := by
  rw [key_unknownLine] at h
  cases h with
  | unknown _ => rfl
  | unfit hkey _ => exact absurd hkey (by decide)

/-- A line with a value that is not what the setting wants. -/
def unfitLine : BindingLine :=
  .ofItem "output".toList [' '] " true".toList (by decide) rfl rfl
    (.item ⟨by decide, by decide⟩ rfl rfl rfl)

/-- Two lines in both orders. A path and a number give the same settings. If both lines
offend, the one with the lesser key is reported, wherever it is. -/
theorem ofDocument_lines_swapped :
    (([outputLine, limitLine].map BindingLine.key).Nodup ∧
      ofDocument "output = \"codes.h\"\nid_limit = 100\n" =
        .ok { output := "codes.h", idLimit := 100 } ∧
      ofDocument "id_limit = 100\r\noutput = \"codes.h\"" =
        .ok { output := "codes.h", idLimit := 100 }) ∧
    ([unfitLine, unknownLine].map BindingLine.key).Nodup ∧
      ofDocument "output = true\ncolour = true" = .error (.unknownKey "colour") ∧
      ofDocument "colour = true\r\noutput = true\n" = .error (.unknownKey "colour") := by
  constructor
  · have hkeys : ([outputLine, limitLine].map BindingLine.key).Nodup := by
      have hmap : [outputLine, limitLine].map BindingLine.key = ["output", "id_limit"] := rfl
      rw [hmap]
      decide
    obtain ⟨outcome, horder, hsuccess, hgiven, -⟩ := ofDocument_lines _ hkeys
    obtain ⟨s, rfl⟩ := hsuccess.mpr ⟨fits_fitting, by rw [map_entry_fitting]; decide⟩
    have hs : s = { output := "codes.h", idLimit := 100 } := by
      rw [hgiven s rfl, map_entry_fitting]
      decide
    have hforward : "output = \"codes.h\"\nid_limit = 100\n" =
        String.ofList (outputLine.line ++ ['\n'] ++ (limitLine.line ++ ['\n'] ++ [])) :=
      String.ofList_toList.symm
    have hbackward : "id_limit = 100\r\noutput = \"codes.h\"" =
        String.ofList (limitLine.line ++ ['\r', '\n'] ++ outputLine.line) :=
      String.ofList_toList.symm
    rw [hforward, hbackward, ← hs]
    refine ⟨hkeys, horder [outputLine, limitLine] _ (.refl _) ?forward,
      horder [limitLine, outputLine] _ (.swap _ _ _) ?backward⟩
    case forward => exact .cons (.inl rfl) (.cons (.inl rfl) .none)
    case backward => exact .cons (.inr rfl) (.last _)
  · have hunfit : unfitLine.key = "output" := String.ofList_toList
    have hkeys : ([unfitLine, unknownLine].map BindingLine.key).Nodup := by
      simp [hunfit, key_unknownLine]
    obtain ⟨outcome, horder, hsuccess, -, herror⟩ := ofDocument_lines _ hkeys
    have houtcome : outcome = .error (.unknownKey "colour") := by
      cases outcome with
      | ok s => exact absurd ((hsuccess.mp ⟨s, rfl⟩).1 unknownLine (by simp)).1 not_fits_unknownLine
      | error fault =>
          rcases herror fault rfl with ⟨b, hb, hoffends, hleast⟩ | ⟨hfits, -⟩
          · have hle := hleast unknownLine (by simp) not_fits_unknownLine
            simp only [List.mem_cons, List.not_mem_nil, or_false] at hb
            rcases hb with rfl | rfl
            · rw [hunfit, key_unknownLine] at hle
              exact absurd hle (by decide)
            · rw [eq_unknownKey_of_offends hoffends]
          · exact absurd (hfits unknownLine (by simp)) not_fits_unknownLine
    have hforward : "output = true\ncolour = true" =
        String.ofList (unfitLine.line ++ ['\n'] ++ unknownLine.line) := String.ofList_toList.symm
    have hbackward : "colour = true\r\noutput = true\n" =
        String.ofList (unknownLine.line ++ ['\r', '\n'] ++ (unfitLine.line ++ ['\n'] ++ [])) :=
      String.ofList_toList.symm
    rw [hforward, hbackward, ← houtcome]
    refine ⟨hkeys, horder [unfitLine, unknownLine] _ (.refl _) ?forward,
      horder [unknownLine, unfitLine] _ (.swap _ _ _) ?backward⟩
    case forward => exact .cons (.inl rfl) (.last _)
    case backward => exact .cons (.inr rfl) (.cons (.inl rfl) .none)

end Settings

end PoolEnum
