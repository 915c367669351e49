import Mathlib
import PoolEnum.Command.Outcome
import PoolEnum.Proofs.Run
import PoolEnum.Proofs.Settings.Lines
import PoolEnum.Proofs.Table.Entries

/-!
# PoolEnum.Proofs.Command.Execution

What the command does with its settings.

`Tree.Configures` says where they may come from: from no document, or from one that can be
read and whose entries settings can take over. Flags only replace paths, which are never
refused (`Options.fault?_override`), so settings that were accepted once are accepted again.
-/

namespace PoolEnum

/-! ## settings documents on trees -/

/-- What a tree has for the settings of a run: without a document there are no entries, and
a document has to be text, to be well formed, and to give settings that are accepted. -/
inductive Tree.Configures (t : Tree) : Option String → Toml.Entries → Prop
  | default : Configures t none []
  | document {path text : String} {entries : Toml.Entries}
    (hread : t.read path = .ok text.toUTF8) (hparse : Toml.parse text = .ok entries)
    (hfits : ∀ e ∈ entries, Fits e.1 e.2) (hcheck : (Settings.given entries).fault? = none) :
    Configures t (some path) entries

namespace Tree

variable {t : Tree} {path : String} {entries : Toml.Entries}

/-- Settings from entries that a tree `Configures` are accepted. -/
theorem Configures.accepted {config : Option String} (h : t.Configures config entries) :
    (Settings.given entries).fault? = none := by
  cases h with
  | default => rfl
  | document _ _ _ hcheck => exact hcheck

/-- What `Configures` allows is decided by the text of the document, if it has one. -/
theorem configures_iff_of_read {text : String} (hread : t.read path = .ok text.toUTF8) :
    t.Configures (some path) entries ↔ Toml.parse text = .ok entries ∧
      (∀ e ∈ entries, Fits e.1 e.2) ∧ (Settings.given entries).fault? = none := by
  constructor
  · intro h
    cases h with
    | @document _ text' _ hread' hparse hfits hcheck =>
        have hbytes : text.toUTF8 = text'.toUTF8 := Except.ok.inj (hread.symm.trans hread')
        have htext : some text' = some text :=
          (fromUTF8?_eq_some_iff.mpr hbytes).symm.trans (fromUTF8?_eq_some_iff.mpr rfl)
        exact ⟨Option.some.inj htext ▸ hparse, hfits, hcheck⟩
  · intro h
    obtain ⟨hparse, hfits, hcheck⟩ := h
    exact .document hread hparse hfits hcheck

/-- `loadSettings` gives the settings that a tree `Configures`. -/
theorem loadSettings_of_configures (h : t.Configures (some path) entries) :
    storage.loadSettings path t = (.ok (.given entries), t) := by
  cases h with
  | document hread hparse hfits hcheck =>
      have hsettings := Settings.ofDocument_eq_ok_iff.mpr ⟨_, hparse, hfits, hcheck, rfl⟩
      rw [Storage.loadSettings, bind_of_eq (readText_of_text hread)]
      simp only [hsettings]
      rfl

/-- `loadSettings` fails where a tree `Configures` nothing, and leaves it as it is. -/
theorem loadSettings_of_not_configures (h : ∀ entries, ¬ t.Configures (some path) entries) :
    ∃ failure, storage.loadSettings path t = (.error failure, t) := by
  rw [Storage.loadSettings]
  cases hread : t.read path with
  | error fault =>
      rw [bind_of_eq (readText_of_error hread)]
      exact ⟨_, rfl⟩
  | ok bytes =>
      by_cases htext : ∃ text : String, bytes = text.toUTF8
      · obtain ⟨text, rfl⟩ := htext
        rw [bind_of_eq (readText_of_text hread)]
        cases hsettings : Settings.ofDocument text with
        | error fault =>
            simp only [hsettings]
            exact ⟨_, rfl⟩
        | ok s =>
            obtain ⟨entries, hparse, hfits, hcheck, -⟩ := Settings.ofDocument_eq_ok_iff.mp hsettings
            exact absurd (.document hread hparse hfits hcheck) (h entries)
      · rw [bind_of_eq (readText_of_notText hread (not_exists.mp htext))]
        exact ⟨_, rfl⟩

end Tree

/-- `ofSettings` makes a generator of settings that are accepted. -/
theorem Generator.ofSettings_of_accepted {s : Settings} (h : s.fault? = none) :
    Generator.ofSettings s = .ok { settings := s, accepted := h } := by
  unfold Generator.ofSettings
  split
  · rfl
  · next fault hfault =>
    rw [h] at hfault
    contradiction

/-- A `run` that fails leaves the tree as it is. -/
theorem Generator.left_of_not_ok {g : Generator} {t : Tree}
    (h : ¬ ∃ report, (g.run Tree.storage t).1.1 = .ok report) :
    (g.run Tree.storage t).2 = t := by
  rcases g.run_cases t with ⟨failure, hfails⟩ | ⟨_, made, _, _, -, -, -, hrun⟩
  · obtain ⟨log, hrun⟩ := run_of_fails hfails
    rw [hrun]
  · exact absurd ⟨made.report, by rw [hrun]⟩ h

namespace Command

/-! ## runs of the command -/

/-- The trial that a run of a generator is. -/
def Trial.ofRun (g : Generator) : Except Failure Report × List Event → Trial
  | (.ok _, log) => { log, trouble := none }
  | (.error failure, log) => { log, trouble := some { task := .generate g.settings.input, failure } }

/-- `Trial.ofRun` exits with 0 or 1, and with 0 iff the run has a report. -/
theorem Trial.exit_ofRun (g : Generator) (result : Except Failure Report × List Event)
    (filter : LogFilter) :
    ((Trial.ofRun g result).outcome filter).exit ≤ 1 ∧
      (((Trial.ofRun g result).outcome filter).exit = 0 ↔ ∃ report, result.1 = .ok report) := by
  obtain ⟨outcome, log⟩ := result
  cases outcome <;> simp [Trial.ofRun, Trial.outcome]

/-- The trouble of `Trial.ofRun` is with the task to generate. -/
theorem Trial.task_of_ofRun {g : Generator} {result : Except Failure Report × List Event}
    {trouble : Trouble} (h : (Trial.ofRun g result).trouble = some trouble) :
    trouble.task = .generate g.settings.input := by
  obtain ⟨outcome, log⟩ := result
  cases outcome with
  | ok report => contradiction
  | error failure =>
      obtain rfl := Option.some.inj h
      rfl

namespace Options

variable {o : Options} {t : Tree} {entries : Toml.Entries}

/-- Paths are never refused, so `override` brings no fault and takes none away. -/
theorem fault?_override (o : Options) (s : Settings) : (o.override s).fault? = s.fault? := by
  rfl

/-- `settings` are those of the document that a tree `Configures`, with the paths of the flags. -/
theorem settings_of_configures (h : t.Configures o.config entries) :
    o.settings Tree.storage t = (.ok (o.override (.given entries)), t) := by
  unfold settings
  cases hconfig : o.config with
  | none =>
      rw [hconfig] at h
      cases h
      rfl
  | some path =>
      rw [hconfig] at h
      dsimp only
      rw [bind_of_eq (Tree.loadSettings_of_configures h)]
      rfl

/-- `settings` fail to load where a tree `Configures` nothing, which takes a document. -/
theorem settings_of_not_configures (h : ∀ entries, ¬ t.Configures o.config entries) :
    ∃ path failure, o.config = some path ∧
      o.settings Tree.storage t = (.error { task := .load path, failure }, t) := by
  unfold settings
  cases hconfig : o.config with
  | none =>
      rw [hconfig] at h
      exact absurd .default (h [])
  | some path =>
      rw [hconfig] at h
      obtain ⟨failure, hload⟩ := Tree.loadSettings_of_not_configures h
      refine ⟨path, failure, rfl, ?_⟩
      dsimp only
      rw [bind_of_eq hload]
      rfl

/-- The generator of a run: the settings that a document gives, with the paths of the flags. -/
def generator (o : Options) (h : t.Configures o.config entries) : Generator where
  settings := o.override (.given entries)
  accepted := (o.fault?_override _).trans h.accepted

/-- `run` does what its `generator` does, where a tree `Configures` it. -/
theorem run_of_configures (h : t.Configures o.config entries) :
    o.run Tree.storage t =
      (.ofRun (o.generator h) ((o.generator h).run Tree.storage t).1,
        ((o.generator h).run Tree.storage t).2) := by
  have hgenerator : Generator.ofSettings (o.override (.given entries)) = .ok (o.generator h) :=
    Generator.ofSettings_of_accepted _
  unfold run
  rw [bind_of_eq (settings_of_configures h)]
  dsimp only
  rw [hgenerator]
  dsimp only
  cases hrun : (o.generator h).run Tree.storage t with
  | mk result left =>
      rw [bind_of_eq hrun]
      obtain ⟨outcome, log⟩ := result
      cases outcome <;> rfl

/-- `run` fails before anything else where a tree `Configures` nothing. -/
theorem run_of_not_configures (h : ∀ entries, ¬ t.Configures o.config entries) :
    ∃ path failure, o.config = some path ∧ o.run Tree.storage t =
      ({ log := [], trouble := some { task := .load path, failure } }, t) := by
  obtain ⟨path, failure, hconfig, hsettings⟩ := settings_of_not_configures h
  refine ⟨path, failure, hconfig, ?_⟩
  unfold run
  rw [bind_of_eq hsettings]
  rfl

end Options

/-- `execute` with arguments that are understood is the outcome of `run`. -/
theorem execute_of_parse {arguments : List String} {o : Options} (h : parse arguments = .ok o)
    (request : Option String) (t : Tree) :
    execute arguments request Tree.storage t =
      ((o.run Tree.storage t).1.outcome (.choose request o.verbose), (o.run Tree.storage t).2) := by
  unfold execute
  rw [h]
  rfl

/-! ## the words of a failure -/

/-- Texts that begin differently differ, whatever is behind the first one. -/
theorem append_ne_of_head? {a b rest : String} (ha : a ≠ "")
    (h : a.toList.head? ≠ b.toList.head?) : a ++ rest ≠ b := by
  intro heq
  have hne : a.toList ≠ [] := by simpa using ha
  apply h
  rw [← heq, String.toList_append, List.head?_append_of_ne_nil _ hne]

/-- No task but the check has the words of a failed check. -/
theorem failed_ne_of_ne_check {task : Task} (h : task ≠ .check) :
    task.failed ≠ Task.failed .check := by
  cases task with
  | check => exact absurd rfl h
  | load config => exact append_ne_of_head? (by decide) (by decide)
  | generate input => exact append_ne_of_head? (by decide) (by decide)

/-- `causeLines` are indented. -/
theorem exists_blanks_of_mem_causeLines {causes : List String} {line : String}
    (h : line ∈ causeLines causes) : ∃ rest, line = "    " ++ rest := by
  unfold causeLines at h
  split at h
  · exact ⟨_, List.mem_singleton.mp h⟩
  · obtain ⟨⟨cause, n⟩, -, rfl⟩ := List.mem_map.mp h
    exact ⟨toString n ++ ": " ++ hang "       " cause, by simp [String.append_assoc]⟩

/-- The words for a failed check stand nowhere in the `messages` of a trial that failed elsewhere or
not at all. -/
theorem check_not_mem_messages {trial : Trial}
    (h : ∀ trouble, trial.trouble = some trouble → trouble.task ≠ .check) (filter : LogFilter) :
    "Error: " ++ Task.failed .check ∉ trial.messages filter := by
  intro hmem
  rcases List.mem_append.mp hmem with hlog | htrouble
  · obtain ⟨e, -, he⟩ := List.mem_map.mp hlog
    have hlist := congrArg String.toList he
    unfold Event.line at hlist
    cases hlevel : e.level <;> simp [hlevel, Level.label] at hlist
  · cases hsome : trial.trouble with
    | none => simp [hsome] at htrouble
    | some trouble =>
        have hfailed := failed_ne_of_ne_check (h trouble hsome)
        simp only [hsome, Trouble.lines, List.mem_append, List.mem_cons, List.not_mem_nil,
          or_false] at htrouble
        rcases htrouble with (heq | heq | heq) | hcause
        · exact hfailed ((String.append_right_inj _).mp heq).symm
        · exact absurd heq (by decide)
        · exact absurd heq (by decide)
        · obtain ⟨rest, hrest⟩ := exists_blanks_of_mem_causeLines hcause
          exact append_ne_of_head? (by decide) (by decide) hrest.symm

end Command

/-! ## a tree with a table and a document -/

/-- A table with a name that is taken and, if the limit is 100, an id that is reserved. -/
def smallTable : String :=
  "[\x7b\"i\":1,\"str\":\"on\"\x7d,\x7b\"i\":2,\"str\":\"x/on\"\x7d,\x7b\"i\":100,\"str\":\"off\"\x7d]"

/-- The entries of `smallTable`. -/
def smallEntries : List Entry :=
  [{ id := 1, value := "on" }, { id := 2, value := "x/on" }, { id := 100, value := "off" }]

/-- `smallTable` is the table of `smallEntries`. -/
theorem parseEntries_smallTable : Table.parseEntries smallTable = .ok smallEntries := by
  have hitem (e : Entry) (h : ∀ c ∈ e.value.toList, ' ' ≤ c ∧ c ≠ '"' ∧ c ≠ '\\') :
      Table.Spaced Table.EntryText _ e := ⟨[], _, Table.gap_nil, Table.entryText_of_plain e h, rfl⟩
  have hfirst := hitem { id := 1, value := "on" } (by simp)
  have hsecond := hitem { id := 2, value := "x/on" } (by simp)
  have hlast := hitem { id := 100, value := "off" } (by simp)
  have htable : Table.ItemsInside (Table.Spaced Table.EntryText) ']' _ smallEntries :=
    .items hfirst (.more Table.gap_nil hsecond (.more Table.gap_nil hlast (.close Table.gap_nil)))
  refine Table.parseEntries_iff_readTable.mpr (Table.readTable_eq_ok_iff.mpr ?_)
  exact ⟨[], _, [], Table.gap_nil, htable, Table.gap_nil, rfl⟩

/-- A document with a path and a limit. -/
def smallDocument : String :=
  "output = \"codes.h\"\nid_limit = 100\n"

/-- `smallDocument` has a path and a limit. -/
theorem parse_smallDocument :
    Toml.parse smallDocument = .ok [("output", .text "codes.h"), ("id_limit", .integer 100)] := by
  have htext : smallDocument = String.ofList (Settings.outputLine.line ++ ['\n'] ++
      (Settings.limitLine.line ++ ['\n'] ++ [])) := String.ofList_toList.symm
  have hdistinct : Toml.Distinct [("output", .text "codes.h"), ("id_limit", .integer 100)] := by
    unfold Toml.Distinct
    decide
  rw [htext, ← Settings.map_entry_fitting]
  exact Toml.parse_of_joined (.cons (.inl rfl) (.cons (.inl rfl) .none)) hdistinct

/-- A tree with a table where runs look for it by default, and with a document. -/
def Tree.furnished (table document : String) : Tree where
  entries := [(["data"], .directory), (["data", "re"], .directory),
    (["data", "re", "strs.json"], .file table.toUTF8), (["gen.toml"], .file document.toUTF8)]

namespace Tree

variable (table document : String)

/-- A tree that is `furnished` has its table where runs look for it. -/
theorem read_table_furnished :
    (furnished table document).read "data/re/strs.json" = .ok table.toUTF8 := by
  rfl

theorem read_document_furnished :
    (furnished table document).read "gen.toml" = .ok document.toUTF8 := by
  rfl

/-- A tree that is `furnished` has a place for a file in its workplace. -/
theorem replace_furnished (content : ByteArray) :
    storage.replace "flag.h" content (furnished table document) =
      (.ok (), (furnished table document).put ["flag.h"] (.file content)) := by
  have hrooted : (furnished table document).Rooted := by
    have hpath : (furnished table document).workplacePath = "/" := by
      simp [furnished, workplacePath]
    rw [Rooted, hpath]
    rfl
  have hroom : (furnished table document).HasRoom (Path.directory "flag.h") := by
    show ∀ n ≤ 4, (temporaryName n).utf8ByteSize ≤ Path.maxNameSize ∧
      let path := Path.within (Path.absolute "/" (Path.directory "flag.h")) (temporaryName n)
      Path.hasNul path = false ∧ path.utf8ByteSize ≤ Path.maxSize
    decide
  exact replace_of_target hrooted hroom rfl rfl content

end Tree

/-- What a generator makes of `smallTable`. -/
def smallGeneration : Generation where
  header := {
    name := "StrPoolCodes"
    records := [{ name := "on", id := 1 }, { name := "on_1", id := 2 }] }
  report := {
    entriesRead := 3
    reservedSkipped := 1
    namesSuffixed := 1
    namesTruncated := 0
    duplicateIds := [] }

set_option maxRecDepth 10000 in
/-- A run on `smallTable`, where the flag tells the output and the document the limit. -/
theorem Generator.run_furnished {g : Generator}
    (h : g.settings = { output := "flag.h", idLimit := 100 }) (document : String) :
    g.run Tree.storage (.furnished smallTable document) =
      ((.ok smallGeneration.report,
        [.reading "data/re/strs.json", .renamed 2 "on" "on_1" 1,
          .generated "StrPoolCodes" "flag.h" 2 1 1 0]),
        (Tree.furnished smallTable document).put ["flag.h"]
          (.file smallGeneration.header.render.toUTF8)) := by
  obtain ⟨s, accepted⟩ := g
  obtain rfl : s = { output := "flag.h", idLimit := 100 } := h
  have hload : (Tree.furnished smallTable document).Loads "data/re/strs.json" smallEntries :=
    ⟨smallTable, Tree.read_table_furnished _ _, parseEntries_smallTable⟩
  have hbuild : build ⟨_, accepted⟩ smallEntries = .ok smallGeneration := by cbv
  have htrace : trace ⟨_, accepted⟩ smallEntries = [.renamed 2 "on" "on_1" 1] := by cbv
  have hwrite := Tree.replace_furnished smallTable document smallGeneration.header.render.toUTF8
  rw [run_of_replace hload hbuild hwrite, htrace]
  rfl

theorem render_smallGeneration :
    smallGeneration.header.render = "enum StrPoolCodes \x7b\n\ton = 1,\n\ton_1 = 2,\n\x7d" := by
  cbv

/-- A tree that is `furnished` with `smallDocument` `Configures` its two entries. -/
theorem configures_smallDocument :
    (Tree.furnished smallTable smallDocument).Configures (some "gen.toml")
      [("output", .text "codes.h"), ("id_limit", .integer 100)] := by
  refine .document (Tree.read_document_furnished _ _) parse_smallDocument ?_ (by decide)
  rw [List.forall_mem_cons, List.forall_mem_singleton]
  exact ⟨.output "codes.h", .idLimit 100 (by decide)⟩

/-- A tree that is `furnished` with a key that is no setting `Configures` nothing. -/
theorem not_configures_unknownKey (entries : Toml.Entries) :
    ¬ (Tree.furnished smallTable "colour = true").Configures (some "gen.toml") entries := by
  intro h
  rw [Tree.configures_iff_of_read (Tree.read_document_furnished _ _)] at h
  obtain ⟨hparse, hfits, -⟩ := h
  have hline : Toml.parse "colour = true" =
      .ok [(Settings.unknownLine.key, Settings.unknownLine.value)] := by
    rw [← Settings.unknownLine.meaning]
    exact congrArg Toml.parse String.ofList_toList.symm
  obtain rfl := Except.ok.inj (hline.symm.trans hparse)
  exact Settings.not_fits_unknownLine (hfits _ List.mem_cons_self)

namespace Command

/-- The flags of a run with a document and another path for the output. -/
def furnishedArguments : List String :=
  ["--config=gen.toml", "--output=flag.h"]

/-- What `furnishedArguments` ask for. -/
def furnishedOptions : Options :=
  { config := some "gen.toml", output := some "flag.h" }

/-! ## settings and outcome -/

/-- What the command does with its settings. Without a document for a configuration that was
asked for, it fails before anything else. Otherwise paths come from the flags, else from the
document, else they are the defaults, and the rest comes from the document or is the default;
these settings make a generator, and the command does what that does on the tree. So settings
are never refused after they were loaded. -/
theorem execute_settings {arguments : List String} {o : Options} (h : parse arguments = .ok o)
    (request : Option String) (t : Tree) :
    ∃ outcome left, execute arguments request Tree.storage t = (outcome, left) ∧
      outcome.exit ≤ 1 ∧ (outcome.exit = 1 → left = t) ∧
      "Error: Invalid generator configuration" ∉ outcome.messages ∧
      ((∀ entries, ¬ t.Configures o.config entries) →
        outcome.exit = 1 ∧ ∃ path failure, o.config = some path ∧
          outcome.messages = ({ task := .load path, failure } : Trouble).lines) ∧
      ∀ entries, t.Configures o.config entries → ∃ g : Generator,
        g.settings.input = o.input.getD (Toml.textAt entries "input" "data/re/strs.json") ∧
        g.settings.output = o.output.getD (Toml.textAt entries "output" "str_enum.h") ∧
        g.settings.enumName = Toml.textAt entries "enum_name" "StrPoolCodes" ∧
        g.settings.idLimit = Toml.naturalAt entries "id_limit" 10000 ∧
        (outcome.exit = 0 ↔ ∃ report, (g.run Tree.storage t).1.1 = .ok report) ∧
        left = (g.run Tree.storage t).2 := by
  refine ⟨_, _, execute_of_parse h request t, ?_⟩
  by_cases hconfigures : ∃ entries, t.Configures o.config entries
  · obtain ⟨entries, hentries⟩ := hconfigures
    have hexit := Trial.exit_ofRun (o.generator hentries)
      ((o.generator hentries).run Tree.storage t).1 (.choose request o.verbose)
    rw [Options.run_of_configures hentries]
    refine ⟨hexit.1, ?left, ?words, fun hnot => absurd hentries (hnot entries), ?run⟩
    case left =>
      intro hone
      refine Generator.left_of_not_ok fun hok => ?_
      exact absurd ((hexit.2.mpr hok).symm.trans hone) (by decide)
    case words =>
      refine check_not_mem_messages (fun trouble htrouble => ?_) _
      rw [Trial.task_of_ofRun htrouble]
      simp
    case run =>
      intro entries' hentries'
      have hexit' := Trial.exit_ofRun (o.generator hentries')
        ((o.generator hentries').run Tree.storage t).1 (.choose request o.verbose)
      rw [← Options.run_of_configures hentries, Options.run_of_configures hentries']
      exact ⟨o.generator hentries', rfl, rfl, rfl, rfl, hexit'.2, rfl⟩
  · have hnot := not_exists.mp hconfigures
    obtain ⟨path, failure, hconfig, hrun⟩ := Options.run_of_not_configures hnot
    rw [hrun]
    refine ⟨Nat.le_refl 1, fun _ => rfl, ?_, fun _ => ⟨rfl, path, failure, hconfig, rfl⟩,
      fun entries hentries => absurd hentries (hnot entries)⟩
    refine check_not_mem_messages (fun trouble htrouble => ?_) _
    obtain rfl := Option.some.inj htrouble
    simp

/-- A document with a path and a limit, where a flag has another path: the run succeeds, and
the enum is where the flag says and has no ids from the limit on. With a document that has a
key that is no setting, the command fails and leaves all as it is. -/
theorem execute_settings_furnished :
    parse furnishedArguments = .ok furnishedOptions ∧
      ((Tree.furnished smallTable smallDocument).Configures furnishedOptions.config
          [("output", .text "codes.h"), ("id_limit", .integer 100)] ∧
        ∃ outcome left, ∃ g : Generator, execute furnishedArguments none Tree.storage
            (.furnished smallTable smallDocument) = (outcome, left) ∧ outcome.exit = 0 ∧
          g.settings = { output := "flag.h", idLimit := 100 } ∧
          left = (g.run Tree.storage (.furnished smallTable smallDocument)).2 ∧
          left.read "flag.h" =
            .ok "enum StrPoolCodes \x7b\n\ton = 1,\n\ton_1 = 2,\n\x7d".toUTF8) ∧
      (∀ entries, ¬ (Tree.furnished smallTable "colour = true").Configures
          furnishedOptions.config entries) ∧
        ∃ outcome, execute furnishedArguments none Tree.storage
            (.furnished smallTable "colour = true") =
              (outcome, .furnished smallTable "colour = true") ∧ outcome.exit = 1 := by
  have hparse : parse furnishedArguments = .ok furnishedOptions := by decide
  obtain ⟨outcome, left, hexecute, -, -, -, -, hrun⟩ :=
    execute_settings hparse none (.furnished smallTable smallDocument)
  obtain ⟨g, hinput, houtput, hname, hlimit, hexit, hleft⟩ := hrun _ configures_smallDocument
  have hsettings : g.settings = { output := "flag.h", idLimit := 100 } := by
    obtain ⟨⟨input, output, name, limit⟩, accepted⟩ := g
    rw [Settings.mk.injEq]
    exact ⟨hinput, houtput, hname, hlimit⟩
  have hdone := Generator.run_furnished hsettings smallDocument
  have hread : left.read "flag.h" = .ok smallGeneration.header.render.toUTF8 := by
    rw [hleft, hdone]
    rfl
  obtain ⟨refusal, unchanged, hrefused, -, hsame, -, hfails, -⟩ :=
    execute_settings hparse none (.furnished smallTable "colour = true")
  have hone := (hfails not_configures_unknownKey).1
  rw [hsame hone] at hrefused
  rw [render_smallGeneration] at hread
  exact ⟨hparse, ⟨configures_smallDocument, outcome, left, g, hexecute,
    hexit.mpr ⟨_, congrArg (fun done => done.1.1) hdone⟩, hsettings, hleft, hread⟩,
    not_configures_unknownKey, refusal, hrefused, hone⟩

end Command

end PoolEnum
