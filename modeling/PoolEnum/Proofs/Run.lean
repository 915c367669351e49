import PoolEnum.Proofs.Files.Tree
import PoolEnum.Run

/-!
# PoolEnum.Proofs.Run

A run on a tree does all that it is to do, or nothing.

Replacing a file takes several steps on a tree, and all that is left of them is the
content at its location (`Tree.replace_eq`); where a step fails, the tree is what it
was. `Tree.Unloadable`, `Tree.Refuses` and `Generator.Fails` say what can go wrong, a
stage after the other: a failure belongs to a stage that all stages before it let
through. `run_atomic` puts them together.
-/

namespace PoolEnum

/-- Bytes are text iff they are those that `toUTF8` makes of it. -/
theorem fromUTF8?_eq_some_iff {bytes : ByteArray} {text : String} :
    String.fromUTF8? bytes = some text ↔ bytes = text.toUTF8 := by
  unfold String.fromUTF8?
  constructor
  · intro h
    split at h
    · next hvalid =>
      obtain rfl := Option.some.inj h
      rfl
    · contradiction
  · rintro rfl
    rw [String.toUTF8_eq_toByteArray, dif_pos text.isValidUTF8]
    rfl

/-- A step of a computation on a state, and the rest of it on the state that is left. -/
theorem bind_of_eq {σ α β : Type} {x : StateM σ α} {f : α → StateM σ β} {s s' : σ}
    {a : α} (h : x s = (a, s')) : (x >>= f) s = f a s' := by
  show (x s >>= fun p => f p.1 p.2) = f a s'
  rw [h]
  rfl

namespace Tree

variable {t t' left : Tree} {path temporary : String} {location : Location} {failure : Failure}
  {entries : List Entry} {content : ByteArray}

/-! ## the operations of the storage -/

/-- `storage.read` is `Tree.read`, and changes nothing. -/
theorem storage_read (t : Tree) (path : String) : storage.read path t = (t.read path, t) := by
  rfl

theorem storage_create (t : Tree) (directory : String) :
    storage.create directory t = t.create directory := by
  rfl

theorem storage_write (t : Tree) (path : String) (content : ByteArray) :
    storage.write path content t = t.write path content := by
  rfl

theorem storage_rename (t : Tree) (source target : String) :
    storage.rename source target t = t.rename source target := by
  rfl

theorem storage_remove (t : Tree) (path : String) :
    storage.remove path t = ((), t.remove path) := by
  rfl

/-! ## reading -/

/-- `t` `Loads` some entries from a path if the file there is a table of them. -/
def Loads (t : Tree) (path : String) (entries : List Entry) : Prop :=
  ∃ text, t.read path = .ok text.toUTF8 ∧ Table.parseEntries text = .ok entries

/-- Why a table cannot be loaded: there is no file, it is not text, or the text is no
table. -/
inductive Unloadable (t : Tree) (path : String) : Failure → Prop
  | unread {fault : FileFault} (h : t.read path = .error fault) :
    Unloadable t path (.file path fault)
  | notText {bytes : ByteArray} (h : t.read path = .ok bytes)
    (hbytes : ∀ text : String, bytes ≠ text.toUTF8) : Unloadable t path (.file path .notText)
  | noTable {text : String} {fault : Table.Fault} (h : t.read path = .ok text.toUTF8)
    (hparse : Table.parseEntries text = .error fault) : Unloadable t path (.table path fault)

/-- `readText` fails where `read` does. -/
theorem readText_of_error {fault : FileFault} (h : t.read path = .error fault) :
    storage.readText path t = (.error fault, t) := by
  rw [Storage.readText, bind_of_eq (storage_read _ _), h]
  rfl

theorem readText_of_notText {bytes : ByteArray} (h : t.read path = .ok bytes)
    (hbytes : ∀ text : String, bytes ≠ text.toUTF8) :
    storage.readText path t = (.error .notText, t) := by
  have hnone : String.fromUTF8? bytes = none := by
    rw [Option.eq_none_iff_forall_ne_some]
    intro text htext
    exact hbytes text (fromUTF8?_eq_some_iff.mp htext)
  rw [Storage.readText, bind_of_eq (storage_read _ _), h]
  simp only [hnone]
  rfl

/-- `readText` gives the text that a file has. -/
theorem readText_of_text {text : String} (h : t.read path = .ok text.toUTF8) :
    storage.readText path t = (.ok text, t) := by
  rw [Storage.readText, bind_of_eq (storage_read _ _), h]
  simp only [fromUTF8?_eq_some_iff.mpr rfl]
  rfl

/-- `loadEntries` fails for the reason that makes a table `Unloadable`. -/
theorem loadEntries_of_unloadable (h : t.Unloadable path failure) :
    storage.loadEntries path t = (.error failure, t) := by
  rw [Storage.loadEntries]
  cases h with
  | unread hread =>
      rw [bind_of_eq (readText_of_error hread)]
      rfl
  | notText hread hbytes =>
      rw [bind_of_eq (readText_of_notText hread hbytes)]
      rfl
  | noTable hread hparse =>
      rw [bind_of_eq (readText_of_text hread)]
      simp only [hparse]
      rfl

/-- `loadEntries` gives the entries that the tree `Loads`. -/
theorem loadEntries_of_loads (h : t.Loads path entries) :
    storage.loadEntries path t = (.ok entries, t) := by
  obtain ⟨text, hread, hparse⟩ := h
  rw [Storage.loadEntries, bind_of_eq (readText_of_text hread)]
  simp only [hparse]
  rfl

/-- A path either `Loads` or is `Unloadable`. -/
theorem loads_or_unloadable (t : Tree) (path : String) :
    (∃ entries, t.Loads path entries) ∨ ∃ failure, t.Unloadable path failure := by
  cases hread : t.read path with
  | error fault => exact .inr ⟨_, .unread hread⟩
  | ok bytes =>
      by_cases htext : ∃ text : String, bytes = text.toUTF8
      · obtain ⟨text, rfl⟩ := htext
        cases hparse : Table.parseEntries text with
        | error fault => exact .inr ⟨_, .noTable hread hparse⟩
        | ok entries => exact .inl ⟨entries, text, hread, hparse⟩
      · exact .inr ⟨_, .notText hread (not_exists.mp htext)⟩

/-! ## replacing a file -/

/-- Why `content` cannot be put at a path: no new file can be made in the directory
of the path, or the path offers no place to the new file. -/
inductive Refuses (t : Tree) (path : String) (content : ByteArray) : Failure → Prop
  | unstaged {fault : FileFault} {temporary : String} {t' : Tree}
    (h : t.create (Path.directory path) = (.error (fault, temporary), t')) :
    Refuses t path content (.staging path fault temporary)
  | unplaced {temporary : String} {t' staged : Tree} {fault : FileFault}
    (hcreate : t.create (Path.directory path) = (.ok temporary, t'))
    (hwrite : t'.write temporary content = (.ok (), staged))
    (htarget : staged.target path = .error fault) : Refuses t path content (.file path fault)

/-- What is left of a tree when `content` was put at a path: that is at the location of the
path, an entry of a directory, and everything else is what it was. -/
structure Replaced (t : Tree) (path : String) (content : ByteArray) (left : Tree) : Prop where
  place : ∃ location, t.locate path = .ok location ∧
    t.at? location.dropLast = some .directory ∧ t.at? location ≠ some .directory ∧
    left.at? location = some (.file content) ∧ ∀ k ≠ location, left.at? k = t.at? k
  workplace : left.workplace = t.workplace
  read : left.read path = .ok content

/-- `put` at the location that a path leads to leaves the tree `Replaced`. -/
theorem replaced_put (h : t.target path = .ok location) (content : ByteArray) :
    t.Replaced path content (t.put location (.file content)) := by
  have hlocate := locate_of_target h
  have hthere := at?_put_self t (.file content) (ne_nil_of_target h)
  obtain ⟨-, -, -, hfree, -, text, above, -, -, hstep⟩ := target_eq_ok_iff.mp h
  obtain ⟨habove, rfl, -⟩ := step_eq_ok_iff.mp hstep
  have hsame := sameDirectories_put hfree content
  refine ⟨⟨_, hlocate, ?_, hfree, hthere, fun k hk => at?_put_of_ne t _ hk⟩, rfl, ?_⟩
  · rwa [Location.after, List.dropLast_concat]
  · rw [read, hsame.locate_eq_ok_iff.mp hlocate]
    simp only [hthere]

/-- `replace` on a tree: the new file is made, filled and moved, and what is left of that is the
content at the location of the path. -/
theorem replace_eq (t : Tree) (path : String) (content : ByteArray) :
    storage.replace path content t =
      match t.create (Path.directory path) with
      | (.error (fault, temporary), _) => (.error (.staging path fault temporary), t)
      | (.ok temporary, t') =>
        match (t'.write temporary content).2.target path with
        | .error fault => (.error (.file path fault), t)
        | .ok location => (.ok (), t.put location (.file content)) := by
  rw [Storage.replace]
  cases hcreate : t.create (Path.directory path) with
  | mk created t' =>
      rw [bind_of_eq ((storage_create t _).trans hcreate)]
      cases created with
      | error fault =>
          obtain rfl := create_eq_error hcreate
          rfl
      | ok temporary =>
          obtain ⟨location, hfree, htemporary, rfl⟩ := create_eq_ok hcreate
          have hwrite := write_staged hfree htemporary content .empty
          have hrename := rename_staged hfree htemporary content path
          have hremove := remove_staged hfree htemporary content
          dsimp only
          rw [bind_of_eq ((storage_write _ _ _).trans hwrite), hwrite]
          dsimp only
          cases htarget : (t.put location (.file content)).target path with
          | error fault =>
              rw [htarget] at hrename
              rw [bind_of_eq ((storage_rename _ _ _).trans hrename)]
              dsimp only
              rw [bind_of_eq (storage_remove _ _), hremove]
              rfl
          | ok new =>
              rw [htarget] at hrename
              rw [bind_of_eq ((storage_rename _ _ _).trans hrename)]
              rfl

/-- `replace` fails for the reason why a tree `Refuses`, and the tree is what it was. -/
theorem replace_of_refuses (h : t.Refuses path content failure) :
    storage.replace path content t = (.error failure, t) := by
  rw [replace_eq]
  cases h with
  | unstaged hcreate => rw [hcreate]
  | unplaced hcreate hwrite htarget =>
      rw [hcreate]
      simp only [hwrite, htarget]

/-- `replace` leaves the tree `Replaced`, or the tree `Refuses`. -/
theorem replace_cases (t : Tree) (path : String) (content : ByteArray) :
    (∃ failure, t.Refuses path content failure) ∨
      ∃ location, t.target path = .ok location ∧
        storage.replace path content t = (.ok (), t.put location (.file content)) := by
  rw [replace_eq]
  cases hcreate : t.create (Path.directory path) with
  | mk created t' =>
      cases created with
      | error fault => exact .inl ⟨_, .unstaged hcreate⟩
      | ok temporary =>
          obtain ⟨staged, hwrite, hsame⟩ := exists_write_eq_ok hcreate content
          cases htarget : staged.target path with
          | error fault => exact .inl ⟨_, .unplaced hcreate hwrite htarget⟩
          | ok location =>
              refine .inr ⟨location, hsame.target_eq_ok_iff.mpr htarget, ?_⟩
              simp only [hwrite, htarget]

/-- `replace` fails iff the tree `Refuses`, and for the same reason. -/
theorem replace_eq_error_iff (t : Tree) (path : String) (content : ByteArray) (failure : Failure) :
    (storage.replace path content t).1 = .error failure ↔ t.Refuses path content failure := by
  constructor
  · intro herror
    rcases t.replace_cases path content with ⟨failure', hrefuses⟩ | ⟨location, -, hreplace⟩
    · rw [replace_of_refuses hrefuses] at herror
      obtain rfl := Except.error.inj herror
      exact hrefuses
    · rw [hreplace] at herror
      contradiction
  · intro hrefuses
    rw [replace_of_refuses hrefuses]

/-- A tree `Refuses` the new file iff the directory of the path is missing, or is none. -/
theorem refuses_staging_iff (ht : t.Rooted) (hroom : t.HasRoom (Path.directory path))
    (content : ByteArray) (fault : FileFault) :
    (∃ temporary, t.Refuses path content (.staging path fault temporary)) ↔
      t.directoryAt (Path.directory path) = .error fault := by
  constructor
  · rintro ⟨temporary, hrefuses⟩
    cases hrefuses with
    | unstaged hcreate =>
        cases hdirectory : t.directoryAt (Path.directory path) with
        | error fault' =>
            obtain ⟨temporary', hcreate'⟩ := create_of_directoryAt_error ht hroom hdirectory
            rw [hcreate'] at hcreate
            simp_all
        | ok above =>
            obtain ⟨temporary', t', hcreate'⟩ := create_of_directoryAt_ok ht hroom hdirectory
            rw [hcreate'] at hcreate
            simp at hcreate
  · intro hdirectory
    obtain ⟨temporary, hcreate⟩ := create_of_directoryAt_error ht hroom hdirectory
    exact ⟨temporary, .unstaged hcreate⟩

/-- A tree `Refuses` its place to the new file iff the directory of the path is there, but the path
offers no place in it. -/
theorem refuses_file_iff (ht : t.Rooted) (hroom : t.HasRoom (Path.directory path))
    (content : ByteArray) :
    (∃ fault, t.Refuses path content (.file path fault)) ↔
      (∃ above, t.directoryAt (Path.directory path) = .ok above) ∧
        ∀ location, t.target path ≠ .ok location := by
  constructor
  · rintro ⟨fault, hrefuses⟩
    cases hrefuses with
    | unplaced hcreate hwrite htarget =>
        obtain ⟨staged, hwrite', hsame⟩ := exists_write_eq_ok hcreate content
        rw [hwrite, Prod.mk.injEq] at hwrite'
        obtain ⟨-, rfl⟩ := hwrite'
        constructor
        · cases hdirectory : t.directoryAt (Path.directory path) with
          | error fault' =>
              obtain ⟨temporary', hcreate'⟩ := create_of_directoryAt_error ht hroom hdirectory
              rw [hcreate'] at hcreate
              simp at hcreate
          | ok above => exact ⟨above, rfl⟩
        · intro location hlocation
          rw [hsame.target_eq_ok_iff, htarget] at hlocation
          simp at hlocation
  · rintro ⟨⟨above, hdirectory⟩, htarget⟩
    obtain ⟨temporary, t', hcreate⟩ := create_of_directoryAt_ok ht hroom hdirectory
    obtain ⟨staged, hwrite, hsame⟩ := exists_write_eq_ok hcreate content
    cases hstaged : staged.target path with
    | error fault => exact ⟨fault, .unplaced hcreate hwrite hstaged⟩
    | ok location => exact absurd (hsame.target_eq_ok_iff.mpr hstaged) (htarget location)

/-- `replace` at a path whose directory is there and that offers a place leaves the tree
`Replaced`. -/
theorem replace_of_target (ht : t.Rooted) (hroom : t.HasRoom (Path.directory path))
    {above : Location} (hdirectory : t.directoryAt (Path.directory path) = .ok above)
    (htarget : t.target path = .ok location) (content : ByteArray) :
    storage.replace path content t = (.ok (), t.put location (.file content)) := by
  rcases t.replace_cases path content with ⟨failure, hrefuses⟩ | ⟨location', htarget', hreplace⟩
  · cases hrefuses with
    | @unstaged fault _ _ hcreate =>
        have hmissing : t.directoryAt (Path.directory path) = .error fault :=
          (refuses_staging_iff ht hroom content fault).mp ⟨_, .unstaged hcreate⟩
        exact absurd (hdirectory.symm.trans hmissing) (by simp)
    | unplaced hcreate hwrite hplace =>
        have hnoPlace := ((refuses_file_iff ht hroom content).mp ⟨_, .unplaced hcreate hwrite hplace⟩).2
        exact absurd htarget (hnoPlace location)
  · obtain rfl := Except.ok.inj (htarget.symm.trans htarget')
    exact hreplace

end Tree

/-! ## runs -/

/-- Why a run fails: its table cannot be loaded; it can, but a name has no free form left; or
its enum can be built, but it cannot be written. -/
inductive Generator.Fails (g : Generator) (t : Tree) : Failure → Prop
  | unloaded {failure : Failure} (h : t.Unloadable g.settings.input failure) : Fails g t failure
  | usedUp {entries : List Entry} {fault : Exhausted} (hload : t.Loads g.settings.input entries)
    (hbuild : g.build entries = .error fault) : Fails g t (.exhausted fault)
  | unwritten {entries : List Entry} {made : Generation} {failure : Failure}
    (hload : t.Loads g.settings.input entries) (hbuild : g.build entries = .ok made)
    (hwrite : t.Refuses g.settings.output made.header.render.toUTF8 failure) : Fails g t failure

namespace Generator

variable {g : Generator} {t : Tree} {failure : Failure}

/-- A run whose table is `Unloadable` ends there. -/
theorem run_of_unloadable (h : t.Unloadable g.settings.input failure) :
    g.run Tree.storage t = ((.error failure, [.reading g.settings.input]), t) := by
  unfold run
  dsimp only
  rw [bind_of_eq (Tree.loadEntries_of_unloadable h)]
  rfl

/-- A run that `Loads` its table does what its build and its output let it do. -/
theorem run_of_loads {entries : List Entry} (h : t.Loads g.settings.input entries) :
    g.run Tree.storage t =
      let log := .reading g.settings.input :: g.trace entries
      match g.build entries with
      | .error fault => ((.error (.exhausted fault), log), t)
      | .ok made =>
        match made.header.write Tree.storage g.settings.output t with
        | (.error failure, left) => ((.error failure, log), left)
        | (.ok (), left) => ((.ok made.report, log ++ [made.event g.settings.output]), left) := by
  unfold run
  dsimp only
  rw [bind_of_eq (Tree.loadEntries_of_loads h)]
  dsimp only
  cases hbuild : g.build entries with
  | error fault => rfl
  | ok made =>
      dsimp only
      cases hwrite : made.header.write Tree.storage g.settings.output t with
      | mk written left =>
          rw [bind_of_eq hwrite]
          cases written with
          | error failure => rfl
          | ok _ => rfl

/-- `run` fails for the reason why the generator `Fails`, and the tree is what it was. -/
theorem run_of_fails (h : g.Fails t failure) :
    ∃ log, g.run Tree.storage t = ((.error failure, log), t) := by
  cases h with
  | unloaded hload => exact ⟨_, run_of_unloadable hload⟩
  | usedUp hload hbuild =>
      rw [run_of_loads hload, hbuild]
      exact ⟨_, rfl⟩
  | unwritten hload hbuild hwrite =>
      rw [run_of_loads hload, hbuild]
      simp only [Header.write, Tree.replace_of_refuses hwrite]
      exact ⟨_, rfl⟩

/-- A `run` whose enum is built and whose output is replaced succeeds. -/
theorem run_of_replace {entries : List Entry} {made : Generation} {left : Tree}
    (hload : t.Loads g.settings.input entries) (hbuild : g.build entries = .ok made)
    (hwrite : Tree.storage.replace g.settings.output made.header.render.toUTF8 t = (.ok (), left)) :
    g.run Tree.storage t =
      ((.ok made.report, .reading g.settings.input :: g.trace entries ++
        [made.event g.settings.output]), left) := by
  rw [run_of_loads hload, hbuild]
  simp only [Header.write, hwrite]

/-- A run `Fails`, or it writes the enum of its table. -/
theorem run_cases (g : Generator) (t : Tree) :
    (∃ failure, g.Fails t failure) ∨
      ∃ entries made location log, t.Loads g.settings.input entries ∧ g.build entries = .ok made ∧
        t.target g.settings.output = .ok location ∧
        g.run Tree.storage t = ((.ok made.report, log),
          t.put location (.file made.header.render.toUTF8)) := by
  rcases t.loads_or_unloadable g.settings.input with ⟨entries, hload⟩ | ⟨failure, hload⟩
  · cases hbuild : g.build entries with
    | error fault => exact .inl ⟨_, .usedUp hload hbuild⟩
    | ok made =>
        rcases t.replace_cases g.settings.output made.header.render.toUTF8 with
          ⟨failure, hwrite⟩ | ⟨location, htarget, hwrite⟩
        · exact .inl ⟨_, .unwritten hload hbuild hwrite⟩
        · have hrun := run_of_replace hload hbuild hwrite
          exact .inr ⟨entries, made, location, _, hload, hbuild, htarget, hrun⟩
  · exact .inl ⟨_, .unloaded hload⟩

/-- `run` fails iff the generator `Fails`, and for the same reason. -/
theorem run_eq_error_iff (g : Generator) (t : Tree) (failure : Failure) :
    (g.run Tree.storage t).1.1 = .error failure ↔ g.Fails t failure := by
  constructor
  · intro herror
    rcases g.run_cases t with ⟨failure', hfails⟩ | ⟨_, _, _, _, -, -, -, hrun⟩
    · obtain ⟨log, hrun⟩ := run_of_fails hfails
      rw [hrun] at herror
      obtain rfl := Except.error.inj herror
      exact hfails
    · rw [hrun] at herror
      contradiction
  · intro hfails
    obtain ⟨log, hrun⟩ := run_of_fails hfails
    rw [hrun]

end Generator

/-- `run` and the writing of an enum do all that they are to do, or nothing: a failure is that of
the first stage that is not let through, and then the tree is what it was; otherwise the tree is
`Replaced`: the output has the text of the enum, and nothing else has changed. What a tree refuses
is a path whose directory is not there, or one that leads to no place for a file. -/
theorem run_atomic (t : Tree) :
    (∀ (h : Header) (path : String),
      (∀ failure, (h.write Tree.storage path t).1 = .error failure ↔
        t.Refuses path h.render.toUTF8 failure) ∧
      match h.write Tree.storage path t with
      | (.error _, left) => left = t
      | (.ok (), left) => t.Replaced path h.render.toUTF8 left) ∧
    (∀ g : Generator,
      (∀ failure, (g.run Tree.storage t).1.1 = .error failure ↔ g.Fails t failure) ∧
      match g.run Tree.storage t with
      | ((.error _, _), left) => left = t
      | ((.ok report, _), left) => ∃ entries made, t.Loads g.settings.input entries ∧
          g.build entries = .ok made ∧ report = made.report ∧
          t.Replaced g.settings.output made.header.render.toUTF8 left) ∧
    (t.Rooted → ∀ (path : String) (content : ByteArray), t.HasRoom (Path.directory path) →
      (∀ fault, (∃ temporary, t.Refuses path content (.staging path fault temporary)) ↔
        t.directoryAt (Path.directory path) = .error fault) ∧
      ((∃ fault, t.Refuses path content (.file path fault)) ↔
        (∃ above, t.directoryAt (Path.directory path) = .ok above) ∧
          ∀ location, t.target path ≠ .ok location)) := by
  refine ⟨?write, ?run, ?refuses⟩
  case write =>
    intro h path
    simp only [Header.write]
    rcases t.replace_cases path h.render.toUTF8 with
      ⟨failure, hrefuses⟩ | ⟨location, htarget, hwrite⟩
    · refine ⟨t.replace_eq_error_iff path _, ?_⟩
      rw [Tree.replace_of_refuses hrefuses]
    · refine ⟨t.replace_eq_error_iff path _, ?_⟩
      rw [hwrite]
      exact Tree.replaced_put htarget _
  case run =>
    intro g
    rcases g.run_cases t with
      ⟨failure, hfails⟩ | ⟨entries, made, location, log, hload, hbuild, htarget, hrun⟩
    · obtain ⟨log, hrun⟩ := Generator.run_of_fails hfails
      refine ⟨g.run_eq_error_iff t, ?_⟩
      rw [hrun]
    · refine ⟨g.run_eq_error_iff t, ?_⟩
      rw [hrun]
      exact ⟨entries, made, hload, hbuild, rfl, Tree.replaced_put htarget _⟩
  case refuses =>
    intro ht path content hroom
    exact ⟨Tree.refuses_staging_iff ht hroom content, Tree.refuses_file_iff ht hroom content⟩

end PoolEnum
