import Mathlib.Data.List.Nodup
import PoolEnum.Files.Tree
import PoolEnum.Proofs.Files.Path

/-!
# PoolEnum.Proofs.Files.Tree

What the operations on a tree do, said by what is at its locations.

Following a path only asks which locations are directories, so a file that comes
or goes where no directory is changes nothing about where paths lead
(`SameDirectories`). A new file is at a location where nothing was, and its path
leads there (`create_eq_ok`), so it can be filled, moved and removed again with
nothing left of it (`write_staged`, `rename_staged`, `remove_staged`).

When a new file can be made is said for trees whose workplace is where its path
leads (`Rooted`): iff its directory is there, if paths and names fit.
-/

namespace PoolEnum

namespace Tree

variable {t t' : Tree} {here there location : Location} {path : String} {steps : List Path.Step}

/-! ## putting and erasing -/

/-- The later of two nodes that are `put` at one location stays. -/
theorem put_put (t : Tree) (location : Location) (node node' : Node) :
    (t.put location node).put location node' = t.put location node' := by
  simp [put, erase, List.filter_filter]

/-- `erase` takes a node off that was just `put` there. -/
theorem erase_put (t : Tree) (location : Location) (node : Node) :
    (t.put location node).erase location = t.erase location := by
  simp [put, erase, List.filter_filter]

/-- The location of an entry is not free. -/
theorem mem_of_at?_ne_none (h : t.at? location ≠ none) (hlocation : location ≠ []) :
    location ∈ t.entries.map Prod.fst := by
  rw [at?, if_neg hlocation] at h
  obtain ⟨node, hnode⟩ := Option.ne_none_iff_exists'.mp h
  obtain ⟨l₁, l₂, hl, -⟩ := List.lookup_eq_some_iff.mp hnode
  simp [hl]

/-- Where nothing is, nothing is erased. -/
theorem erase_of_at?_eq_none (h : t.at? location = none) : t.erase location = t := by
  have hlocation : location ≠ [] := by
    intro hnil
    simp [at?, hnil] at h
  have hall : ∀ e ∈ t.entries, e.1 ≠ location := by
    rw [at?, if_neg hlocation, List.lookup_eq_none_iff] at h
    intro e he heq
    simpa [heq] using h e he
  rw [erase, List.filter_eq_self.mpr (by simpa using hall)]

/-! ## following paths -/

/-- `enter` allows directories only, and leads to their own location. -/
theorem enter_eq_ok_iff :
    t.enter here = .ok there ↔ t.at? here = some .directory ∧ here = there := by
  unfold enter
  split <;> simp_all

/-- `step` leads somewhere iff it starts at a directory and is not too long. -/
theorem step_eq_ok_iff {s : Path.Step} :
    t.step here s = .ok there ↔
      t.at? here = some .directory ∧ Location.after here s = there ∧
        ∀ text, s = .name text → text.utf8ByteSize ≤ Path.maxNameSize := by
  unfold step
  cases hent : t.enter here with
  | error fault =>
      have hno : t.at? here ≠ some .directory := by
        intro hdirectory
        have hok : t.enter here = .ok here := enter_eq_ok_iff.mpr ⟨hdirectory, rfl⟩
        simp [hok] at hent
      simp [hno]
  | ok next =>
      obtain ⟨hdirectory, rfl⟩ := enter_eq_ok_iff.mp hent
      cases s with
      | name text =>
          by_cases hlong : Path.maxNameSize < text.utf8ByteSize
          · simp [hlong]
          · simp [hlong, hdirectory, Nat.le_of_not_lt hlong]
      | _ => simp [hdirectory]

/-- `follow` takes steps in two parts, one after the other. -/
theorem follow_append (t : Tree) (here : Location) (steps steps' : List Path.Step) :
    t.follow here (steps ++ steps') =
      match t.follow here steps with
      | .ok there => t.follow there steps'
      | .error fault => .error fault := by
  induction steps generalizing here with
  | nil => rfl
  | cons s steps ih =>
      rw [List.cons_append, follow, follow]
      cases t.step here s with
      | error fault => rfl
      | ok next => exact ih next

/-- `follow` leads somewhere iff its first step does, and the others from there. -/
theorem follow_cons_eq_ok_iff {s : Path.Step} :
    t.follow here (s :: steps) = .ok there ↔
      ∃ next, t.step here s = .ok next ∧ t.follow next steps = .ok there := by
  rw [follow]
  cases t.step here s <;> simp

/-- `follow` leads somewhere iff the steps of the first part do, and the others from there. -/
theorem follow_append_eq_ok_iff {steps' : List Path.Step} :
    t.follow here (steps ++ steps') = .ok there ↔
      ∃ next, t.follow here steps = .ok next ∧ t.follow next steps' = .ok there := by
  rw [follow_append]
  cases t.follow here steps <;> simp

theorem follow_singleton {s : Path.Step} : t.follow here [s] = t.step here s := by
  rw [follow]
  cases t.step here s <;> rfl

/-- Where `locate` finds the file that a path leads to. -/
theorem locate_eq_ok_iff :
    t.locate path = .ok location ↔
      Path.hasNul path = false ∧ path ≠ "" ∧ path.utf8ByteSize ≤ Path.maxSize ∧
        t.follow t.workplace (Path.walk path) = .ok location := by
  unfold locate
  split
  · next hnul => simp [hnul]
  · next hnul =>
    split
    · next hempty => simp [hempty]
    · next hempty =>
      split
      · next hlong => simp [Nat.not_le_of_lt hlong]
      · next hlong => simp [hnul, hempty, Nat.le_of_not_lt hlong]

/-- The last step of some steps leads to one place at most. -/
theorem exists_last_iff {text : String} {above : Location}
    (hfollow : t.follow t.workplace (steps ++ [.here]) = .ok above)
    (hstep : t.step above (.name text) = .ok there) :
    (∃ steps' name above', steps ++ [.name text] = steps' ++ [.name name] ∧
      t.follow t.workplace (steps' ++ [.here]) = .ok above' ∧
      t.step above' (.name name) = .ok location) ↔ there = location := by
  simp only [List.append_singleton_inj]
  constructor
  · rintro ⟨_, _, above', ⟨rfl, hname⟩, hfollow', hstep'⟩
    obtain rfl := Path.Step.name.inj hname
    obtain rfl : above = above' := Except.ok.inj (hfollow.symm.trans hfollow')
    exact Except.ok.inj (hstep.symm.trans hstep')
  · rintro rfl
    exact ⟨steps, text, above, ⟨rfl, rfl⟩, hfollow, hstep⟩

/-- Where `target` finds a place for a file: the last step is a name in a directory. -/
theorem target_eq_ok_iff :
    t.target path = .ok location ↔
      Path.hasNul path = false ∧ path.utf8ByteSize ≤ Path.maxSize ∧
        Path.endsInSlash path = false ∧ t.at? location ≠ some .directory ∧
        ∃ steps text above, Path.spelled path = steps ++ [.name text] ∧
          t.follow t.workplace (steps ++ [.here]) = .ok above ∧
          t.step above (.name text) = .ok location := by
  unfold target
  split
  · next hnul => simp [hnul]
  · next hnul =>
    split
    · next hlong => simp [Nat.not_le_of_lt hlong]
    · next hlong =>
      have hfits : path.utf8ByteSize ≤ Path.maxSize := Nat.le_of_not_lt hlong
      rcases List.eq_nil_or_concat' (Path.spelled path) with hnil | ⟨steps, last, hspelled⟩
      · simp [hnil]
      · simp only [hspelled, List.getLast?_concat, List.dropLast_concat]
        cases hfollow : t.follow t.workplace (steps ++ [.here]) with
        | error fault => simp [hfollow]
        | ok above =>
            cases last with
            | name text =>
                cases hstep : t.step above (.name text) with
                | error fault => simp [hfollow, hstep]
                | ok there =>
                    rw [exists_last_iff hfollow hstep]
                    cases hslash : Path.endsInSlash path with
                    | true => simp [hstep]
                    | false =>
                        have hfree : t.at? location ≠ some .directory ∧ there = location ↔
                            t.at? there ≠ some .directory ∧ there = location :=
                          and_congr_left fun h => by rw [h]
                        rw [hfree]
                        cases hthere : t.at? there with
                        | none => simp [hnul, hfits, hstep, hthere]
                        | some node => cases node <;> simp [hnul, hfits, hstep, hthere]
            | _ => simp

/-- Where `target` offers a place, `locate` finds it. -/
theorem locate_of_target (h : t.target path = .ok location) : t.locate path = .ok location := by
  obtain ⟨hnul, hfits, hslash, -, steps, text, above, hspelled, habove, hstep⟩ :=
    target_eq_ok_iff.mp h
  have hne : path ≠ "" := by
    rintro rfl
    simp [Path.spelled_empty] at hspelled
  have hwalk : Path.walk path = steps ++ [.name text] := by
    rw [Path.walk, hslash, hspelled]
    simp
  obtain ⟨next, hnext, hhere⟩ := follow_append_eq_ok_iff.mp habove
  obtain ⟨-, rfl, -⟩ := step_eq_ok_iff.mp (follow_singleton.symm.trans hhere)
  rw [locate_eq_ok_iff, hwalk, follow_append, hnext]
  exact ⟨hnul, hne, hfits, follow_singleton.trans hstep⟩

/-- A `target` is never the top of the tree. -/
theorem ne_nil_of_target (h : t.target path = .ok location) : location ≠ [] := by
  obtain ⟨-, -, -, hfree, -⟩ := target_eq_ok_iff.mp h
  intro hnil
  simp [hnil, at?] at hfree

/-! ## files come and go -/

/-- Trees with the same directories, and with the same one to start from. -/
structure SameDirectories (t t' : Tree) : Prop where
  workplace : t.workplace = t'.workplace
  at? : ∀ k, t.at? k = some .directory ↔ t'.at? k = some .directory

/-- A file that is `put` where no directory is leaves the `SameDirectories`. -/
theorem sameDirectories_put (h : t.at? location ≠ some .directory) (content : ByteArray) :
    SameDirectories t (t.put location (.file content)) where
  workplace := rfl
  at? k := by
    by_cases hk : k = location
    · subst hk
      have hne : k ≠ [] := by
        rintro rfl
        simp [Tree.at?] at h
      simp [h, at?_put_self t _ hne]
    · rw [at?_put_of_ne t _ hk]

/-- A `step` leads to the same place in trees with the `SameDirectories`. -/
theorem SameDirectories.step_eq_ok_iff (h : SameDirectories t t') {s : Path.Step} :
    t.step here s = .ok there ↔ t'.step here s = .ok there := by
  rw [Tree.step_eq_ok_iff, Tree.step_eq_ok_iff, h.at?]

/-- `follow` leads to the same place in trees with the `SameDirectories`. -/
theorem SameDirectories.follow_eq_ok_iff (h : SameDirectories t t') :
    t.follow here steps = .ok there ↔ t'.follow here steps = .ok there := by
  induction steps generalizing here with
  | nil => rfl
  | cons s steps ih => simp only [follow_cons_eq_ok_iff, h.step_eq_ok_iff, ih]

/-- `locate` finds the same place in trees with the `SameDirectories`. -/
theorem SameDirectories.locate_eq_ok_iff (h : SameDirectories t t') :
    t.locate path = .ok location ↔ t'.locate path = .ok location := by
  rw [Tree.locate_eq_ok_iff, Tree.locate_eq_ok_iff, h.workplace, h.follow_eq_ok_iff]

/-- `target` offers the same place in trees with the `SameDirectories`. -/
theorem SameDirectories.target_eq_ok_iff (h : SameDirectories t t') :
    t.target path = .ok location ↔ t'.target path = .ok location := by
  simp only [Tree.target_eq_ok_iff, h.workplace, h.follow_eq_ok_iff, h.step_eq_ok_iff, h.at?,
    ne_eq]

/-! ## new files -/

theorem toList_temporaryName (n : Nat) :
    (temporaryName n).toList = ['.', 't', 'm', 'p'] ++ Nat.toDigits 10 (100000 + n) := by
  simp [temporaryName]

/-- Different numbers make a different `temporaryName`. -/
theorem temporaryName_injective : Function.Injective temporaryName := by
  intro m n h
  have hdigits : Nat.toDigits 10 (100000 + m) = Nat.toDigits 10 (100000 + n) := by
    have hlist := congrArg String.toList h
    rw [toList_temporaryName, toList_temporaryName] at hlist
    exact List.append_cancel_left hlist
  have hnumber : 100000 + m = 100000 + n := by
    rw [← Nat.ofDigitChars_ten_toDigits (n := 100000 + m), hdigits, Nat.ofDigitChars_ten_toDigits]
  exact Nat.add_left_cancel hnumber

/-- A `temporaryName` is one step of a path. -/
theorem isName_temporaryName (n : Nat) : Path.IsName (temporaryName n) where
  slash := by
    rw [toList_temporaryName, List.mem_append]
    rintro (hlead | hdigit)
    · simp at hlead
    · have hslash := Nat.isDigit_of_mem_toDigits (by decide) (by decide) hdigit
      contradiction
  step := by
    have hlist := toList_temporaryName n
    rw [Path.Step.ofSpelledPiece, Path.Step.ofPiece, String.ofList_toList]
    simp [hlist]

/-- Of one more `temporaryName` than there are entries, one is not in use. -/
theorem exists_unused (t : Tree) (directory : Location) :
    ∃ n ∈ List.range (t.entries.length + 1), t.at? (directory ++ [temporaryName n]) = none := by
  by_contra hnone
  have hused : ∀ n ∈ List.range (t.entries.length + 1),
      t.at? (directory ++ [temporaryName n]) ≠ none := by
    intro n hn hfree
    exact hnone ⟨n, hn, hfree⟩
  -- Else each of the names is that of an entry, and there are more names than entries.
  let places := (List.range (t.entries.length + 1)).map fun n => directory ++ [temporaryName n]
  have hnodup : places.Nodup := by
    have hinjective : Function.Injective fun n => directory ++ [temporaryName n] := by
      intro m n h
      exact temporaryName_injective (List.append_singleton_inj.mp h).2
    exact List.Nodup.map hinjective List.nodup_range
  have hsubset : places ⊆ t.entries.map Prod.fst := by
    intro place hplace
    obtain ⟨n, hn, rfl⟩ := List.mem_map.mp hplace
    exact mem_of_at?_ne_none (hused n hn) (by simp)
  have hlength : places.length ≤ (t.entries.map Prod.fst).length :=
    hnodup.length_le_of_subset hsubset
  simp only [places, List.length_map, List.length_range] at hlength
  omega

/-- `unusedName` is one of the names that are tried, and not in use. -/
theorem exists_unusedName (t : Tree) (directory : Location) :
    ∃ n ≤ t.entries.length, t.unusedName directory = temporaryName n ∧
      t.at? (directory ++ [temporaryName n]) = none := by
  obtain ⟨m, hm, hunused⟩ := exists_unused t directory
  have hsome : ((List.range (t.entries.length + 1)).find? fun n =>
      (t.at? (directory ++ [temporaryName n])).isNone).isSome := by
    rw [List.find?_isSome]
    exact ⟨m, hm, by simp [hunused]⟩
  obtain ⟨n, hn⟩ := Option.isSome_iff_exists.mp hsome
  have hmem : n ∈ List.range (t.entries.length + 1) := List.mem_of_find?_eq_some hn
  have hfound := List.find?_some hn
  refine ⟨n, Nat.le_of_lt_succ (List.mem_range.mp hmem), ?_, Option.isNone_iff_eq_none.mp hfound⟩
  rw [unusedName, hn, Option.getD_some]

section Within

variable {directory name : String}

/-- The path of an entry leads through its directory. -/
theorem locate_within_eq_ok_iff (hd : directory ≠ "") (hn : Path.IsName name) :
    t.locate (Path.within directory name) = .ok location ↔
      Path.hasNul (Path.within directory name) = false ∧
        (Path.within directory name).utf8ByteSize ≤ Path.maxSize ∧
        ∃ above, t.follow t.workplace (Path.spelled directory) = .ok above ∧
          t.step above (.name name) = .ok location := by
  have hne := Path.within_ne_empty directory name
  rw [locate_eq_ok_iff, Path.walk_within hd hn, follow_append_eq_ok_iff]
  simp only [follow_singleton, hne, ne_eq, not_false_eq_true, true_and]

/-- The path of an entry that can be found offers its place to a file. -/
theorem target_within (hd : directory ≠ "") (hn : Path.IsName name)
    (h : t.locate (Path.within directory name) = .ok location)
    (hfree : t.at? location ≠ some .directory) :
    t.target (Path.within directory name) = .ok location := by
  obtain ⟨hnul, hfits, above, habove, hstep⟩ := (locate_within_eq_ok_iff hd hn).mp h
  obtain ⟨hdirectory, -, -⟩ := step_eq_ok_iff.mp hstep
  have hhere : t.step above .here = .ok above := by
    rw [step_eq_ok_iff]
    exact ⟨hdirectory, rfl, by simp⟩
  rw [target_eq_ok_iff]
  have hspelled : Path.spelled (Path.within directory name) =
      Path.spelled directory ++ [.name name] := by
    rw [Path.spelled_within hd hn.isAbsolute, hn.spelled]
  refine ⟨hnul, hfits, Path.endsInSlash_within hn, hfree, _, name, above, hspelled, ?_, hstep⟩
  exact follow_append_eq_ok_iff.mpr ⟨above, habove, follow_singleton.trans hhere⟩

end Within

/-- A file that `create` made is new, and its path leads to it. -/
theorem create_eq_ok {directory temporary : String}
    (h : t.create directory = (.ok temporary, t')) :
    ∃ location, t.at? location = none ∧ t.target temporary = .ok location ∧
      t' = t.put location (.file .empty) := by
  have hd : Path.absolute t.workplacePath directory ≠ "" := Path.absolute_ne_empty _ _
  unfold create at h
  extract_lets d first at h
  cases hfirst : t.locate first with
  | error fault => simp [hfirst] at h
  | ok location =>
      obtain ⟨-, -, above, habove, hstep⟩ :=
        (locate_within_eq_ok_iff hd (isName_temporaryName 0)).mp hfirst
      obtain ⟨-, rfl, -⟩ := step_eq_ok_iff.mp hstep
      -- The first name tells where the directory is; the one that is taken is looked up again.
      obtain ⟨n, -, hunused, hfree⟩ := t.exists_unusedName above
      simp only [hfirst, Location.after, List.dropLast_concat, hunused] at h
      cases htaken : t.locate (Path.within d (temporaryName n)) with
      | error fault => simp [htaken] at h
      | ok location =>
          obtain ⟨-, -, above', habove', htaken'⟩ :=
            (locate_within_eq_ok_iff hd (isName_temporaryName n)).mp htaken
          obtain rfl : above = above' := Except.ok.inj (habove.symm.trans habove')
          obtain ⟨-, rfl, -⟩ := step_eq_ok_iff.mp htaken'
          simp only [htaken, Prod.mk.injEq, Except.ok.injEq] at h
          obtain ⟨rfl, rfl⟩ := h
          refine ⟨_, hfree, target_within hd (isName_temporaryName n) htaken ?_, rfl⟩
          simp [hfree]

/-- Where `create` fails, the tree is what it was. -/
theorem create_eq_error {directory : String} {fault : FileFault × String}
    (h : t.create directory = (.error fault, t')) : t' = t := by
  unfold create at h
  dsimp only at h
  split at h
  · exact (congrArg Prod.snd h).symm
  · split at h
    · exact (congrArg Prod.snd h).symm
    · simp at h

/-! ## where new files can be made -/

/-- The directory that a path leads to. -/
def directoryAt (t : Tree) (path : String) : Except FileFault Location :=
  t.follow t.workplace (Path.spelled path ++ [.here])

/-- Trees whose workplace is where its path leads. -/
def Rooted (t : Tree) : Prop :=
  t.follow t.workplace (Path.spelled t.workplacePath) = .ok t.workplace

/-- Directories in which all names that may be tried for a new file, and their paths,
are such as a file system takes. -/
def HasRoom (t : Tree) (directory : String) : Prop :=
  ∀ n ≤ t.entries.length, (temporaryName n).utf8ByteSize ≤ Path.maxNameSize ∧
    let path := Path.within (Path.absolute t.workplacePath directory) (temporaryName n)
    Path.hasNul path = false ∧ path.utf8ByteSize ≤ Path.maxSize

example : (ofWorkplace ["home", "pool"]).Rooted := by
  rfl

example : (ofWorkplace ["home", "pool"]).HasRoom "out" := by
  unfold HasRoom
  decide

/-- `workplacePath` is not empty: it starts with a slash. -/
theorem workplacePath_ne_empty (t : Tree) : t.workplacePath ≠ "" := by
  simp [workplacePath]

/-- In a tree that is `Rooted`, a path leads to the same directory by `Path.absolute`. -/
theorem Rooted.directoryAt_absolute (ht : t.Rooted) (path : String) :
    t.directoryAt (Path.absolute t.workplacePath path) = t.directoryAt path := by
  unfold Path.absolute
  split
  · rfl
  · next hpath =>
    have hspelled := Path.spelled_within t.workplacePath_ne_empty (by simpa using hpath)
    rw [directoryAt, hspelled, List.append_assoc, follow_append, ht]
    rfl

/-- A name that is not too long is followed wherever `.` is, and leads one level down. -/
theorem follow_append_name {text : String} (htext : text.utf8ByteSize ≤ Path.maxNameSize) :
    t.follow here (steps ++ [.name text]) =
      match t.follow here (steps ++ [.here]) with
      | .ok above => .ok (above ++ [text])
      | .error fault => .error fault := by
  rw [follow_append, follow_append]
  cases t.follow here steps with
  | error fault => rfl
  | ok above =>
      simp only [follow_singleton, step]
      cases t.enter above with
      | error fault => rfl
      | ok above => simp [Nat.not_lt_of_le htext, Location.after]

/-- In a tree that is `Rooted`, where the path of a temporary file leads depends on its directory
alone. -/
theorem Rooted.locate_temporary (ht : t.Rooted) {directory : String} (hroom : t.HasRoom directory)
    {n : Nat} (hn : n ≤ t.entries.length) :
    t.locate (Path.within (Path.absolute t.workplacePath directory) (temporaryName n)) =
      match t.directoryAt directory with
      | .ok above => .ok (above ++ [temporaryName n])
      | .error fault => .error fault := by
  obtain ⟨hname, hnul, hfits⟩ := hroom n hn
  have hd : Path.absolute t.workplacePath directory ≠ "" := Path.absolute_ne_empty _ _
  have hwalk := Path.walk_within hd (isName_temporaryName n)
  rw [locate, if_neg (by simp [hnul]), if_neg (Path.within_ne_empty _ _),
    if_neg (Nat.not_lt_of_le hfits), hwalk, follow_append_name hname,
    ← ht.directoryAt_absolute directory, directoryAt]

/-- Where `directoryAt` fails, so does `create`, with the same fault. -/
theorem create_of_directoryAt_error (ht : t.Rooted) {directory : String} {fault : FileFault}
    (hroom : t.HasRoom directory) (h : t.directoryAt directory = .error fault) :
    ∃ temporary, t.create directory = (.error (fault, temporary), t) := by
  have hfirst := ht.locate_temporary hroom (Nat.zero_le _)
  rw [h] at hfirst
  unfold create
  dsimp only
  rw [hfirst]
  exact ⟨_, rfl⟩

/-- Where `directoryAt` finds a directory that `HasRoom`, `create` makes a new file. -/
theorem create_of_directoryAt_ok (ht : t.Rooted) {directory : String} {above : Location}
    (hroom : t.HasRoom directory) (h : t.directoryAt directory = .ok above) :
    ∃ temporary t', t.create directory = (.ok temporary, t') := by
  have hfirst := ht.locate_temporary hroom (Nat.zero_le _)
  obtain ⟨n, hn, hunused, -⟩ := t.exists_unusedName above
  have htaken := ht.locate_temporary hroom hn
  rw [h] at hfirst htaken
  unfold create
  dsimp only at hfirst htaken ⊢
  rw [hfirst]
  simp only [List.dropLast_concat, hunused, htaken]
  exact ⟨_, _, rfl⟩

/-! ## a file on its way -/

section Staged

variable {temporary : String} (hfree : t.at? location = none)
  (htemporary : t.target temporary = .ok location) (content : ByteArray)

include hfree htemporary

/-- `locate` finds the temporary file where it was put. -/
theorem locate_staged : (t.put location (.file content)).locate temporary = .ok location := by
  have hsame : SameDirectories t (t.put location (.file content)) :=
    sameDirectories_put (by simp [hfree]) content
  exact hsame.locate_eq_ok_iff.mp (locate_of_target htemporary)

/-- `write` fills the temporary file where it is. -/
theorem write_staged (content' : ByteArray) :
    (t.put location (.file content')).write temporary content =
      (.ok (), t.put location (.file content)) := by
  have hsame : SameDirectories t (t.put location (.file content')) :=
    sameDirectories_put (by simp [hfree]) content'
  rw [write, hsame.target_eq_ok_iff.mp htemporary]
  simp only [put_put]

/-- `remove` takes the temporary file off, and leaves what was there before it. -/
theorem remove_staged : (t.put location (.file content)).remove temporary = t := by
  rw [remove, locate_staged hfree htemporary]
  simp only [erase_put, erase_of_at?_eq_none hfree]

/-- `rename` moves the temporary file to where the path leads, and nothing is left of it. -/
theorem rename_staged (path : String) :
    (t.put location (.file content)).rename temporary path =
      match (t.put location (.file content)).target path with
      | .error fault => (.error fault, t.put location (.file content))
      | .ok new => (.ok (), t.put new (.file content)) := by
  have hthere := at?_put_self t (.file content) (ne_nil_of_target htemporary)
  rw [rename, locate_staged hfree htemporary]
  cases (t.put location (.file content)).target path with
  | error fault => rfl
  | ok new => simp only [hthere, erase_put, erase_of_at?_eq_none hfree]

end Staged

/-- `write` can fill a file that was made, and all directories stay. -/
theorem exists_write_eq_ok {directory temporary : String}
    (h : t.create directory = (.ok temporary, t')) (content : ByteArray) :
    ∃ staged, t'.write temporary content = (.ok (), staged) ∧ SameDirectories t staged := by
  obtain ⟨location, hfree, htemporary, rfl⟩ := create_eq_ok h
  exact ⟨_, write_staged hfree htemporary content .empty,
    sameDirectories_put (by simp [hfree]) content⟩

end Tree

end PoolEnum
