import PoolEnum.Files.Path

/-!
# PoolEnum.Proofs.Files.Path

The steps of a path that is put together from a directory and a name.

A text without a slash that is neither empty nor made of one or two dots is one
step wherever it stands (`IsName`). So the path of an entry of a directory has the
steps of the directory and one more (`spelled_within`), and it asks for no
directory at its end (`walk_within`).
-/

namespace PoolEnum

/-- A text without separators is one piece. -/
theorem pieces_of_not_mem {separator : Char} {cs : List Char} (h : separator ∉ cs) :
    pieces separator cs = [cs] := by
  induction cs with
  | nil => rfl
  | cons c cs ih =>
      obtain ⟨hc, hcs⟩ := not_or.mp (mt List.mem_cons.mpr h)
      rw [pieces, if_neg (Ne.symm hc), ih hcs]

namespace Path

/-- A text that is one step of a path, and that step an entry of a directory. -/
structure IsName (text : String) : Prop where
  slash : '/' ∉ text.toList
  step : Step.ofSpelledPiece text.toList = some (.name text)

variable {directory name : String}

/-- What `IsName` is not empty. -/
theorem IsName.ne_nil (h : IsName name) : name.toList ≠ [] := by
  intro hnil
  have hstep := h.step
  rw [hnil] at hstep
  simp [Step.ofSpelledPiece, Step.ofPiece] at hstep

/-- Between the directory and the entry there is one slash at least. -/
theorem exists_toList_within (directory name : String) :
    ∃ cs, (within directory name).toList = cs ++ '/' :: name.toList ∧
      (directory.toList = cs ∨ directory.toList = cs ++ ['/']) := by
  unfold within
  split
  · next h =>
    obtain ⟨cs, hcs⟩ := List.getLast?_eq_some_iff.mp (beq_iff_eq.mp h)
    exact ⟨cs, by rw [String.toList_append, hcs]; simp, .inr hcs⟩
  · exact ⟨directory.toList, by simp, .inl rfl⟩

/-- A path `within` a directory is not empty. -/
theorem within_ne_empty (directory name : String) : within directory name ≠ "" := by
  obtain ⟨cs, hwithin, -⟩ := exists_toList_within directory name
  intro hempty
  simp [hempty] at hwithin

theorem absolute_ne_empty (start path : String) : absolute start path ≠ "" := by
  unfold absolute
  split
  · next h =>
    intro hpath
    rw [hpath] at h
    contradiction
  · exact within_ne_empty start path

theorem spelled_empty : spelled "" = [] := by
  rfl

/-- A path `within` a directory is absolute iff the directory is. -/
theorem isAbsolute_within (hd : directory ≠ "") :
    isAbsolute (within directory name) = isAbsolute directory := by
  have hne : directory.toList ≠ [] := by simpa using hd
  obtain ⟨c, cs, hcons⟩ := List.exists_cons_of_ne_nil hne
  unfold within
  split <;> simp [isAbsolute, hcons]

/-- A path `within` a directory spells out the directory and the path. -/
theorem spelled_within (hd : directory ≠ "") {path : String} (hpath : isAbsolute path = false) :
    spelled (within directory path) = spelled directory ++ spelled path := by
  obtain ⟨cs, hwithin, hdirectory⟩ := exists_toList_within directory path
  have hpieces : (pieces '/' directory.toList).filterMap Step.ofSpelledPiece =
      (pieces '/' cs).filterMap Step.ofSpelledPiece := by
    rcases hdirectory with h | h
    · rw [h]
    · rw [h, pieces_append_cons, List.filterMap_append]
      simp [pieces, Step.ofSpelledPiece, Step.ofPiece]
  simp only [spelled, isAbsolute_within hd, hpath]
  rw [hwithin, pieces_append_cons, List.filterMap_append, hpieces]
  simp

/-- What `IsName` is no absolute path. -/
theorem IsName.isAbsolute (hn : IsName name) : isAbsolute name = false := by
  rw [Path.isAbsolute, beq_eq_false_iff_ne]
  intro hslash
  exact hn.slash (List.mem_of_head? hslash)

/-- What `IsName` spells out one step. -/
theorem IsName.spelled (hn : IsName name) : spelled name = [.name name] := by
  rw [Path.spelled, hn.isAbsolute, pieces_of_not_mem hn.slash]
  simp [hn.step]

/-- A path `within` a directory that ends in a name asks for no directory. -/
theorem endsInSlash_within (hn : IsName name) : endsInSlash (within directory name) = false := by
  obtain ⟨cs, hwithin, -⟩ := exists_toList_within directory name
  rw [endsInSlash, hwithin, beq_eq_false_iff_ne]
  intro hslash
  cases hlast : name.toList.getLast? with
  | none => exact hn.ne_nil (List.getLast?_eq_none_iff.mp hlast)
  | some d =>
      rw [List.getLast?_append, List.getLast?_cons, hlast] at hslash
      have hd : d = '/' := by simpa using hslash
      exact hn.slash (hd ▸ List.mem_of_getLast? hlast)

/-- The steps to an entry `within` a directory: those that the directory spells out, and its
name. -/
theorem walk_within (hd : directory ≠ "") (hn : IsName name) :
    walk (within directory name) = spelled directory ++ [.name name] := by
  rw [walk, endsInSlash_within hn, spelled_within hd hn.isAbsolute, hn.spelled]
  simp

end Path

end PoolEnum
