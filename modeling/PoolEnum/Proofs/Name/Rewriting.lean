import PoolEnum.Proofs.Name.Valid

/-!
# PoolEnum.Proofs.Name.Rewriting

The spelling of a text, said as two rewritings of the whole text.

`substituted` replaces the per cent signs and puts the underscore before a leading
digit; `RunsWritten` says of two texts that the second is the first with every
maximal run of characters outside `[A-Za-z0-9_]` written as one underscore.
Neither goes over the text with a flag.

`runsWritten_iff` says that there is exactly one such text and that `squeeze`
finds it, `spell_eq` that `spell` is the two rewritings in turn. The main
result, `normalize_rewriting`, reads the name of a text and its flag off the
rewritten text.
-/

namespace PoolEnum

/-! ## the rewritings -/

/-- The characters `[A-Za-z0-9_]`. -/
def InWord (c : Char) : Prop :=
  ('A' ≤ c ∧ c ≤ 'Z') ∨ ('a' ≤ c ∧ c ≤ 'z') ∨ ('0' ≤ c ∧ c ≤ '9') ∨ c = '_'

/-- A text with every `%` replaced by `FMT_`, that is, the pieces between the per
cent signs joined by it, and an underscore in front iff the text begins with a
digit `0` to `9`. -/
def substituted (text : List Char) : List Char :=
  let replaced := ['F', 'M', 'T', '_'].intercalate (text.splitOn '%')
  if text.head?.any fun c => '0' ≤ c && c ≤ '9' then '_' :: replaced else replaced

/-- The second text is the first with every maximal run of characters outside
words written as one underscore. A run goes on to the end of the text or to a
character of a word, so no run is followed by another. -/
inductive RunsWritten : List Char → List Char → Prop
  | nil : RunsWritten [] []
  | word {c : Char} {rest written : List Char} (inside : InWord c) :
      RunsWritten rest written → RunsWritten (c :: rest) (c :: written)
  | run {run rest written : List Char} (nonempty : run ≠ []) (outside : ∀ c ∈ run, ¬ InWord c)
      (maximal : ∀ c ∈ rest.head?, InWord c) :
      RunsWritten rest written → RunsWritten (run ++ rest) ('_' :: written)

/-! ## characters -/

theorem isWordChar_iff_inWord {c : Char} : isWordChar c = true ↔ InWord c := by
  rw [isWordChar_iff_toNat, InWord, Char.ext_iff, ← UInt32.toNat_inj]
  simp only [Char.le_def, UInt32.le_iff_toNat_le]
  rfl

theorem isDigit_iff_le {c : Char} : c.isDigit = true ↔ '0' ≤ c ∧ c ≤ '9' := by
  rw [Char.isDigit, Bool.and_eq_true, decide_eq_true_eq, decide_eq_true_eq]
  rfl

/-! ## per cent signs and the leading digit -/

/-- `expandMarks` joins the pieces between the per cent signs. -/
theorem expandMarks_eq_intercalate (cs : List Char) :
    expandMarks cs = formatMarker.intercalate (cs.splitOn '%') := by
  induction cs with
  | nil => rfl
  | cons c cs ih =>
      by_cases hc : c = '%'
      · subst hc
        have hsplit : ([] ++ '%' :: cs).splitOn '%' = [] :: cs.splitOn '%' :=
          List.splitOn_append_cons_self_of_not_mem List.not_mem_nil cs
        rw [← List.nil_append ('%' :: cs), hsplit,
          List.intercalate_cons_of_ne_nil (List.splitOn_ne_nil _ _), ← ih]
        rfl
      · have hsplit : (c :: cs).splitOn '%' = (cs.splitOn '%').modifyHead (List.cons c) := by
          simp [List.splitOn, List.splitOnP_cons_eq_if_modifyHead, hc]
        obtain ⟨piece, pieces, hpieces⟩ :=
          List.exists_cons_of_ne_nil (List.splitOn_ne_nil '%' cs)
        rw [hsplit, hpieces, List.modifyHead_cons, List.intercalate_cons_cons_left, ← hpieces, ← ih]
        simp [expandMarks, hc]

theorem digitGuard_append_expandMarks (text : List Char) :
    digitGuard text ++ expandMarks text = substituted text := by
  rw [expandMarks_eq_intercalate, substituted]
  cases text with
  | nil => rfl
  | cons c cs =>
      by_cases hc : c.isDigit = true
      · simp [digitGuard, hc, isDigit_iff_le.mp hc, formatMarker]
      · have hrange : ¬ ('0' ≤ c ∧ c ≤ '9') := fun h => hc (isDigit_iff_le.mpr h)
        simp [digitGuard, hc, hrange, formatMarker]

/-! ## runs -/

/-- Inside of a run, `squeeze` leaves nothing of characters outside words. -/
theorem squeeze_true_append {run : List Char} (houtside : ∀ c ∈ run, ¬ InWord c)
    (rest : List Char) : squeeze true (run ++ rest) = squeeze true rest := by
  induction run with
  | nil => rfl
  | cons c run ih =>
      have hc : ¬ isWordChar c = true := mt isWordChar_iff_inWord.mp (houtside c List.mem_cons_self)
      rw [List.cons_append, squeeze, if_neg hc, if_pos rfl]
      exact ih fun d hd => houtside d (List.mem_cons_of_mem c hd)

/-- Where a run is over `squeeze` forgets that there was one. -/
theorem squeeze_true_eq {rest : List Char} (hword : ∀ c ∈ rest.head?, InWord c) :
    squeeze true rest = squeeze false rest := by
  cases rest with
  | nil => rfl
  | cons c rest =>
      have hc : isWordChar c = true := isWordChar_iff_inWord.mpr (hword c rfl)
      rw [squeeze, squeeze, if_pos hc, if_pos hc]

/-- What has its `RunsWritten` is what `squeeze` makes of the text. -/
theorem RunsWritten.eq_squeeze {text written : List Char} (h : RunsWritten text written) :
    written = squeeze false text := by
  induction h with
  | nil => rfl
  | word inside _ ih =>
      rw [squeeze, if_pos (isWordChar_iff_inWord.mpr inside), ← ih]
  | @run run rest written nonempty outside maximal _ ih =>
      obtain ⟨c, run, rfl⟩ := List.exists_cons_of_ne_nil nonempty
      have hc : ¬ isWordChar c = true := mt isWordChar_iff_inWord.mp (outside c List.mem_cons_self)
      have houtside : ∀ d ∈ run, ¬ InWord d := fun d hd => outside d (List.mem_cons_of_mem c hd)
      rw [List.cons_append, squeeze, if_neg hc, if_neg Bool.false_ne_true,
        squeeze_true_append houtside, squeeze_true_eq maximal, ← ih]

/-- `squeeze` leaves a text with its `RunsWritten`. In the middle of a run, which is what the flag
tells, what is left of it comes first and counts for nothing. -/
theorem runsWritten_squeeze (text : List Char) :
    RunsWritten text (squeeze false text) ∧
      ∃ run rest, text = run ++ rest ∧ (∀ c ∈ run, ¬ InWord c) ∧ (∀ c ∈ rest.head?, InWord c) ∧
        RunsWritten rest (squeeze true text) := by
  induction text with
  | nil => exact ⟨.nil, [], [], rfl, by simp, by simp, .nil⟩
  | cons c text ih =>
      obtain ⟨hwritten, run, rest, htext, houtside, hmaximal, hrest⟩ := ih
      by_cases hc : isWordChar c = true
      · have hin : InWord c := isWordChar_iff_inWord.mp hc
        rw [squeeze, squeeze, if_pos hc, if_pos hc]
        exact ⟨.word hin hwritten, [], c :: text, rfl, by simp, by simpa using hin,
          .word hin hwritten⟩
      · have hin : ¬ InWord c := mt isWordChar_iff_inWord.mpr hc
        have hrun : ∀ d ∈ c :: run, ¬ InWord d := by
          intro d hd
          cases List.mem_cons.mp hd with
          | inl h => rwa [h]
          | inr h => exact houtside d h
        rw [squeeze, squeeze, if_neg hc, if_neg hc, if_neg Bool.false_ne_true, if_pos rfl]
        refine ⟨?_, c :: run, rest, by rw [htext, List.cons_append], hrun, hmaximal, hrest⟩
        have hwhole : RunsWritten ((c :: run) ++ rest) ('_' :: squeeze true text) :=
          .run (List.cons_ne_nil c run) hrun hmaximal hrest
        rwa [List.cons_append, ← htext] at hwhole

/-- Every text has its `RunsWritten` in one way, and `squeeze` finds it. -/
theorem runsWritten_iff {text written : List Char} :
    RunsWritten text written ↔ written = squeeze false text := by
  constructor
  · exact RunsWritten.eq_squeeze
  · intro h
    rw [h]
    exact (runsWritten_squeeze text).1

/-! ## the whole text -/

/-- The `digitGuard` is of a word, so `squeeze` leaves it as it is. -/
theorem squeeze_digitGuard_append (text rest : List Char) :
    squeeze false (digitGuard text ++ rest) = digitGuard text ++ squeeze false rest := by
  have hword : isWordChar '_' = true := rfl
  cases text with
  | nil => rfl
  | cons c cs =>
      rw [digitGuard]
      split
      · rw [List.singleton_append, squeeze, if_pos hword, List.singleton_append]
      · rfl

/-- `spell` writes the runs of what is `substituted` for a text. -/
theorem spell_eq (text : List Char) : spell text = squeeze false (substituted text) := by
  rw [← digitGuard_append_expandMarks, squeeze_digitGuard_append, spell]

/-- What a text is named. The empty text is `empty`, and nothing is lost. Any
other text has one rewriting `f`: per cent signs are substituted, a leading digit
is guarded, and then the runs are written. The pass over the text gives `f`,
trimming takes nothing off it, its first 20 characters are the name, and the flag
tells whether there are more, which the sizes in bytes tell as well. -/
theorem normalize_rewriting (text : String) :
    (text = "" → normalize text = "empty" ∧ (normalizeTracked text.toList).truncated = false) ∧
    (text ≠ "" → ∃ f, (∀ written, RunsWritten (substituted text.toList) written ↔ written = f) ∧
      spell text.toList = f ∧
      trim f = f ∧
      normalize text = String.ofList (f.take 20) ∧
      ((normalizeTracked text.toList).truncated = true ↔ 20 < f.length) ∧
      ((String.ofList (f.take 20)).utf8ByteSize < (String.ofList f).utf8ByteSize ↔
        20 < f.length)) := by
  constructor
  · intro h
    subst h
    exact ⟨rfl, rfl⟩
  · intro h
    have hne : text.toList ≠ [] := by simpa using h
    have hword : ∀ c ∈ spell text.toList, isWordChar c = true :=
      fun c hc => isWordChar_of_mem_spell hc
    have hfirst : ∀ c ∈ (spell text.toList).take 20, isWordChar c = true :=
      fun c hc => hword c (List.mem_of_mem_take hc)
    have hname := normalizeTracked_eq hne
    refine ⟨spell text.toList, ?_, rfl, trim_of_isWordChar hword, ?_, ?_, ?_⟩
    · intro written
      rw [spell_eq, runsWritten_iff]
    · rw [normalize, hname]
      rfl
    · rw [hname, decide_eq_true_eq]
      rfl
    · rw [utf8ByteSize_ofList_of_isWordChar hword, utf8ByteSize_ofList_of_isWordChar hfirst,
        List.length_take]
      omega

end PoolEnum
