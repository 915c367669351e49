import Mathlib.Data.List.Basic
import PoolEnum.Toml.Text

/-!
# PoolEnum.Proofs.Toml.Text

What is read on one line does not depend on the lines behind it: comments and strings.

If a reader succeeds on a text within a line, it does the same in front of a line end, and
what it leaves is followed by that (`Stays`). Readers that stop at a mark of their own do so in
front of any text. Where a string ends is told by a mark, and only a line break behind a
backslash or more marks could change that; neither is there at a line end.
-/

namespace PoolEnum.Toml

/-- Text within a line. -/
def OneLine (cs : List Char) : Prop :=
  '\n' ∉ cs ∧ '\r' ∉ cs

/-- Text from a line end on. -/
def Breaks (more : List Char) : Prop :=
  ∃ c rest, more = c :: rest ∧ (c = '\n' ∨ c = '\r')

/-- A line feed alone `Breaks` a line. -/
theorem breaks_feed : Breaks ['\n'] :=
  ⟨'\n', [], rfl, .inl rfl⟩

/-- Text that `Breaks` a line is not empty. -/
theorem Breaks.length_pos {more : List Char} (h : Breaks more) : 0 < more.length := by
  obtain ⟨c, rest, rfl, -⟩ := h
  exact Nat.succ_pos _

/-- What `read` does with a text does not depend on the lines behind that: it is the same in front
of text that `Breaks` the line. -/
structure Stays {α : Type} (read : List Char → Option (α × List Char)) (cs : List Char) (a : α)
    (rest : List Char) : Prop where
  suffix : rest <:+ cs
  append : ∀ more, Breaks more → read (cs ++ more) = some (a, rest ++ more)

/-- What a reader leaves of text that is `OneLine` is `OneLine` too. -/
theorem OneLine.of_suffix {cs rest : List Char} (h : OneLine cs) (hrest : rest <:+ cs) :
    OneLine rest :=
  ⟨fun hmem => h.1 (hrest.subset hmem), fun hmem => h.2 (hrest.subset hmem)⟩

/-- The first character of text that is `OneLine` ends no line. -/
theorem OneLine.head {c : Char} {cs : List Char} (h : OneLine (c :: cs)) : c ≠ '\n' ∧ c ≠ '\r' :=
  ⟨fun hc => h.1 (hc ▸ List.mem_cons_self), fun hc => h.2 (hc ▸ List.mem_cons_self)⟩

theorem OneLine.tail {c : Char} {cs : List Char} (h : OneLine (c :: cs)) : OneLine cs :=
  h.of_suffix (List.suffix_cons c cs)

/-! ## passing over characters -/

section

variable {more : List Char} {p : Char → Bool}

/-- `dropWhile` of characters that are no line ends takes nothing off text that `Breaks` a line. -/
theorem Breaks.dropWhile_eq (hmore : Breaks more) (hfeed : p '\n' = false)
    (hreturn : p '\r' = false) : more.dropWhile p = more := by
  obtain ⟨c, rest, rfl, rfl | rfl⟩ := hmore
  · simp [hfeed]
  · simp [hreturn]

/-- `dropWhile` of characters that are no line ends stops where the line ends. -/
theorem dropWhile_append_of_breaks (hmore : Breaks more) (hfeed : p '\n' = false)
    (hreturn : p '\r' = false) (cs : List Char) :
    (cs ++ more).dropWhile p = cs.dropWhile p ++ more := by
  rw [List.dropWhile_append, hmore.dropWhile_eq hfeed hreturn]
  split
  · next hempty => rw [List.isEmpty_iff.mp hempty, List.nil_append]
  · rfl

/-- `takeWhile` of characters that are no line ends takes nothing from behind the line. -/
theorem takeWhile_append_of_breaks (hmore : Breaks more) (hfeed : p '\n' = false)
    (hreturn : p '\r' = false) (cs : List Char) :
    (cs ++ more).takeWhile p = cs.takeWhile p := by
  have hnone : more.takeWhile p = [] := by
    obtain ⟨c, rest, rfl, rfl | rfl⟩ := hmore
    · simp [hfeed]
    · simp [hreturn]
  rw [List.takeWhile_append]
  split
  · next hall =>
    rw [hnone, List.append_nil]
    exact ((List.takeWhile_prefix p).eq_of_length hall).symm
  · rfl

/-- `skipSpace` does not go past the end of a line. -/
theorem skipSpace_append (hmore : Breaks more) (cs : List Char) :
    skipSpace (cs ++ more) = skipSpace cs ++ more :=
  dropWhile_append_of_breaks hmore rfl rfl cs

theorem skipSpace_suffix (cs : List Char) : skipSpace cs <:+ cs :=
  List.dropWhile_suffix _

/-- `readMark` takes exactly the mark off, and succeeds only if it is there. -/
theorem readMark_eq_some_iff {mark : Char} {cs rest : List Char} :
    readMark mark cs = some rest ↔ cs = mark :: rest := by
  cases cs with
  | nil => simp [readMark]
  | cons c cs => by_cases hc : c = mark <;> simp [readMark, hc]

end

/-! ## escapes -/

/-- `readHex` reads its digits in front of any text. -/
theorem readHex_append {count value n : Nat} {cs rest : List Char}
    (h : readHex count value cs = some (n, rest)) (more : List Char) :
    rest <:+ cs ∧ readHex count value (cs ++ more) = some (n, rest ++ more) := by
  induction count generalizing value cs with
  | zero =>
      obtain ⟨rfl, rfl⟩ := Prod.mk.inj (Option.some.inj h)
      exact ⟨List.suffix_refl _, rfl⟩
  | succ count ih =>
      cases cs with
      | nil => contradiction
      | cons c cs =>
          simp only [readHex, bind, Option.bind_eq_some_iff, List.cons_append] at h ⊢
          obtain ⟨digit, hdigit, hrest⟩ := h
          obtain ⟨hsuffix, happend⟩ := ih hrest
          exact ⟨hsuffix.trans (List.suffix_cons c cs), digit, hdigit, happend⟩

/-- `readCodePoint` reads its character in front of any text. -/
theorem readCodePoint_append {count : Nat} {c : Char} {cs rest : List Char}
    (h : readCodePoint count cs = some (c, rest)) (more : List Char) :
    rest <:+ cs ∧ readCodePoint count (cs ++ more) = some (c, rest ++ more) := by
  unfold readCodePoint at h ⊢
  simp only [bind, Option.bind_eq_some_iff] at h ⊢
  obtain ⟨⟨n, behind⟩, hhex, h⟩ := h
  obtain ⟨hsuffix, happend⟩ := readHex_append hhex more
  dsimp only at h
  split at h
  · next hvalid =>
    obtain ⟨rfl, rfl⟩ := Prod.mk.inj (Option.some.inj h)
    exact ⟨hsuffix, _, happend, if_pos hvalid⟩
  · contradiction

/-- `readEscape` tells by itself where the escape ends, so it reads it in front of any text. -/
theorem readEscape_append {c : Char} {cs rest : List Char}
    (h : readEscape cs = some (c, rest)) (more : List Char) :
    rest <:+ cs ∧ readEscape (cs ++ more) = some (c, rest ++ more) := by
  cases cs with
  | nil => contradiction
  | cons d cs =>
      unfold readEscape at h ⊢
      simp only [List.cons_append] at h ⊢
      cases hshort : shortEscape d with
      | some e =>
          simp only [hshort, Option.some.injEq, Prod.mk.injEq] at h ⊢
          obtain ⟨rfl, rfl⟩ := h
          exact ⟨List.suffix_cons d _, rfl, rfl⟩
      | none =>
          cases hdigits : escapeDigits d with
          | none => simp [hshort, hdigits] at h
          | some count =>
              simp only [hshort, hdigits] at h ⊢
              obtain ⟨hsuffix, happend⟩ := readCodePoint_append h more
              exact ⟨hsuffix.trans (List.suffix_cons d cs), happend⟩

/-! ## strings on one line -/

/-- Readers put what they read in front of what is read behind it. -/
theorem map_fst_eq_some_iff {α β γ : Type} {r : Option (α × γ)} {f : α → β} {b : β} {c : γ} :
    (r.map fun (a, c) => (f a, c)) = some (b, c) ↔ ∃ a, r = some (a, c) ∧ f a = b := by
  cases r with
  | none => simp
  | some p =>
      obtain ⟨a, c'⟩ := p
      simp only [Option.map_some, Option.some.injEq, Prod.mk.injEq]
      constructor
      · rintro ⟨rfl, rfl⟩
        exact ⟨a, ⟨rfl, rfl⟩, rfl⟩
      · rintro ⟨a, ⟨rfl, rfl⟩, rfl⟩
        exact ⟨rfl, rfl⟩

/-- `readBasic` at a double quote: the string ends there. -/
theorem readBasic_quote (cs : List Char) : readBasic ('"' :: cs) = some ([], cs) := by
  rw [readBasic, if_pos rfl]

/-- `readBasic` at a backslash: one character by `readEscape`, then the rest. -/
theorem readBasic_escape {e : Char} {cs rest : List Char} (h : readEscape cs = some (e, rest)) :
    readBasic ('\\' :: cs) = (readBasic rest).map fun (s, rest) => (e :: s, rest) := by
  rw [readBasic, if_neg (by decide), if_pos rfl]
  split
  · next hnone => simp [h] at hnone
  · next e' rest' hsome =>
    obtain ⟨rfl, rfl⟩ := Prod.mk.inj (Option.some.inj (h.symm.trans hsome))
    rfl

/-- `readBasic` at a character that stands for itself. -/
theorem readBasic_plain {c : Char} (hquote : c ≠ '"') (hslash : c ≠ '\\') (hplain : isPlain c)
    (cs : List Char) :
    readBasic (c :: cs) = (readBasic cs).map fun (s, rest) => (c :: s, rest) := by
  rw [readBasic, if_neg hquote, if_neg hslash, if_pos hplain]

/-- `readBasic` ends at a mark of its own, so it reads its string in front of any text. -/
theorem readBasic_append {cs s rest : List Char} (h : readBasic cs = some (s, rest))
    (more : List Char) : rest <:+ cs ∧ readBasic (cs ++ more) = some (s, rest ++ more) := by
  fun_induction readBasic cs generalizing s with
  | case1 => contradiction
  | case2 cs =>
      obtain ⟨rfl, rfl⟩ := Prod.mk.inj (Option.some.inj h)
      exact ⟨List.suffix_cons _ _, readBasic_quote _⟩
  | case3 => contradiction
  | case4 cs e behind hescape _ _ ih =>
      obtain ⟨hsuffix, happend⟩ := readEscape_append hescape more
      obtain ⟨s', hread, rfl⟩ := map_fst_eq_some_iff.mp h
      obtain ⟨hsuffix', happend'⟩ := ih hread
      refine ⟨hsuffix'.trans (hsuffix.trans (List.suffix_cons _ _)), ?_⟩
      rw [List.cons_append, readBasic_escape happend, happend', Option.map_some]
  | case5 c cs hquote hslash hplain ih =>
      obtain ⟨s', hread, rfl⟩ := map_fst_eq_some_iff.mp h
      obtain ⟨hsuffix, happend⟩ := ih hread
      refine ⟨hsuffix.trans (List.suffix_cons _ _), ?_⟩
      rw [List.cons_append, readBasic_plain hquote hslash hplain, happend, Option.map_some]
  | case6 => contradiction

/-- `readLiteral` ends at a mark of its own, so it reads its string in front of any text. -/
theorem readLiteral_append {cs s rest : List Char} (h : readLiteral cs = some (s, rest))
    (more : List Char) : rest <:+ cs ∧ readLiteral (cs ++ more) = some (s, rest ++ more) := by
  fun_induction readLiteral cs generalizing s with
  | case1 => contradiction
  | case2 cs =>
      obtain ⟨rfl, rfl⟩ := Prod.mk.inj (Option.some.inj h)
      exact ⟨List.suffix_cons _ _, by rw [List.cons_append, readLiteral, if_pos rfl]⟩
  | case3 c cs hmark hplain ih =>
      obtain ⟨s', hread, rfl⟩ := map_fst_eq_some_iff.mp h
      obtain ⟨hsuffix, happend⟩ := ih hread
      refine ⟨hsuffix.trans (List.suffix_cons _ _), ?_⟩
      rw [List.cons_append, readLiteral, if_neg hmark, if_pos hplain, happend, Option.map_some]
  | case4 => contradiction

/-! ## strings over several lines, within one -/

/-- `readNewline` finds no line end in text that is `OneLine`. -/
theorem readNewline_of_oneLine {cs : List Char} (h : OneLine cs) : readNewline cs = none := by
  unfold readNewline
  split
  · exact absurd List.mem_cons_self h.1
  · exact absurd List.mem_cons_self h.2
  · rfl

/-- `readNewline` looks at the front of the text only, so lines behind it change nothing. -/
theorem readNewline_append {cs : List Char} (h : OneLine cs) (hne : cs ≠ []) (more : List Char) :
    readNewline (cs ++ more) = none := by
  obtain ⟨c, rest, rfl⟩ := List.exists_cons_of_ne_nil hne
  unfold readNewline
  split
  · next heq => exact absurd ((List.cons.inj heq).1 ▸ List.mem_cons_self) h.1
  · next heq => exact absurd ((List.cons.inj heq).1 ▸ List.mem_cons_self) h.2
  · rfl

/-- `skipLineBreak` finds no line end in text that is `OneLine`. -/
theorem skipLineBreak_of_oneLine {cs : List Char} (h : OneLine cs) : skipLineBreak cs = none := by
  rw [skipLineBreak, readNewline_of_oneLine (h.of_suffix (skipSpace_suffix cs)), Option.map_none]

/-- A backslash that starts an escape does not end its line by `skipLineBreak`, whatever lines
follow. -/
theorem skipLineBreak_append {c : Char} {cs rest more : List Char} (h : OneLine cs)
    (hescape : readEscape cs = some (c, rest)) (hmore : Breaks more) :
    skipLineBreak (cs ++ more) = none := by
  have hne : skipSpace cs ≠ [] := by
    cases cs with
    | nil => contradiction
    | cons d cs =>
        have hd : isSpace d = false := by
          by_contra hspace
          have hblank : d = ' ' ∨ d = '\t' := by
            simpa only [isSpace, Bool.not_eq_false, Bool.or_eq_true, beq_iff_eq] using hspace
          rcases hblank with rfl | rfl <;> simp [readEscape, shortEscape, escapeDigits] at hescape
        simp [skipSpace, hd]
  rw [skipLineBreak, skipSpace_append hmore,
    readNewline_append (h.of_suffix (skipSpace_suffix cs)) hne, Option.map_none]

section

variable {mark : Char} {escapes : Bool} {more : List Char}

/-- `takeMarks` stops where the line ends. -/
theorem takeMarks_append (hmark : mark ≠ '\n' ∧ mark ≠ '\r') (hmore : Breaks more)
    (cs : List Char) :
    takeMarks mark (cs ++ more) = ((takeMarks mark cs).1, (takeMarks mark cs).2 ++ more) := by
  have hfeed : (fun c => decide (c = mark)) '\n' = false := decide_eq_false (Ne.symm hmark.1)
  have hreturn : (fun c => decide (c = mark)) '\r' = false := decide_eq_false (Ne.symm hmark.2)
  unfold takeMarks
  rw [takeWhile_append_of_breaks hmore hfeed hreturn,
    dropWhile_append_of_breaks hmore hfeed hreturn]

theorem takeMarks_suffix (mark : Char) (cs : List Char) : (takeMarks mark cs).2 <:+ cs :=
  List.dropWhile_suffix _

/-- `readLong` at a run of its marks: fewer than three belong to the string, and up to five end
it. -/
theorem readLong_marks (cs : List Char) :
    readLong mark escapes (mark :: cs) =
      let (marks, rest) := takeMarks mark (mark :: cs)
      if marks.length < 3 then
        (readLong mark escapes rest).map fun (s, rest) => (marks ++ s, rest)
      else if marks.length < 6 then some (marks.drop 3, rest)
      else none := by
  rw [readLong, dif_pos rfl]

/-- `readLong` at a backslash that is read by `readEscape`. -/
theorem readLong_escape {e : Char} {cs rest : List Char} (hmark : '\\' ≠ mark)
    (hbreak : skipLineBreak cs = none) (h : readEscape cs = some (e, rest)) :
    readLong mark true ('\\' :: cs) =
      (readLong mark true rest).map fun (s, rest) => (e :: s, rest) := by
  rw [readLong, dif_neg hmark, if_pos ⟨rfl, rfl⟩]
  split
  · next hsome => simp [hbreak] at hsome
  · split
    · next hnone => simp [h] at hnone
    · next e' rest' hsome =>
      obtain ⟨rfl, rfl⟩ := Prod.mk.inj (Option.some.inj (h.symm.trans hsome))
      rfl

/-- `readLong` at a character that stands for itself. -/
theorem readLong_plain {c : Char} (hmark : c ≠ mark) (hslash : ¬ (c = '\\' ∧ escapes))
    (hplain : isPlain c) (cs : List Char) :
    readLong mark escapes (c :: cs) =
      (readLong mark escapes cs).map fun (s, rest) => (c :: s, rest) := by
  rw [readLong, dif_neg hmark, if_neg hslash, if_pos (.inr (.inl hplain))]

/-- `readLong` `Stays`: a line end can neither belong to a run of marks nor turn an escape into a
line break. -/
theorem readLong_stays {cs s rest : List Char} (hmark : mark ≠ '\n' ∧ mark ≠ '\r')
    (hline : OneLine cs) (h : readLong mark escapes cs = some (s, rest)) :
    Stays (readLong mark escapes) cs s rest := by
  fun_induction readLong mark escapes cs generalizing s with
  | case1 => contradiction
  | case2 cs marks _ hfew =>
      rename_i ih
      have hmarks := takeMarks_suffix mark (mark :: cs)
      obtain ⟨s', hread, rfl⟩ := map_fst_eq_some_iff.mp h
      have hstays := ih (hline.of_suffix hmarks) hread
      refine ⟨hstays.suffix.trans hmarks, fun more hmore => ?_⟩
      have happend := takeMarks_append hmark hmore (mark :: cs)
      rw [List.cons_append] at happend ⊢
      rw [readLong_marks, happend]
      dsimp only
      rw [if_pos hfew, hstays.append more hmore, Option.map_some]
  | case3 cs marks _ hmany =>
      rename_i hmost
      obtain ⟨rfl, rfl⟩ := Prod.mk.inj (Option.some.inj h)
      refine ⟨takeMarks_suffix mark (mark :: cs), fun more hmore => ?_⟩
      have happend := takeMarks_append hmark hmore (mark :: cs)
      rw [List.cons_append] at happend ⊢
      rw [readLong_marks, happend]
      dsimp only
      rw [if_neg hmany, if_pos hmost]
  | case4 => contradiction
  | case5 c cs _ _ _ hbreak =>
      rw [skipLineBreak_of_oneLine hline.tail] at hbreak
      contradiction
  | case6 => contradiction
  | case7 c cs hc hslash _ e behind hescape _ ih =>
      obtain ⟨rfl, rfl⟩ := hslash
      obtain ⟨hsuffix, -⟩ := readEscape_append hescape []
      obtain ⟨s', hread, rfl⟩ := map_fst_eq_some_iff.mp h
      have hstays := ih (hline.tail.of_suffix hsuffix) hread
      refine ⟨hstays.suffix.trans (hsuffix.trans (List.suffix_cons _ _)), fun more hmore => ?_⟩
      have hbreak := skipLineBreak_append hline.tail hescape hmore
      rw [List.cons_append, readLong_escape hc hbreak (readEscape_append hescape more).2,
        hstays.append more hmore, Option.map_some]
  | case8 c cs hc hslash hallowed ih =>
      obtain ⟨s', hread, rfl⟩ := map_fst_eq_some_iff.mp h
      have hstays := ih hline.tail hread
      have hplain : isPlain c := by
        rcases hallowed with rfl | hplain | ⟨rfl, -⟩
        · exact absurd List.mem_cons_self hline.1
        · exact hplain
        · exact absurd List.mem_cons_self hline.2
      refine ⟨hstays.suffix.trans (List.suffix_cons _ _), fun more hmore => ?_⟩
      rw [List.cons_append, readLong_plain hc hslash hplain, hstays.append more hmore,
        Option.map_some]
  | case9 => contradiction

end

/-! ## strings -/

/-- `dropNewline` takes nothing off text that is `OneLine`. -/
theorem dropNewline_of_oneLine {cs : List Char} (h : OneLine cs) : dropNewline cs = cs := by
  rw [dropNewline, readNewline_of_oneLine h, Option.getD_none]

/-- `dropNewline` takes nothing off text that goes on in its line, whatever lines follow. -/
theorem dropNewline_append {cs : List Char} (h : OneLine cs) (hne : cs ≠ []) (more : List Char) :
    dropNewline (cs ++ more) = cs ++ more := by
  rw [dropNewline, readNewline_append h hne, Option.getD_none]

theorem take_two_eq_iff {a b : Char} {cs : List Char} :
    cs.take 2 = [a, b] ↔ ∃ rest, cs = a :: b :: rest := by
  match cs with
  | [] => simp
  | [c] => simp
  | c :: d :: rest => simp

theorem isQuote_iff {c : Char} : isQuote c = true ↔ c = '"' ∨ c = apostrophe := by
  simp [isQuote]

/-- `readString` at a double quote: two more open a string over several lines. -/
theorem readString_quote (cs : List Char) :
    readString ('"' :: cs) =
      (if cs.take 2 = ['"', '"'] then readLong '"' true (dropNewline (cs.drop 2))
        else readBasic cs).map fun (s, rest) => (String.ofList s, rest) := by
  rw [Option.map_eq_bind]
  by_cases hlong : cs.take 2 = ['"', '"']
  · obtain ⟨rest, rfl⟩ := take_two_eq_iff.mp hlong
    rw [if_pos hlong]
    rfl
  · rw [if_neg hlong]
    unfold readString
    split
    case h_1 rest heq =>
      obtain ⟨-, rfl⟩ := List.cons.inj heq
      exact absurd rfl hlong
    case h_2 heq =>
      obtain ⟨-, rfl⟩ := List.cons.inj heq
      rfl
    case h_3 hbasic heq => exact absurd (List.cons.inj heq).1.symm hbasic
    case h_4 hbasic _ heq => exact absurd (List.cons.inj heq).1.symm hbasic
    case h_5 => contradiction

/-- `readString` at an `apostrophe`: two more open a string over several lines, and there are no
escapes. -/
theorem readString_apostrophe (cs : List Char) :
    readString (apostrophe :: cs) =
      (if cs.take 2 = [apostrophe, apostrophe] then
          readLong apostrophe false (dropNewline (cs.drop 2))
        else readLiteral cs).map fun (s, rest) => (String.ofList s, rest) := by
  have hquote : apostrophe ≠ '"' := by decide
  rw [Option.map_eq_bind]
  by_cases hlong : cs.take 2 = [apostrophe, apostrophe]
  · obtain ⟨rest, rfl⟩ := take_two_eq_iff.mp hlong
    rw [if_pos hlong]
    rfl
  · rw [if_neg hlong]
    unfold readString
    split
    case h_1 heq => exact absurd (List.cons.inj heq).1 hquote
    case h_2 heq => exact absurd (List.cons.inj heq).1 hquote
    case h_3 b c rest _ _ heq =>
      obtain ⟨rfl, rfl⟩ := List.cons.inj heq
      have htwo : ¬ (b = apostrophe ∧ c = apostrophe) := by simpa using hlong
      dsimp only
      rw [if_neg fun h => htwo h.2, if_pos rfl]
      rfl
    case h_4 heq =>
      obtain ⟨rfl, rfl⟩ := List.cons.inj heq
      dsimp only
      rw [if_pos rfl]
      rfl
    case h_5 => contradiction

/-- No other mark begins a string. -/
theorem readString_other {mark : Char} (h : ¬ isQuote mark = true) (cs : List Char) :
    readString (mark :: cs) = none := by
  have hquote : mark ≠ '"' := fun heq => h (isQuote_iff.mpr (.inl heq))
  have hliteral : mark ≠ apostrophe := fun heq => h (isQuote_iff.mpr (.inr heq))
  unfold readString
  split
  case h_1 heq => exact absurd (List.cons.inj heq).1 hquote
  case h_2 heq => exact absurd (List.cons.inj heq).1 hquote
  case h_3 heq =>
    obtain ⟨rfl, rfl⟩ := List.cons.inj heq
    simp [hliteral]
  case h_4 heq =>
    obtain ⟨rfl, rfl⟩ := List.cons.inj heq
    simp [hliteral]
  case h_5 => contradiction

/-- A string by its opening mark, and by whether that is there three times. -/
theorem readString_cons (mark : Char) (cs : List Char) :
    readString (mark :: cs) =
      (if isQuote mark then
        if cs.take 2 = [mark, mark] then readLong mark (mark == '"') (dropNewline (cs.drop 2))
        else if mark = '"' then readBasic cs
        else readLiteral cs
      else none).map fun (s, rest) => (String.ofList s, rest) := by
  by_cases hquote : isQuote mark = true
  · rcases isQuote_iff.mp hquote with rfl | rfl
    · exact readString_quote cs
    · exact readString_apostrophe cs
  · rw [readString_other hquote, if_neg hquote]
    rfl

/-- Two marks at the front of a text are not completed by the lines behind it. -/
theorem take_two_append {mark : Char} {cs more : List Char} (hmark : mark ≠ '\n' ∧ mark ≠ '\r')
    (hmore : Breaks more) : (cs ++ more).take 2 = [mark, mark] ↔ cs.take 2 = [mark, mark] := by
  obtain ⟨c, rest, rfl, hc⟩ := hmore
  have hne : c ≠ mark := by
    rintro rfl
    rcases hc with rfl | rfl
    · exact hmark.1 rfl
    · exact hmark.2 rfl
  match cs with
  | [] => simp [hne]
  | [a] => simp [hne]
  | a :: b :: cs => simp

/-- `readString` `Stays`, whatever marks are around the string. -/
theorem readString_stays {cs : List Char} {s : String} {rest : List Char} (hline : OneLine cs)
    (h : readString cs = some (s, rest)) : Stays readString cs s rest := by
  cases cs with
  | nil => contradiction
  | cons mark cs =>
      rw [readString_cons] at h
      obtain ⟨s', hread, rfl⟩ := map_fst_eq_some_iff.mp h
      split at hread
      case isFalse => contradiction
      case isTrue hquote =>
        have hmark : mark ≠ '\n' ∧ mark ≠ '\r' := by
          rcases isQuote_iff.mp hquote with rfl | rfl <;> decide
        by_cases hlong : cs.take 2 = [mark, mark]
        · obtain ⟨body, rfl⟩ := take_two_eq_iff.mp hlong
          have hbody : OneLine body := hline.of_suffix ⟨[mark, mark, mark], rfl⟩
          rw [if_pos hlong, List.drop_succ_cons, List.drop_succ_cons, List.drop_zero,
            dropNewline_of_oneLine hbody] at hread
          have hstays := readLong_stays hmark hbody hread
          have hne : body ≠ [] := by
            rintro rfl
            rw [readLong] at hread
            contradiction
          refine ⟨hstays.suffix.trans ⟨[mark, mark, mark], rfl⟩, fun more hmore => ?_⟩
          rw [List.cons_append, readString_cons, if_pos hquote,
            if_pos ((take_two_append hmark hmore).mpr hlong), List.cons_append, List.cons_append,
            List.drop_succ_cons, List.drop_succ_cons, List.drop_zero,
            dropNewline_append hbody hne, hstays.append more hmore, Option.map_some]
        · rw [if_neg hlong] at hread
          have hshort (more : List Char) : rest <:+ cs ∧
              (if mark = '"' then readBasic (cs ++ more) else readLiteral (cs ++ more)) =
                some (s', rest ++ more) := by
            by_cases hbasic : mark = '"'
            · rw [if_pos hbasic] at hread ⊢
              exact readBasic_append hread more
            · rw [if_neg hbasic] at hread ⊢
              exact readLiteral_append hread more
          refine ⟨(hshort []).1.trans (List.suffix_cons _ _), fun more hmore => ?_⟩
          rw [List.cons_append, readString_cons, if_pos hquote,
            if_neg (mt (take_two_append hmark hmore).mp hlong), (hshort more).2, Option.map_some]

/-- What `takeString` finds is what `readString` reads. -/
theorem takeString_eq {cs : List Char} {s : String} {rest : List Char}
    (h : takeString cs = (some s, rest)) : readString cs = some (s, rest) := by
  unfold takeString at h
  split at h
  · next hread =>
    obtain ⟨hs, rfl⟩ := Prod.mk.inj h
    rw [hread, Option.some.inj hs]
  · exact absurd (congrArg Prod.fst h) (by simp)

/-- `takeString` of a string that can be read stays as it is. -/
theorem takeString_append {cs more : List Char} {s : String} {rest : List Char}
    (hline : OneLine cs) (h : takeString cs = (some s, rest)) (hmore : Breaks more) :
    rest <:+ cs ∧ takeString (cs ++ more) = (some s, rest ++ more) := by
  have hstays := readString_stays hline (takeString_eq h)
  refine ⟨hstays.suffix, ?_⟩
  rw [takeString, hstays.append more hmore]

/-! ## blanks, line ends and comments -/

/-- `skipTrivia` at a character that ends no line. -/
theorem skipTrivia_cons {inComment : Bool} {c : Char} (hc : c ≠ '\n' ∧ c ≠ '\r')
    (cs : List Char) :
    skipTrivia inComment (c :: cs) =
      if inComment then if isPlain c then skipTrivia true cs else none
      else if isSpace c then skipTrivia false cs
      else if c = '#' then skipTrivia true cs
      else some (c :: cs) := by
  conv_lhs => unfold skipTrivia
  split
  · contradiction
  · next heq => exact absurd (List.cons.inj heq).1 hc.1
  · next heq => exact absurd (List.cons.inj heq).1 hc.2
  · next heq =>
    obtain ⟨rfl, rfl⟩ := List.cons.inj heq
    rfl

/-- A comment takes the rest of its line. -/
theorem skipTrivia_comment {cs rest : List Char} (hline : OneLine cs)
    (h : skipTrivia true cs = some rest) : rest = [] := by
  induction cs with
  | nil => exact (Option.some.inj h).symm
  | cons c cs ih =>
      rw [skipTrivia_cons hline.head, if_pos rfl] at h
      split at h
      · exact ih hline.tail h
      · contradiction

/-- If `skipTrivia` comes to a character within a line, it does so in front of any text. -/
theorem skipTrivia_append {c : Char} {cs rest : List Char} (hline : OneLine cs)
    (h : skipTrivia false cs = some (c :: rest)) (more : List Char) :
    c :: rest <:+ cs ∧ skipTrivia false (cs ++ more) = some (c :: rest ++ more) := by
  induction cs with
  | nil => simp [skipTrivia] at h
  | cons d cs ih =>
      rw [List.cons_append, skipTrivia_cons hline.head, if_neg Bool.false_ne_true]
      rw [skipTrivia_cons hline.head, if_neg Bool.false_ne_true] at h
      by_cases hspace : isSpace d
      · rw [if_pos hspace] at h ⊢
        obtain ⟨hsuffix, happend⟩ := ih hline.tail h
        exact ⟨hsuffix.trans (List.suffix_cons _ _), happend⟩
      · rw [if_neg hspace] at h ⊢
        by_cases hcomment : d = '#'
        · rw [if_pos hcomment] at h
          have hnil := skipTrivia_comment hline.tail h
          contradiction
        · rw [if_neg hcomment] at h ⊢
          obtain ⟨rfl, rfl⟩ := List.cons.inj (Option.some.inj h)
          exact ⟨List.suffix_refl _, rfl⟩

/-- The text behind the comment at its front, if there is one. -/
def behindComment (cs : List Char) : List Char :=
  if cs.head? = some '#' then cs.dropWhile isPlain else cs

/-- `behindComment` stops where the line ends. -/
theorem behindComment_append {more : List Char} (hmore : Breaks more) (cs : List Char) :
    behindComment (cs ++ more) = behindComment cs ++ more := by
  unfold behindComment
  rw [dropWhile_append_of_breaks hmore rfl rfl]
  cases cs with
  | nil =>
      obtain ⟨c, rest, rfl, rfl | rfl⟩ := hmore <;> rfl
  | cons c cs =>
      rw [List.cons_append, List.head?_cons, List.head?_cons]
      split <;> rfl

theorem behindComment_suffix (cs : List Char) : behindComment cs <:+ cs := by
  unfold behindComment
  split
  · exact List.dropWhile_suffix _
  · exact List.suffix_refl _

/-- `readLineEnd` passes over blanks and a comment, then asks for the end of the text or a
`readNewline`. -/
theorem readLineEnd_eq (cs : List Char) :
    readLineEnd cs =
      if (behindComment (skipSpace cs)).isEmpty then some []
      else readNewline (behindComment (skipSpace cs)) := by
  rfl

/-- Where `readLineEnd` succeeds at the end of the text, it does so at a line end, and then that
belongs to it. -/
theorem readLineEnd_append {cs rest more : List Char} (hline : OneLine cs)
    (h : readLineEnd cs = some rest) (hmore : Breaks more) :
    readLineEnd (cs ++ more) = readNewline more := by
  have hbehind : OneLine (behindComment (skipSpace cs)) :=
    hline.of_suffix ((behindComment_suffix _).trans (skipSpace_suffix cs))
  have hnil : behindComment (skipSpace cs) = [] := by
    rw [readLineEnd_eq, readNewline_of_oneLine hbehind] at h
    split at h
    · next hempty => exact List.isEmpty_iff.mp hempty
    · contradiction
  obtain ⟨c, behind, rfl, -⟩ := id hmore
  rw [readLineEnd_eq, skipSpace_append hmore, behindComment_append hmore, hnil]
  rfl

end PoolEnum.Toml
