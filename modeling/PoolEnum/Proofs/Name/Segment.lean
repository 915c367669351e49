import PoolEnum.Proofs.Name.Valid

/-!
# PoolEnum.Proofs.Name.Segment

Which part of a raw text its name is derived from.

No slash is blank, so trimming a path trims its front before the first slash and
its end behind the last one (`trim_append_slash`). What stands before the last
slash is cut away afterwards (`lastSegment_append_slash`), so the blanks in front
of the last segment are the only ones that are kept. `derive_append_slash` puts
the two together; the main result is `derive_segment`.
-/

namespace PoolEnum

variable {blanks cs : List Char}

/-! ## trimming -/

/-- `trimEnd` takes blanks off the end, whatever is in front of them. -/
theorem trimEnd_append_blanks (h : ∀ c ∈ blanks, isBlank c = true) (cs : List Char) :
    trimEnd (cs ++ blanks) = trimEnd cs := by
  rw [trimEnd, trimEnd, List.reverse_append, List.dropWhile_append_of_pos (by simpa using h)]

/-- `trim` takes blanks off the front. -/
theorem trim_blanks_append (h : ∀ c ∈ blanks, isBlank c = true) (cs : List Char) :
    trim (blanks ++ cs) = trim cs := by
  rw [trim, trim, List.dropWhile_append_of_pos h]

theorem trim_append_blanks (h : ∀ c ∈ blanks, isBlank c = true) (cs : List Char) :
    trim (cs ++ blanks) = trim cs := by
  rw [trim, trim, List.dropWhile_append]
  by_cases hcs : (cs.dropWhile isBlank).isEmpty = true
  · -- all of it is blank, and then nothing is left on either side
    have hnil : (blanks ++ []).dropWhile isBlank = [] := List.dropWhile_append_of_pos h
    rw [List.append_nil] at hnil
    rw [if_pos hcs, hnil, List.isEmpty_iff.mp hcs]
  · rw [if_neg hcs, trimEnd_append_blanks h]

/-- `trimEnd` takes nothing off in front of a character that is not blank. -/
theorem trimEnd_append_cons {c : Char} (hc : isBlank c = false) (before after : List Char) :
    trimEnd (before ++ c :: after) = before ++ c :: trimEnd after := by
  have hstop : (c :: before.reverse).dropWhile isBlank = c :: before.reverse :=
    List.dropWhile_cons_of_neg (by simp [hc])
  have hreverse : (before ++ c :: after).reverse = after.reverse ++ c :: before.reverse := by simp
  rw [trimEnd, trimEnd, hreverse, List.dropWhile_append, hstop]
  by_cases hafter : (after.reverse.dropWhile isBlank).isEmpty = true
  · rw [if_pos hafter, List.isEmpty_iff.mp hafter]
    simp
  · rw [if_neg hafter]
    simp

/-- A text is what `trimEnd` leaves, which does not end in a blank, and blanks. -/
theorem exists_trimEnd_append (cs : List Char) :
    ∃ blanks, cs = trimEnd cs ++ blanks ∧ (∀ c ∈ blanks, isBlank c = true) ∧
      ∀ c ∈ (trimEnd cs).getLast?, isBlank c = false := by
  refine ⟨(cs.reverse.takeWhile isBlank).reverse, ?_, ?_, ?_⟩
  · rw [trimEnd, ← List.reverse_append, List.takeWhile_append_dropWhile, List.reverse_reverse]
  · intro c hc
    exact List.all_eq_true.mp List.all_takeWhile c (List.mem_reverse.mp hc)
  · intro c hc
    rw [trimEnd, List.getLast?_reverse] at hc
    have hhead := List.head?_dropWhile_not isBlank cs.reverse
    rw [hc] at hhead
    simpa using hhead

/-! ## paths -/

/-- A slash is no blank. -/
theorem isBlank_slash : isBlank '/' = false := by
  decide

/-- `trim` does not go past a slash, from either end. -/
theorem trim_append_slash (before after : List Char) :
    trim (before ++ '/' :: after) = before.dropWhile isBlank ++ '/' :: trimEnd after := by
  have hslash : ('/' :: after).dropWhile isBlank = '/' :: after :=
    List.dropWhile_cons_of_neg (by simp [isBlank_slash])
  have hfront : (before ++ '/' :: after).dropWhile isBlank =
      before.dropWhile isBlank ++ '/' :: after := by
    rw [List.dropWhile_append, hslash]
    by_cases hbefore : (before.dropWhile isBlank).isEmpty = true
    · rw [if_pos hbefore, List.isEmpty_iff.mp hbefore, List.nil_append]
    · rw [if_neg hbefore]
  rw [trim, hfront, trimEnd_append_cons isBlank_slash]

/-- The `lastSegment` of a text without slashes is the text. -/
theorem lastSegment_eq_self (h : '/' ∉ cs) : lastSegment cs = cs := by
  have hall : ∀ c ∈ cs.reverse, decide (c ≠ '/') = true := by
    intro c hc
    exact decide_eq_true fun heq => h (heq ▸ List.mem_reverse.mp hc)
  have htake : (cs.reverse ++ []).takeWhile (· ≠ '/') = cs.reverse ++ [] :=
    List.takeWhile_append_of_pos hall
  rw [List.append_nil] at htake
  rw [lastSegment, htake, List.reverse_reverse]

/-- What stands before a slash is no part of the `lastSegment`. -/
theorem lastSegment_append_slash (before after : List Char) :
    lastSegment (before ++ '/' :: after) = lastSegment after := by
  have hreverse : (before ++ '/' :: after).reverse = after.reverse ++ '/' :: before.reverse := by
    simp
  rw [lastSegment, lastSegment, hreverse, List.takeWhile_append]
  by_cases hafter : (after.reverse.takeWhile (· ≠ '/')).length = after.reverse.length
  · have hall : after.reverse.takeWhile (· ≠ '/') = after.reverse :=
      (List.takeWhile_prefix _).eq_of_length hafter
    rw [if_pos hafter, hall]
    simp
  · rw [if_neg hafter]

/-! ## derivation -/

/-- `derive` of a path is that of its `lastSegment` without the blanks at the end. -/
theorem derive_append_slash (p l : String) :
    derive (p ++ "/" ++ l) = normalizeTracked (lastSegment (trimEnd l.toList)) := by
  have hlist : (p ++ "/" ++ l).toList = p.toList ++ '/' :: l.toList := by
    simp [String.toList_append]
  rw [derive, hlist, trim_append_slash, lastSegment_append_slash]

/-- `derive` behind a slash takes the last segment, without the blanks at its end. -/
theorem derive_slash (l : String) :
    derive ("/" ++ l) = normalizeTracked (lastSegment (trimEnd l.toList)) := by
  have h := derive_append_slash "" l
  rwa [String.empty_append] at h

/-- `derive` only counts the last segment of a path. What is in front of a slash changes neither the
name nor the flag. A segment without slashes is named as it stands but for the blanks at its end,
which are taken off; those in front of it stay. Blanks around the whole text make no difference. -/
theorem derive_segment :
    (∀ p l : String, derive (p ++ "/" ++ l) = derive ("/" ++ l)) ∧
    (∀ l : String, '/' ∉ l.toList → ∃ core blanks : String, l = core ++ blanks ∧
      (∀ c ∈ blanks.toList, isBlank c = true) ∧
      (∀ c ∈ core.toList.getLast?, isBlank c = false) ∧
      derive ("/" ++ l) = normalizeTracked core.toList ∧
      deriveName ("/" ++ l) = normalize core) ∧
    ∀ front raw back : String, (∀ c ∈ front.toList, isBlank c = true) →
      (∀ c ∈ back.toList, isBlank c = true) → derive (front ++ raw ++ back) = derive raw := by
  refine ⟨?_, ?_, ?_⟩
  · intro p l
    rw [derive_append_slash, derive_slash]
  · intro l hl
    obtain ⟨blanks, hsplit, hblanks, hlast⟩ := exists_trimEnd_append l.toList
    have hcore : '/' ∉ trimEnd l.toList := by
      intro hmem
      rw [hsplit] at hl
      exact hl (List.mem_append_left blanks hmem)
    have hderive : derive ("/" ++ l) = normalizeTracked (trimEnd l.toList) := by
      rw [derive_slash, lastSegment_eq_self hcore]
    refine ⟨String.ofList (trimEnd l.toList), String.ofList blanks, ?_, ?_, ?_, ?_, ?_⟩
    · rw [← String.ofList_append, ← hsplit, String.ofList_toList]
    · rwa [String.toList_ofList]
    · rwa [String.toList_ofList]
    · rwa [String.toList_ofList]
    · rw [deriveName, normalize, String.toList_ofList, hderive]
  · intro front raw back hfront hback
    rw [derive, derive, String.toList_append, String.toList_append, trim_append_blanks hback,
      trim_blanks_append hfront]

end PoolEnum
