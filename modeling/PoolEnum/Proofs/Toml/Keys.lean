import Mathlib.Data.List.Nodup
import Mathlib.Data.List.Perm.Basic
import PoolEnum.Toml.Document

/-!
# PoolEnum.Proofs.Toml.Keys

The root table of a document has each key once.

All that is done to a table is done by `alter`, which leaves its keys as they are or
adds one that is not among them.
-/

namespace PoolEnum.Toml

/-- The keys of entries are different. -/
def Distinct (entries : Entries) : Prop :=
  (entries.map Prod.fst).Nodup

theorem distinct_cons {key : String} {v : Value} {entries : Entries} :
    Distinct ((key, v) :: entries) ↔ key ∉ entries.map Prod.fst ∧ Distinct entries :=
  List.nodup_cons

/-- The order of entries does not matter to `Distinct`. -/
theorem Distinct.of_perm {entries entries' : Entries} (hdistinct : Distinct entries)
    (h : entries.Perm entries') : Distinct entries' :=
  (h.map Prod.fst).nodup_iff.mp hdistinct

/-- A `change` that leaves `Distinct` entries so. -/
def KeepsDistinct (change : Entries → Option Entries) : Prop :=
  ∀ entries entries', change entries = some entries' → Distinct entries → Distinct entries'

/-! ## changing one key -/

/-- `alter` leaves the keys as they are, or puts `key` behind them if it is not among them. -/
theorem keys_alter {key : String} {change : Option Value → Option Value}
    {entries entries' : Entries} (h : alter key change entries = some entries') :
    entries'.map Prod.fst = entries.map Prod.fst ∨
      key ∉ entries.map Prod.fst ∧ entries'.map Prod.fst = entries.map Prod.fst ++ [key] := by
  induction entries generalizing entries' with
  | nil =>
      simp only [alter, bind, Option.bind_eq_some_iff, pure, Option.some.injEq] at h
      obtain ⟨v, -, rfl⟩ := h
      exact .inr ⟨List.not_mem_nil, rfl⟩
  | cons e entries ih =>
      obtain ⟨k, v⟩ := e
      unfold alter at h
      by_cases hk : k = key
      · simp only [hk, if_true, bind, Option.bind_eq_some_iff, pure, Option.some.injEq] at h
        obtain ⟨w, -, rfl⟩ := h
        exact .inl (by rw [hk]; rfl)
      · simp only [hk, if_false, bind, Option.bind_eq_some_iff, pure, Option.some.injEq] at h
        obtain ⟨rest, hrest, rfl⟩ := h
        rcases ih hrest with hsame | ⟨hnew, hmore⟩
        · exact .inl (congrArg (k :: ·) hsame)
        · exact .inr ⟨by simp [hnew, Ne.symm hk], congrArg (k :: ·) hmore⟩

/-- `alter` keeps keys `Distinct`, whatever is done to the value. -/
theorem keepsDistinct_alter (key : String) (change : Option Value → Option Value) :
    KeepsDistinct (alter key change) := by
  intro entries entries' h hdistinct
  unfold Distinct at *
  rcases keys_alter h with hsame | ⟨hnew, hmore⟩
  · rwa [hsame]
  · rw [hmore]
    exact hdistinct.append (List.nodup_singleton key) (by simpa using hnew)

/-! ## going through lines -/

/-- `insertDotted` keeps keys `Distinct`: it alters one of them. -/
theorem keepsDistinct_insertDotted (key : String) (value : Value) (path : List String) :
    KeepsDistinct (insertDotted key value path) := by
  cases path with
  | nil => exact keepsDistinct_alter key _
  | cons k path => exact keepsDistinct_alter k _

/-- What is done `within` a path keeps keys `Distinct` if it does so in place. -/
theorem keepsDistinct_within {change : Entries → Option Entries} (h : KeepsDistinct change)
    (path : List String) : KeepsDistinct (within change path) := by
  cases path with
  | nil => exact h
  | cons k path => exact keepsDistinct_alter k _

/-- A computation that succeeds does so step by step. -/
theorem bind_eq_ok_iff {ε α β : Type} {x : Except ε α} {f : α → Except ε β} {b : β} :
    (x >>= f) = .ok b ↔ ∃ a, x = .ok a ∧ f a = .ok b := by
  cases x <;> simp [bind, Except.bind]

/-- `orMalformed` succeeds only with what is there. -/
theorem orMalformed_eq_ok_iff {α : Type} {a? : Option α} {a : α} :
    orMalformed a? = .ok a ↔ a? = some a := by
  cases a? <;> simp [orMalformed]

/-- `Progress.finish` leaves the keys of the root table `Distinct`. -/
theorem distinct_finish {p : Progress} {entries : Entries} (h : p.finish = .ok entries)
    (hdistinct : Distinct p.root) : Distinct entries := by
  unfold Progress.finish at h
  cases hpart : p.part with
  | table path =>
      rw [hpart] at h
      exact Except.ok.inj h ▸ hdistinct
  | element keys last =>
      rw [hpart] at h
      refine keepsDistinct_within ?_ keys.path _ _ (orMalformed_eq_ok_iff.mp h) hdistinct
      exact keepsDistinct_alter keys.key _

/-- `Progress.bind` leaves the keys of the root table `Distinct`. -/
theorem distinct_bind {p p' : Progress} {keys : KeyPath} {value : Value}
    (h : p.bind keys value = some p') (hdistinct : Distinct p.root) : Distinct p'.root := by
  unfold Progress.bind at h
  cases hpart : p.part with
  | table path =>
      simp only [hpart, bind, Option.bind_eq_some_iff, pure, Option.some.injEq] at h
      obtain ⟨root, hroot, rfl⟩ := h
      exact keepsDistinct_within (keepsDistinct_insertDotted _ _ _) path _ _ hroot hdistinct
  | element place entries =>
      simp only [hpart, bind, Option.bind_eq_some_iff, pure, Option.some.injEq] at h
      obtain ⟨last, -, rfl⟩ := h
      exact hdistinct

/-- `Progress.next` leaves the keys of the root table `Distinct`, for every kind of line. -/
theorem distinct_next {p p' : Progress} {line : Line} (h : p.next line = .ok p')
    (hdistinct : Distinct p.root) : Distinct p'.root := by
  cases line with
  | binding keys item =>
      obtain ⟨path, -, h⟩ := bind_eq_ok_iff.mp h
      obtain ⟨value, -, h⟩ := bind_eq_ok_iff.mp h
      exact distinct_bind (orMalformed_eq_ok_iff.mp h) hdistinct
  | header isArray keys =>
      obtain ⟨root, hroot, h⟩ := bind_eq_ok_iff.mp h
      obtain ⟨path, -, h⟩ := bind_eq_ok_iff.mp h
      have hroot' := distinct_finish hroot hdistinct
      cases isArray with
      | true =>
          obtain rfl := Except.ok.inj h
          exact hroot'
      | false =>
          obtain ⟨opened, hopened, h⟩ := bind_eq_ok_iff.mp h
          obtain rfl := Except.ok.inj h
          refine keepsDistinct_within ?_ path.path _ _ (orMalformed_eq_ok_iff.mp hopened) hroot'
          exact keepsDistinct_alter path.key _

/-- Going through any number of lines leaves the keys of the root table `Distinct`. -/
theorem distinct_foldlM {lines : List Line} {p p' : Progress}
    (h : lines.foldlM Progress.next p = .ok p') (hdistinct : Distinct p.root) :
    Distinct p'.root := by
  induction lines generalizing p with
  | nil =>
      obtain rfl := Except.ok.inj h
      exact hdistinct
  | cons line lines ih =>
      rw [List.foldlM_cons] at h
      obtain ⟨next, hnext, h⟩ := bind_eq_ok_iff.mp h
      exact ih h (distinct_next hnext hdistinct)

/-- `parse` binds no key of the root table twice. -/
theorem distinct_of_parse {text : String} {entries : Entries} (h : parse text = .ok entries) :
    Distinct entries := by
  obtain ⟨lines, -, h⟩ := bind_eq_ok_iff.mp h
  obtain ⟨p, hfold, h⟩ := bind_eq_ok_iff.mp h
  exact distinct_finish h (distinct_foldlM hfold List.nodup_nil)

end PoolEnum.Toml
