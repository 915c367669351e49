import PoolEnum.Command.Directive

/-!
# PoolEnum.Command.LogFilter

Which events of a run are shown.

A filter is a list of directives. Of those that are for an event, the narrowest
one decides whether it is shown; if there are none, it is not.
-/

namespace PoolEnum.Command

/-- A choice of events. -/
abbrev LogFilter := List Directive

namespace LogFilter

/-- The directive that decides about an event: of the narrowest ones that are for
it, the last. -/
def decisive (filter : LogFilter) (e : Event) : Option Directive :=
  (filter.filter fun d => d.fits e).foldl
    (fun best d =>
      match best with
      | none => some d
      | some b => if b.notNarrower d then some d else some b)
    none

/-- Whether a filter shows an event. -/
def shows (filter : LogFilter) (e : Event) : Bool :=
  (filter.decisive e).any fun d => Threshold.passes d.threshold e.level

/-- The filter of a run that is told nothing else. -/
def standard (verbose : Bool) : LogFilter :=
  let threshold : Threshold := some (if verbose then .debug else .info)
  [{ target := some "strpool", threshold }, { target := some "strpool_codegen", threshold }]

/-- A filter from directives with commas between them. Without any, errors are
shown. -/
def parse? (text : String) : Option LogFilter :=
  match (pieces ',' text.toList).filter (· ≠ []) with
  | [] => some [{ threshold := some .error }]
  | texts => texts.mapM Directive.ofText?

/-- The filter of a run: what was asked for, if that can be read, else the
standard one. -/
def choose (request : Option String) (verbose : Bool) : LogFilter :=
  (request.bind parse?).getD (standard verbose)

end LogFilter

end PoolEnum.Command
