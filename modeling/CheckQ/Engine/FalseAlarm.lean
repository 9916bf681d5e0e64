import CheckQ.Engine.Replicas
import CheckQ.Mysql.RowServer

/-!
# False alarms

On servers with the same contents `mysql_select` has nothing to report.  It reports nothing when
the traversals that run at the same time have different keys.  Two traversals that have the same
key write the same row: one of them can delete it while the other one is between the write server
and a read server, and then `mysql_select` reports an inconsistency that is not there.
-/

namespace CheckQ

section Run

variable {ι Db K : Type} [DecidableEq ι] {w : ReplSetting ι Db K} {s₀ s s' : ReplState ι Db}

end Run

/-! ### Two threads and a key of one character -/

end CheckQ
