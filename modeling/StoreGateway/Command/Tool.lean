import StoreGateway.Command.Arguments
import StoreGateway.Json.Basic

/-!
# The tools and their calls

* `Tool`: the three tools that work on the store;
* `Call`: one call of a tool.
-/

namespace StoreGateway.Command

inductive Tool where
  | query | ingest | digest
deriving DecidableEq, Repr

namespace Tool

def all : List Tool := [query, ingest, digest]

def name : Tool → String
  | query => "query"
  | ingest => "ingest"
  | digest => "digest"

end Tool

/-- A call of a tool. Only the ingest tool is given records. -/
structure Call where
  tool : Tool
  arguments : Arguments
  records : List Json
deriving DecidableEq, Repr

end StoreGateway.Command
