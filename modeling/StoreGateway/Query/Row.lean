import StoreGateway.Json.Printer
import StoreGateway.Query.Lenient

/-!
# Result rows and samples

* `Row`: one grouped result: the group, its aggregated columns and its row count;
* `Sample`: one raw record, split by the type of its values;
* `Row.toJson`, `Sample.toJson`: how they are written.
-/

namespace StoreGateway.Query

open StoreGateway.Number

/-- A group of rows. A metric that could not be read is not a number. -/
structure Row where
  id : Fields Json
  metrics : Fields Binary64
  count : Json
deriving DecidableEq, Repr

structure Sample where
  integer : Fields Int
  string : Fields String
deriving DecidableEq, Repr

namespace Row

/-- The name of the group in a written row. -/
def idName : String := "_id"

/-- The name of the row count in a written row. -/
def countName : String := "count"

/-- The members of a written row: the group, the metrics in order, and the row count. -/
def members (r : Row) : List (String × Json) :=
  (idName, Json.obj r.id) :: r.metrics.mapValues Json.ofBinary64 ++ [(countName, r.count)]

def toJson (r : Row) : Json :=
  .obj r.members

end Row

def Sample.toJson (s : Sample) : Json :=
  .obj [("integer", .obj (s.integer.mapValues Json.ofInt)),
    ("string", .obj (s.string.mapValues Json.str))]

end StoreGateway.Query
