import StoreGateway.Catalog.Column
import StoreGateway.Query.Output

/-!
# Requests and answers

* `Request`: what can be asked of the gateway;
* `Answer`: what it gives back.
-/

namespace StoreGateway

open Catalog Query

inductive Request where
  /-- A query. Its results are never weighted, so the last part changes nothing. -/
  | run (table : TableRef) (spec : Spec) (unweight : Bool)
  | columns (table : TableRef)
  | stats (table : TableRef)
  | tables
  | add (dataset subset : String) (samples : List Json)
  /-- Forget the columns of a table. -/
  | clear (table : TableRef)
  /-- Mark a table for a digest. -/
  | mark (table : String)
  /-- Digest all marked tables now. -/
  | flush
  | shutdown
deriving DecidableEq, Repr

inductive Answer where
  | output (o : Output)
  | columns (cs : List Column)
  | stats (v : Json)
  | tables (ts : List TableInfo)
  /-- All records were written. -/
  | added
  /-- How many tables a flush has digested. -/
  | count (n : Nat)
  | done
deriving DecidableEq, Repr

namespace Answer

def toJson : Answer → Json
  | output o => o.toJson
  | columns cs => .arr (cs.map Column.toJson)
  | stats v => v
  | tables ts => .arr (ts.map TableInfo.toJson)
  | count n => Json.ofNat n
  | added | done => .null

end Answer

end StoreGateway
