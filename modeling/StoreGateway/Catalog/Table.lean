import StoreGateway.Error
import StoreGateway.Json.Record

/-!
# Tables

* `TableRef`: a table as a request names it, by a bare name or by an object;
* `TableRef.require`: its name, which must not be empty;
* `TableInfo`, `TableInfo.ofListing`: the tables that the query tool lists.
-/

namespace StoreGateway.Catalog

open StoreGateway.Json

inductive TableRef where
  | bare (name : String)
  | object (name : String)
deriving DecidableEq, Repr

namespace TableRef

def name : TableRef → String
  | bare name => name
  | object name => name

def require (t : TableRef) : Except Error String :=
  if t.name = "" then .error .missingTable else .ok t.name

/-- Reads a reference. Every place of its document has to denote a value. -/
def ofDocument (d : Document) : Option TableRef :=
  match d.value?, d with
  | some _, .str s => some (bare s)
  | some _, .obj members =>
    match Record.fields ["table_name"] (.obj members) with
    | some [name] => (required text name).map object
    | _ => none
  | _, _ => none

def ofJson (v : Json) : Option TableRef :=
  ofDocument v.document

def ofText (s : String) : Option TableRef :=
  (Document.read s.toList).bind ofDocument

def toJson : TableRef → Json
  | bare name => .str name
  | object name => .obj [("table_name", .str name)]

end TableRef

structure TableInfo where
  tableName : String
deriving DecidableEq, Repr

namespace TableInfo

def ofDocument (d : Document) : Option TableInfo :=
  match Record.fields ["table_name"] d with
  | some [name] => (required text name).map TableInfo.mk
  | _ => none

def toJson (t : TableInfo) : Json :=
  .obj [("table_name", .str t.tableName)]

end TableInfo

/-- The text of a value that is text. -/
def textOf? : Json → Option String
  | .str s => some s
  | _ => none

/-- The tables of a listing; entries that are not text are skipped. -/
def TableInfo.ofListing : Json → Except Error (List TableInfo)
  | .null => .ok []
  | .arr vs => .ok ((vs.filterMap textOf?).map TableInfo.mk)
  | _ => .error (.protocol "table listing is not an array")

end StoreGateway.Catalog
