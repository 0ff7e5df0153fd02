import StoreGateway.Catalog.Table

/-!
# Columns

* `ColumnType`, `Column`: a column and the type of its values;
* `columnsOfInfo`: the columns that the query tool reports for a table.
-/

namespace StoreGateway.Catalog

open StoreGateway.Json

inductive ColumnType where
  | integer | string
deriving DecidableEq, Repr

namespace ColumnType

def all : List ColumnType := [integer, string]

def name : ColumnType → String
  | integer => "integer"
  | string => "string"

def ofName? (name : String) : Option ColumnType :=
  all.find? fun t => t.name = name

end ColumnType

structure Column where
  name : String
  type : ColumnType
deriving DecidableEq, Repr

namespace Column

def ofDocument (d : Document) : Option Column :=
  match Record.fields ["name", "type_str"] d with
  | some [name, type] => do
    let name ← required text name
    let type ← required (choice ColumnType.ofName?) type
    return ⟨name, type⟩
  | _ => none

def toJson (c : Column) : Json :=
  .obj [("name", .str c.name), ("type_str", .str c.type.name)]

end Column

/-- The columns under one name of a report; entries that are not text are skipped. -/
def columnsUnder (report : Fields Json) (name : String) (type : ColumnType) : List Column :=
  match report.get? name with
  | some (.arr vs) => (vs.filterMap textOf?).map fun n => ⟨n, type⟩
  | _ => []

/-- The object of columns in a table's report. -/
def columnReport? : Json → Option (Fields Json)
  | .obj info =>
    match Fields.get? info "columns" with
    | some (.obj report) => some report
    | _ => none
  | _ => none

/-- The columns of a table's report, those of integers first. -/
def columnsOfInfo (info : Json) : Except Error (List Column) :=
  match columnReport? info with
  | some report => .ok (columnsUnder report "ints" .integer ++ columnsUnder report "strs" .string)
  | none => .error (.protocol "info output has no columns object")

end StoreGateway.Catalog
