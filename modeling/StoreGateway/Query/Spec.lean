import StoreGateway.Json.Record

/-!
# Query specs

A query spec says which view of a table is wanted, how its rows are grouped, aggregated, filtered
and limited, and which column holds their time.

* `View`, `Condition`, `Filter`, `Options`, `Spec`: the parts of a spec;
* `Spec.timeColumn`, `Spec.dims`, `Spec.cols`: what a spec says when parts are left out;
* `Spec.ofDocument`: reads a spec;
* `Spec.toJson`: writes a spec with every field.
-/

namespace StoreGateway.Query

open StoreGateway.Json

/-- The shape of the answer. -/
inductive View where
  | table | time | hist | samples
deriving DecidableEq, Repr

namespace View

def all : List View := [table, time, hist, samples]

def name : View → String
  | table => "table"
  | time => "time"
  | hist => "hist"
  | samples => "samples"

def ofName? (name : String) : Option View :=
  all.find? fun v => v.name = name

end View

structure Condition where
  op : String
  value : Json
deriving DecidableEq, Repr

/-- Conditions on a column, whose name begins with the kind of its values and a point. -/
structure Filter where
  column : String
  conditions : List Condition
deriving DecidableEq, Repr

structure Options where
  dims : Option (List String)
  cols : List String
  filters : List Filter
  startMs : Option Int
  endMs : Option Int
  timeBucket : Option String
  limit : Option Nat
deriving DecidableEq, Repr

/-- What a spec says about the table. -/
structure TableMetadata where
  timeCol : Option String
deriving DecidableEq, Repr

structure Meta where
  metadata : Option TableMetadata
deriving DecidableEq, Repr

structure Spec where
  view : View
  opts : Option Options
  info : Option Meta
deriving DecidableEq, Repr

namespace Spec

/-- The name of the time column when none is given. -/
def defaultTimeColumn : String := "time"

def timeColumn (s : Spec) : String :=
  match (s.info.bind Meta.metadata).bind TableMetadata.timeCol with
  | some name => if name = "" then defaultTimeColumn else name
  | none => defaultTimeColumn

def dims (s : Spec) : List String :=
  (s.opts.bind Options.dims).getD []

def cols (s : Spec) : List String :=
  (s.opts.map Options.cols).getD []

/-- A spec that says nothing about the table's time column. -/
def ofOptions (view : View) (opts : Options) : Spec :=
  ⟨view, some opts, none⟩

def withTimeColumn (s : Spec) (name : String) : Spec :=
  { s with info := some ⟨some ⟨some name⟩⟩ }

end Spec

/-- A filter with a single condition. -/
def Filter.single (column op : String) (value : Json) : Filter :=
  ⟨column, [⟨op, value⟩]⟩

/-! ## Reading -/

def View.ofDocument : Document → Option View :=
  choice View.ofName?

def Condition.ofDocument (d : Document) : Option Condition :=
  match Record.fields ["op", "value"] d with
  | some [op, value] => do
    let op ← required text op
    let value ← withDefault Document.value? .null value
    return ⟨op, value⟩
  | _ => none

def Filter.ofDocument (d : Document) : Option Filter :=
  match Record.fields ["column", "conditions"] d with
  | some [column, conditions] => do
    let column ← required text column
    let conditions ← withDefault (list Condition.ofDocument) [] conditions
    return ⟨column, conditions⟩
  | _ => none

/-- A bucket size is given as text or as a number, which stands for its text. -/
def bucketText : Document → Option String
  | .str s => some s
  | .int i h => some (Json.int i h).compact
  | .float x => some (Json.float x).compact
  | _ => none

def Options.ofDocument (d : Document) : Option Options :=
  match Record.fields ["dims", "cols", "filters", "start_ms", "end_ms", "time_bucket", "limit"] d with
  | some [dims, cols, filters, startMs, endMs, timeBucket, limit] => do
    let dims ← optional (list text) dims
    let cols ← withDefault (list text) [] cols
    let filters ← withDefault (list Filter.ofDocument) [] filters
    let startMs ← optional integer startMs
    let endMs ← optional integer endMs
    let timeBucket ← optional bucketText timeBucket
    let limit ← optional natural limit
    return ⟨dims, cols, filters, startMs, endMs, timeBucket, limit⟩
  | _ => none

def TableMetadata.ofDocument (d : Document) : Option TableMetadata :=
  match Record.fields ["time_col"] d with
  | some [timeCol] => (optional text timeCol).map TableMetadata.mk
  | _ => none

def Meta.ofDocument (d : Document) : Option Meta :=
  match Record.fields ["metadata"] d with
  | some [metadata] => (optional TableMetadata.ofDocument metadata).map Meta.mk
  | _ => none

def Spec.ofDocument (d : Document) : Option Spec :=
  match Record.fields ["view", "opts", "meta"] d with
  | some [view, opts, info] => do
    let view ← withDefault View.ofDocument .table view
    let opts ← optional Options.ofDocument opts
    let info ← optional Meta.ofDocument info
    return ⟨view, opts, info⟩
  | _ => none

/-- Reads a spec from a value. -/
def Spec.ofJson (v : Json) : Option Spec :=
  ofDocument v.document

/-- Reads a spec from a text. -/
def Spec.ofText (s : String) : Option Spec :=
  (Document.read s.toList).bind ofDocument

/-! ## Writing -/

/-- Null for what is absent. -/
def orNull {α : Type} (write : α → Json) : Option α → Json
  | some a => write a
  | none => .null

def texts (ss : List String) : Json :=
  .arr (ss.map .str)

def Condition.toJson (c : Condition) : Json :=
  .obj [("op", .str c.op), ("value", c.value)]

def Filter.toJson (f : Filter) : Json :=
  .obj [("column", .str f.column), ("conditions", .arr (f.conditions.map Condition.toJson))]

def Options.toJson (o : Options) : Json :=
  .obj [
    ("cols", texts o.cols),
    ("dims", orNull texts o.dims),
    ("end_ms", orNull Json.ofInt o.endMs),
    ("filters", .arr (o.filters.map Filter.toJson)),
    ("limit", orNull Json.ofNat o.limit),
    ("start_ms", orNull Json.ofInt o.startMs),
    ("time_bucket", orNull Json.str o.timeBucket)]

def TableMetadata.toJson (t : TableMetadata) : Json :=
  .obj [("time_col", orNull Json.str t.timeCol)]

def Meta.toJson (m : Meta) : Json :=
  .obj [("metadata", orNull TableMetadata.toJson m.metadata)]

def Spec.toJson (s : Spec) : Json :=
  .obj [
    ("meta", orNull Meta.toJson s.info),
    ("opts", orNull Options.toJson s.opts),
    ("view", .str s.view.name)]

end StoreGateway.Query
