import StoreGateway.Error
import StoreGateway.Query.Row
import StoreGateway.Query.Spec

/-!
# From tool output to rows

What the query tool prints is reshaped into rows or samples, by the view that was asked for. Output
of the wrong shape gives no rows at all.

* `ShapeError`: the wrong shapes;
* `tableRows`, `timeRows`, `histRows`, `samples`: the result of each view;
* `Output`, `Output.ofJson`: the result of any view.
-/

namespace StoreGateway.Query

open StoreGateway.Number

/-- How output of the query tool can be misshapen. `found` is the kind of the value found. -/
inductive ShapeError where
  | notRows (view : View) (found : String)
  | rowNotObject (view : View) (found : String)
  | notBuckets (found : String)
deriving DecidableEq, Repr

def ShapeError.message : ShapeError → String
  | notRows view found => view.name ++ " query returned " ++ found ++ " instead of an array of rows"
  | rowNotObject view found => view.name ++ " query returned a " ++ found ++ " row"
  | notBuckets found => "time query returned " ++ found ++ " instead of an object of buckets"

/-- A shape error as it reaches the caller. -/
def ShapeError.toError (e : ShapeError) : Error :=
  .protocol e.message

/-- The fields of one raw row. -/
def rowObject (view : View) : Json → Except ShapeError (Fields Json)
  | .obj fields => .ok fields
  | v => .error (.rowNotObject view v.kind)

/-- The raw rows of an array; null is an empty one. -/
def rowObjects (view : View) : Json → Except ShapeError (List (Fields Json))
  | .null => .ok []
  | .arr vs => vs.mapM (rowObject view)
  | v => .error (.notRows view v.kind)

/-- The raw field that holds the number of rows in a group. -/
def rawCount : String := "Count"

/-- The names a metric cannot have. -/
def reservedNames : List String := [Row.idName, Row.countName]

/-- The fields of a raw row that are dims. -/
def project (raw : Fields Json) (dims : List String) : Fields Json :=
  Fields.ofList (dims.filterMap fun d => (raw.get? d).map fun v => (d, v))

/-- The metrics of a raw row. -/
def metrics (raw : Fields Json) (cols : List String) : Fields Binary64 :=
  Fields.ofList ((cols.filter fun c => !reservedNames.contains c).map fun c =>
    (c, lenientFloat (raw.get? c)))

/-- One row of the table view. -/
def tableRow (cols dims : List String) (raw : Fields Json) : Row where
  id := project raw dims
  metrics := metrics raw cols
  count := (raw.get? rawCount).getD .null

/-- The table view has a row for each raw row. -/
def tableRows (cols dims : List String) (v : Json) : Except ShapeError (List Row) :=
  (rowObjects .table v).map fun raws => raws.map (tableRow cols dims)

/-! ## Time view -/

/-- The name of a bucket in the group of a row. -/
def bucketName : String := "time_bucket"

/-- Integers ascend, and what is no integer comes after them. -/
def bucketLe : Option Int → Option Int → Bool
  | some a, some b => a ≤ b
  | none, some _ => false
  | _, none => true

/-- The buckets in order of the integers in front of their names. -/
def orderedBuckets (buckets : Fields Json) : List (Option Int × Json) :=
  (buckets.map fun b => (lenientInt b.1, b.2)).mergeSort fun a b => bucketLe a.1 b.1

/-- The rows of one bucket. -/
def bucketRows (cols dims : List String) (bucket : Option Int) (v : Json) :
    Except ShapeError (List Row) :=
  (rowObjects .time v).map fun raws => raws.map fun raw =>
    let row := tableRow cols dims raw
    { row with id := row.id.insert bucketName (bucket.elim .null Json.ofInt) }

/-- The time view has the rows of every bucket. -/
def timeRows (cols dims : List String) : Json → Except ShapeError (List Row)
  | .null => .ok []
  | .obj buckets =>
    ((orderedBuckets buckets).mapM fun b => bucketRows cols dims b.1 b.2).map List.flatten
  | v => .error (.notBuckets v.kind)

/-! ## Distribution view -/

/-- A row for each label of a group, which share its row count evenly. -/
def labelRows (col : String) (dims : List String) (raw : Fields Json) : List Row :=
  match raw.get? col with
  | some (.arr labels) =>
    let share := (lenientFloat (raw.get? rawCount)).divNat labels.length
    labels.map fun label => ⟨(project raw dims).insert col label, [], Json.ofBinary64 share⟩
  | _ => []

/-- The distribution view has the rows of every group, by the labels in its first column. -/
def histRows (cols dims : List String) (v : Json) : Except ShapeError (List Row) :=
  (rowObjects .hist v).map fun raws =>
    match cols with
    | [] => []
    | col :: _ => raws.flatMap (labelRows col dims)

/-! ## Samples view -/

/-- The value of a field: an integer, or text. -/
inductive Cell where
  | integer (i : Int)
  | text (s : String)
deriving DecidableEq, Repr

/--
A value by its own type. Text that is a whole integer of sixty-four bits is that integer, and a
number is its integer part if that is one; everything else is text.
-/
def cell? : Json → Option Cell
  | .null => none
  | .str s =>
    match (Text.readSigned (Text.trim s.toList)).bind Text.signed64? with
    | some i => some (.integer i)
    | none => some (.text s)
  | .int i h =>
    match Text.signed64? i with
    | some i => some (.integer i)
    | none => some (.text (Json.int i h).compact)
  | .float x =>
    match Text.signed64? x.trunc with
    | some i => some (.integer i)
    | none => some (.text (Json.float x).compact)
  | v => some (.text v.compact)

/-- Puts one field of a raw row into a sample. -/
def Sample.put (s : Sample) (field : String × Json) : Sample :=
  match cell? field.2 with
  | none => s
  | some (.integer i) => { s with integer := s.integer.insert field.1 i }
  | some (.text t) => { s with string := s.string.insert field.1 t }

def sample (raw : Fields Json) : Sample :=
  raw.foldl Sample.put ⟨[], []⟩

/-- The samples view has a sample for each raw row. -/
def samples (v : Json) : Except ShapeError (List Sample) :=
  (rowObjects .samples v).map fun raws => raws.map sample

/-! ## All views -/

/-- The result of a query. -/
inductive Output where
  | rows (rs : List Row)
  | samples (ss : List Sample)
deriving DecidableEq, Repr

namespace Output

def ofJson (view : View) (cols dims : List String) (v : Json) : Except ShapeError Output :=
  match view with
  | .table => (tableRows cols dims v).map rows
  | .time => (timeRows cols dims v).map rows
  | .hist => (histRows cols dims v).map rows
  | .samples => (Query.samples v).map samples

def length : Output → Nat
  | rows rs => rs.length
  | samples ss => ss.length

def toJson : Output → Json
  | rows rs => .arr (rs.map Row.toJson)
  | samples ss => .arr (ss.map Sample.toJson)

end Output

end StoreGateway.Query
