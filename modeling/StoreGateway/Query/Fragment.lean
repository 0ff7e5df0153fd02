import StoreGateway.Command.Arguments
import StoreGateway.Query.Spec
import StoreGateway.Text.Split

/-!
# The query fragment

The part of a query tool's arguments that every view shares: grouping, aggregation, filters, the
time column and the limit.

* `Test`: one comparison of a filter option;
* `stringTests`, `boundTests`, `integerTests`: the comparisons of a spec;
* `fragment`: the arguments of a spec;
* `renderValue`: the text of a filter's value.
-/

namespace StoreGateway.Query

open StoreGateway.Command StoreGateway.Text

/-- A comparison of a column with a value. -/
structure Test where
  name : String
  op : String
  value : String
deriving DecidableEq, Repr

def Test.text (t : Test) : String :=
  t.name ++ ":" ++ t.op ++ ":" ++ t.value

mutual

/-- Text stands for itself, and an array for its elements with commas between them. -/
def renderValue : Json → String
  | .str s => s
  | .arr vs => commaJoin (renderValues vs)
  | v => v.compact

def renderValues : List Json → List String
  | [] => []
  | v :: vs => renderValue v :: renderValues vs

end

/-- The kinds of column that can be filtered. -/
inductive FilterKind where
  | string | integer
deriving DecidableEq, Repr

def FilterKind.name : FilterKind → String
  | string => "string"
  | integer => "integer"

/-- What stands before and after the first point; a column without a point has no name. -/
def Filter.split (f : Filter) : String × String :=
  match splitOnce '.' f.column.toList with
  | some (kind, name) => (String.ofList kind, String.ofList name)
  | none => (f.column, "")

/-- The comparison that the first condition of a filter of this kind asks for. -/
def Filter.test? (kind : FilterKind) (toolOp : String → String) (f : Filter) : Option Test :=
  if f.split.1 = kind.name then
    f.conditions.head?.map fun c => ⟨f.split.2, toolOp c.op, renderValue c.value⟩
  else none

/-- A match by regular expression is an equality, and every other operator its negation. -/
def stringOp (op : String) : String :=
  if op = "$regex" then "eq" else "neq"

/-- The operator without its marker. -/
def integerOp (op : String) : String :=
  match op.toList with
  | '$' :: cs => String.ofList cs
  | _ => op

def stringTests (o : Options) : List Test :=
  o.filters.filterMap (Filter.test? .string stringOp)

def integerTests (o : Options) : List Test :=
  o.filters.filterMap (Filter.test? .integer integerOp)

/-- A bound in milliseconds as a comparison in whole seconds. A bound of zero is no bound. -/
def boundTest? (timeColumn op : String) : Option Int → Option Test
  | some ms => if ms = 0 then none else some ⟨timeColumn, op, String.ofList (signed (ms.tdiv 1000))⟩
  | none => none

def boundTests (timeColumn : String) (o : Options) : List Test :=
  (boundTest? timeColumn "gt" o.startMs).toList ++ (boundTest? timeColumn "lt" o.endMs).toList

/-- An option with a list of texts, left out when the list is empty. -/
def listArgument (o : Opt) : List String → Arguments
  | [] => []
  | texts => [.opt o (commaJoin texts)]

/-- Grouping and aggregation. Without dims there is neither. -/
def groupArguments (o : Options) : Arguments :=
  match o.dims with
  | none => []
  | some dims => listArgument .group dims ++ listArgument .int o.cols

/-- A limit of zero is no limit. -/
def limitArguments (o : Options) : Arguments :=
  match o.limit with
  | some (n + 1) => [.opt .limit (String.ofList (digits (n + 1)))]
  | _ => []

def optionArguments (timeColumn : String) (o : Options) : Arguments :=
  groupArguments o ++
    listArgument .strFilter ((stringTests o).map Test.text) ++
    listArgument .intFilter ((boundTests timeColumn o ++ integerTests o).map Test.text) ++
    [.opt .timeCol timeColumn] ++
    limitArguments o

/-- The arguments shared by every view; none when the spec has no options. -/
def fragment (s : Spec) : Arguments :=
  match s.opts with
  | none => []
  | some o => optionArguments s.timeColumn o

end StoreGateway.Query
