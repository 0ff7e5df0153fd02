import StoreGateway.Error
import StoreGateway.Query.Fragment

/-!
# Calls of the tools

* `viewArguments`: the query tool's arguments for a spec;
* `infoArguments`, `statsArguments`, `tablesArguments`: its arguments for metadata;
* `tableArguments`: the arguments of the ingest and digest tools.
-/

namespace StoreGateway.Query

open StoreGateway.Command

/-- The fragment behind its switch, or nothing when the spec has no options. -/
def queryArguments (s : Spec) : Arguments :=
  if s.opts.isNone then [] else .switch .laq :: fragment s

/-- The bucket size of a spec for the time view. -/
def Spec.bucket? (s : Spec) : Option String :=
  match s.opts.bind Options.timeBucket with
  | some b => if b = "" then none else some b
  | none => none

/-- The query tool's arguments for a spec. The time view has to have a bucket size. -/
def viewArguments (table : String) (s : Spec) : Except Error Arguments :=
  match s.view with
  | .table =>
    .ok ([.switch .print, .switch .json] ++ queryArguments s ++ [.opt .table table])
  | .time =>
    match s.bucket? with
    | some b =>
      .ok ([.switch .print, .switch .json, .switch .time, .opt .timeBucket b] ++ queryArguments s ++
        [.opt .table table])
    | none => .error (.missingQuerySpec "opts.time_bucket")
  | .hist =>
    .ok ([.switch .print, .switch .json, .opt .op "hist"] ++ queryArguments s ++
      [.opt .table table])
  | .samples =>
    .ok (queryArguments s ++ [.switch .samples, .switch .json, .opt .table table])

def infoArguments (table : String) : Arguments :=
  [.switch .info, .switch .json, .opt .table table]

def statsArguments (table : String) : Arguments :=
  [.switch .json, .switch .info, .opt .table table]

def tablesArguments : Arguments :=
  [.switch .tables, .switch .json]

def tableArguments (table : String) : Arguments :=
  [.opt .table table]

end StoreGateway.Query
