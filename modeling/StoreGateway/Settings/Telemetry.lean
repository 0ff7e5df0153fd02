import StoreGateway.Fields
import StoreGateway.Settings.Fault
import StoreGateway.Text.Split

/-!
# Telemetry settings

* `readAttributes`: the attributes that a variable lists;
* `Telemetry`, `Telemetry.ofEnvironment`: the service and its attributes;
* `LogLevel`, `LogLevel.read`: how much is logged.
-/

namespace StoreGateway.Settings

open StoreGateway.Text

/-- A key and a value around the first equals sign. -/
def readPair (entry : List Char) : Except Fault (String × String) :=
  match splitOnce '=' entry with
  | none => .error (.notPair (String.ofList entry))
  | some (key, value) =>
    if blank key then .error (.emptyKey (String.ofList entry))
    else .ok (String.ofList (trim key), String.ofList (trim value))

/-- The pairs between commas; blank entries are skipped. -/
def readAttributes (raw : String) : Except Fault (List (String × String)) :=
  (((splitOn ',' raw.toList).map trim).filter fun entry => !entry.isEmpty).mapM readPair

structure Telemetry where
  serviceName : String
  runId : Option String
  attributes : Fields String
deriving DecidableEq, Repr

namespace Telemetry

def serviceKey : String := "service.name"

def namespaceKey : String := "service.namespace"

def runKey : String := "pcs.run_id"

/-- The listed attributes, under those that the service itself sets. -/
def attributesOf (serviceName : String) (runId : Option String) (listed : List (String × String)) :
    Fields String :=
  let named := (Fields.ofList listed).insert serviceKey serviceName
  let placed := if named.contains namespaceKey then named else named.insert namespaceKey "pcs"
  match runId with
  | some id => placed.insert runKey id
  | none => placed

def ofEnvironment (defaultService : String) (env : Environment) : Except Fault Telemetry := do
  let serviceName := trimmed ((env "OTEL_SERVICE_NAME").getD defaultService)
  if serviceName = "" then .error .emptyServiceName
  let runId := env.value? "PCS_TELEMETRY_RUN_ID"
  let listed ← match env "OTEL_RESOURCE_ATTRIBUTES" with
    | some raw => readAttributes raw
    | none => .ok []
  return ⟨serviceName, runId, attributesOf serviceName runId listed⟩

end Telemetry

inductive LogLevel where
  | error | warn | info | debug | trace
deriving DecidableEq, Repr

namespace LogLevel

/-- The levels in the order of their numbers, which begin at one. -/
def all : List LogLevel := [error, warn, info, debug, trace]

def name : LogLevel → String
  | error => "error"
  | warn => "warn"
  | info => "info"
  | debug => "debug"
  | trace => "trace"

/-- A level by its number, or by its name in letters of either case. -/
def ofText? (cs : List Char) : Option LogLevel :=
  match readBounded (Nat.pow 2 64) cs with
  | .ok (n + 1) => all[n]?
  | _ => all.find? fun l => l.name.toList = cs.map Char.toLower

def read (raw : String) : Except Fault LogLevel :=
  match ofText? (trim raw.toList) with
  | some l => .ok l
  | none => .error (.unknownLevel (trimmed raw))

end LogLevel

end StoreGateway.Settings
