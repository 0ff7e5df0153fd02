import StoreGateway.Command.Tool
import StoreGateway.Settings.Fault

/-!
# Configuration

Where the tools are, where they run, and the limits on what they do. Every setting is a variable
of the environment with a default.

* `ToolPaths`, `Config`: the settings;
* `Config.ofEnvironment`: reads them.
-/

namespace StoreGateway.Settings

open StoreGateway.Command

structure ToolPaths where
  query : String
  ingest : String
  digest : String
deriving DecidableEq, Repr

namespace ToolPaths

/-- A name in a directory. -/
def join (dir name : String) : String :=
  if dir.toList.getLast? = some '/' then dir ++ name else dir ++ "/" ++ name

def inDirectory (dir : String) : ToolPaths :=
  ⟨join dir Tool.query.name, join dir Tool.ingest.name, join dir Tool.digest.name⟩

def path (ps : ToolPaths) : Tool → String
  | .query => ps.query
  | .ingest => ps.ingest
  | .digest => ps.digest

end ToolPaths

structure Config where
  tools : ToolPaths
  /-- The directory that the tools run in. -/
  workDir : String
  maxOutputBytes : Nat
  /-- How long the columns of a table count as fresh. -/
  columnTtlSecs : Nat
  /-- How long marks for a digest are collected. -/
  digestCooldownSecs : Nat
  defaultTable : String
deriving DecidableEq, Repr

namespace Config

/-- A natural number of sixty-four bits, if the variable is set. -/
def natural? (env : Environment) (name : String) : Except Fault (Option Nat) :=
  match env.value? name with
  | none => .ok none
  | some raw =>
    match Text.readBounded (Nat.pow 2 64) raw.toList with
    | .ok n => .ok (some n)
    | .error cause => .error (.notNatural name raw cause)

/-- The paths of the tools: each its own, else in the given directory, else in the default one. -/
def toolPaths (home : String) (env : Environment) : ToolPaths :=
  let base := ToolPaths.inDirectory ((env.value? "PCS_BIN_DIR").getD (ToolPaths.join home "bin"))
  ⟨(env.value? "PCS_QUERY_BIN").getD base.query,
    (env.value? "PCS_INGEST_BIN").getD base.ingest,
    (env.value? "PCS_DIGEST_BIN").getD base.digest⟩

/-- The settings of a process that runs in the directory `home`. -/
def ofEnvironment (home : String) (env : Environment) : Except Fault Config := do
  let maxOutputBytes ← natural? env "PCS_MAX_OUTPUT_BYTES"
  let columnTtlSecs ← natural? env "PCS_COLUMN_TTL_SECS"
  let digestCooldownSecs ← natural? env "PCS_DIGEST_COOLDOWN_SECS"
  if maxOutputBytes = some 0 then .error .zeroOutputLimit
  return {
    tools := toolPaths home env
    workDir := (env.value? "PCS_DB_DIR").getD "./"
    maxOutputBytes := maxOutputBytes.getD 102400000
    columnTtlSecs := columnTtlSecs.getD 600
    digestCooldownSecs := digestCooldownSecs.getD 30
    defaultTable := (env.value? "PCS_DEFAULT_TABLE").getD "snorkel_test_data" }

end Config

end StoreGateway.Settings
