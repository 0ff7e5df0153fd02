import StoreGateway.Command.Records
import StoreGateway.Command.Reply
import StoreGateway.CommandLine.FileTree
import StoreGateway.CommandLine.Usage
import StoreGateway.Gateway.Timeline
import StoreGateway.Settings.Config
import StoreGateway.Settings.Telemetry
import StoreGateway.Text.Inspect

/-!
# Running a command line

A command line is checked, the settings are read from the environment, and the command is put to a
gateway whose tools are programs. At the end all marked tables are digested. When help or the
version is asked for, that is all there is to it.

* `Host`: what the process finds around it;
* `Outcome`: what it leaves behind;
* `run`: from the one to the other.
-/

namespace StoreGateway.CommandLine

open StoreGateway.Command StoreGateway.Settings

/-- The variables of the environment that a process looks at. -/
def variableNames : List String :=
  ["OTEL_RESOURCE_ATTRIBUTES", "OTEL_SERVICE_NAME", "PCS_BIN_DIR", "PCS_COLUMN_TTL_SECS",
    "PCS_DB_DIR", "PCS_DEFAULT_TABLE", "PCS_DIGEST_BIN", "PCS_DIGEST_COOLDOWN_SECS",
    "PCS_INGEST_BIN", "PCS_LOG_LEVEL", "PCS_MAX_OUTPUT_BYTES", "PCS_QUERY_BIN",
    "PCS_TELEMETRY_RUN_ID", "PATH"]

/-- The surroundings of a process. -/
structure Host where
  /-- The directory that the process runs in, as an absolute path. -/
  home : String
  env : Environment
  stdin : ByteArray
  tree : FileTree
  /-- The text of a page, without its last line feed. -/
  manual : Page → String := Page.summary

inductive Failure where
  | usage
  | error (e : Error)
deriving DecidableEq, Repr

/-- Where a program was started: its own place, and the directory that it ran in. -/
structure Launch where
  program : Place
  workDir : Place
deriving DecidableEq, Repr

/-- A call of a tool, and where a program was started for it, if one was. -/
structure Attempt where
  call : Call
  launch : Option Launch
deriving DecidableEq, Repr

/-- A process that has ended, and the tools that it tried to start on the way, in order. -/
structure Outcome where
  result : Except Failure String
  attempts : List Attempt

namespace Outcome

/-- The calls that did start a program. -/
def started (o : Outcome) : List (Call × Launch) :=
  o.attempts.filterMap fun a => a.launch.map fun l => (a.call, l)

/-- Success, failure of the command, or misuse of the command line. -/
def exitCode (o : Outcome) : Nat :=
  match o.result with
  | .ok _ => 0
  | .error .usage => 2
  | .error (.error _) => 1

/-- What the process prints: the result, or the page that was asked for, and a line feed. -/
def stdout (o : Outcome) : String :=
  match o.result with
  | .ok text => text ++ "\n"
  | .error _ => ""

end Outcome

/-- The name of a failure and the rest of its text. -/
def inspectError : Error → String × String
  | .io cause => ("Io", "(" ++ Text.inspect cause ++ ")")
  | .parse cause => ("Parse", "(" ++ Text.inspect cause ++ ")")
  | .protocol cause => ("Protocol", "(" ++ Text.inspect cause ++ ")")
  | .outputLimit limit => ("OutputLimit", " \x7b limit: " ++ toString limit ++ " \x7d")
  | .missingTable => ("MissingTable", "")
  | .missingQuerySpec field => ("MissingQuerySpec", "(" ++ Text.inspect field ++ ")")
  | .serialization cause => ("Serialization", "(" ++ Text.inspect cause ++ ")")
  | .config cause => ("Config", "(" ++ Text.inspect cause ++ ")")
  | .metadata cause => ("Metadata", "(" ++ Text.inspect cause ++ ")")
  | .internal cause => ("Internal", "(" ++ Text.inspect cause ++ ")")

/-! ## Tools -/

namespace Host

def homePlace (h : Host) : Place :=
  Place.ofPath h.home

/-- The directories that bare names of programs are looked for in. -/
def searched (h : Host) : List String :=
  ((h.env "PATH").map fun s => (Text.splitOn ':' s.toList).map String.ofList).getD []

/--
The program of a tool, and where it is started. It is looked for from the directory that the tools
run in.
-/
def program (h : Host) (c : Config) (t : Tool) : Except PathError (Launch × Program) := do
  let dir ← h.tree.directory h.homePlace c.workDir
  let (place, p) ← h.tree.program h.searched dir (c.tools.path t)
  return (⟨place, dir⟩, p)

/-- Where a call starts a program. -/
def launch? (h : Host) (c : Config) (call : Call) : Option Launch :=
  if call.arguments.passable then (h.program c call.tool).toOption.map (·.1) else none

/-- Programs answer at once. -/
def tools (h : Host) (c : Config) : Tools Unit where
  answer _ call :=
    let program := (h.program c call.tool).map (·.2) |>.mapError PathError.toError
    (⟨reply c.maxOutputBytes program call, 0⟩, ())

end Host

/-! ## Commands -/

/-- The bytes of an input, which is a file or standard input. -/
def readInputBytes (h : Host) (source : String) : Except Error ByteArray :=
  if source = standardInput then .ok h.stdin
  else (h.tree.content h.homePlace source).mapError PathError.toError

/-- The text of an input. -/
def readInput (h : Host) (source : String) : Except Error String :=
  (readInputBytes h source).bind fun bytes =>
    match String.fromUTF8? bytes with
    | some s => .ok s
    | none => .error (.io "stream did not contain valid UTF-8")

/-- What is said about the first line that is not a record. -/
def badRecord (line : Nat) : Error :=
  .parse ("record on line " ++ toString line)

/-- The request that a command makes. -/
def request (h : Host) (c : Config) : CommandLine.Command → Except Error Request
  | .query table spec unweight =>
    (readInput h spec).bind fun text =>
      match Query.Spec.ofText text with
      | some s => .ok (.run (.bare (table.getD c.defaultTable)) s unweight)
      | none => .error (.serialization "not a query spec")
  | .tables => .ok .tables
  | .columns table => .ok (.columns (.bare table))
  | .stats table => .ok (.stats (.bare table))
  | .ingest dataset subset input =>
    (readInput h input).bind fun text =>
      (readRecords text.toList).mapError badRecord |>.map fun records =>
        .add dataset subset records

/-- What a request's answer prints. -/
def rendered : Request → Answer → Json
  | .add dataset subset records, _ =>
    .obj [("records", Json.ofNat records.length), ("table", .str (Gateway.tableName dataset subset))]
  | _, a => a.toJson

/-- Makes a request and waits for its answer. -/
def perform (h : Host) (c : Config) (w : Timeline Unit) (r : Request) :
    Except Error Answer × Timeline Unit :=
  let (ticket, w) := w.ask (h.tools c) r
  let w := w.await (h.tools c) ticket
  ((w.answer? ticket).getD (.error (.internal "no answer")), w)

/-- Performs the request of a command, if it makes one, and prints the answer. -/
def executeRequest (h : Host) (c : Config) (w : Timeline Unit) :
    Except Error Request → Except Error String × Timeline Unit
  | .error e => (.error e, w)
  | .ok r =>
    let (answer, w) := perform h c w r
    (answer.map fun a => (rendered r a).pretty, w)

/-- Performs a command and then digests what it has marked. -/
def execute (h : Host) (c : Config) (command : CommandLine.Command) : Outcome :=
  let start : Timeline Unit :=
    .start (.empty (1000 * c.columnTtlSecs) (1000 * c.digestCooldownSecs)) ()
  let (result, w) := executeRequest h c start (request h c command)
  let w := (perform h c w .shutdown).2
  { result := result.mapError .error
    attempts := w.calls.map fun l => ⟨l.call, h.launch? c l.call⟩ }

/-! ## The whole process -/

/-- The name of the service that the process is when nothing else is said. -/
def serviceName : String := "pcs"

/-- The log level of a command line: its own, else that of the environment, else the default. -/
def logLevel (h : Host) (i : Invocation) : String :=
  (i.logLevel.or (h.env "PCS_LOG_LEVEL")).getD "info"

/-- The settings, checked in the order telemetry, log level, configuration. -/
def settings (h : Host) (i : Invocation) : Except Fault Config := do
  let _ ← Telemetry.ofEnvironment serviceName h.env
  let _ ← LogLevel.read (logLevel h i)
  Config.ofEnvironment h.home h.env

/-- Runs a process with the words of its command line. -/
def run (h : Host) (words : List String) : Outcome :=
  match Invocation.read words with
  | .error .misuse => ⟨.error .usage, []⟩
  | .error (.page p) => ⟨.ok (h.manual p), []⟩
  | .ok i =>
    match settings h i with
    | .error f => ⟨.error (.error f.toError), []⟩
    | .ok c => execute h c i.command

end StoreGateway.CommandLine
