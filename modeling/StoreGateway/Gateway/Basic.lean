import StoreGateway.Catalog.ColumnCache
import StoreGateway.Command.Tool
import StoreGateway.Digest.Scheduler
import StoreGateway.Gateway.Request
import StoreGateway.Query.Invocation

/-!
# The gateway

The gateway stands between its callers and the tools. It is a machine that takes one event at a
time and says what has to be done about it; time, tools and callers are outside. Any order of
events is allowed: an event that nothing waits for changes nothing.

* `Event`: what happens to the gateway;
* `Effect`: what the gateway wants done;
* `Gateway.step`: one event.
-/

namespace StoreGateway

open Catalog Command Digest Query

/-- What a call of a tool is for. -/
inductive Purpose where
  | run (caller : Ticket) (spec : Spec)
  | stats (caller : Ticket)
  | tables (caller : Ticket)
  | add (caller : Ticket) (table : String)
  | refresh (table : String)
  | digest (batch : Nat) (owner : Owner)
deriving DecidableEq, Repr

/-- The caller without whom the call's reply is of no use. -/
def Purpose.caller? : Purpose → Option Ticket
  | run t _ | stats t | tables t | add t _ => some t
  | refresh _ => none
  | digest _ owner => owner.caller?

structure Gateway where
  columns : ColumnCache
  digests : Scheduler
  /-- The calls that have not been answered, under their numbers. -/
  calls : List (Nat × Purpose)
  nextCall : Nat
deriving DecidableEq, Repr

inductive Event where
  | request (caller : Ticket) (r : Request)
  /-- The queued refresh of a table begins. -/
  | begin (table : String)
  /-- A tool answers a call. -/
  | reply (call : Nat) (outcome : Except Error Json)
  /-- The timer of a window fires. -/
  | expire (generation : Nat)
  /-- The timer of a window notices that it was cancelled. -/
  | notice (generation : Nat)
  /-- A caller goes away. -/
  | drop (caller : Ticket)

inductive Effect where
  | call (number : Nat) (c : Call)
  /-- A refresh of a table was queued. -/
  | queue (table : String)
  /-- A timer was set. -/
  | arm (t : Timer)
  | answer (caller : Ticket) (result : Except Error Answer)

namespace Gateway

def empty (ttl cooldown : Nat) : Gateway :=
  ⟨.empty ttl, .empty cooldown, [], 0⟩

/-- Calls a tool. -/
def callTool (g : Gateway) (purpose : Purpose) (tool : Tool) (arguments : Arguments)
    (records : List Json) : Gateway × List Effect :=
  ({ g with calls := g.calls ++ [(g.nextCall, purpose)], nextCall := g.nextCall + 1 },
    [.call g.nextCall ⟨tool, arguments, records⟩])

def purpose? (g : Gateway) (call : Nat) : Option Purpose :=
  (g.calls.find? fun c => c.1 = call).map (·.2)

/-- Tells the owner of a batch that all of it was launched. -/
def batchDone (owner : Owner) (size : Nat) : List Effect :=
  match owner with
  | .timer => []
  | .flush caller => [.answer caller (.ok (.count size))]
  | .shutdown caller => [.answer caller (.ok .done)]

/-- Launches the next table of a batch, if there is one. -/
def goOn (g : Gateway) (b : Batch) : Gateway × List Effect :=
  match b.left with
  | table :: _ => g.callTool (.digest b.number b.owner) .digest (tableArguments table) []
  | [] => (g, batchDone b.owner b.size)

/-- Takes the marked tables for a caller and begins to launch them. -/
def flush (g : Gateway) (owner : Owner) : Gateway × List Effect :=
  match g.digests.flush owner with
  | (some b, s) => { g with digests := s }.goOn b
  | (none, s) => ({ g with digests := s }, batchDone owner 0)

/-- Marks a table, and sets a timer if that opens a window. -/
def mark (g : Gateway) (now : Nat) (table : String) : Gateway × List Effect :=
  let (timer, s) := g.digests.mark now table
  ({ g with digests := s }, timer.toList.map .arm)

/-- The table that records of a dataset's subset go to. -/
def tableName (dataset subset : String) : String :=
  dataset ++ "." ++ subset

/-- Asks the cache for the columns of a table. -/
def lookup (g : Gateway) (now : Nat) (caller : Ticket) (table : String) : Gateway × List Effect :=
  let (found, cache) := g.columns.lookup now table caller
  ({ g with columns := cache },
    (if found.queues then [.queue table] else []) ++
      found.columns.toList.map fun cs => .answer caller (.ok (.columns cs)))

def request (g : Gateway) (now : Nat) (caller : Ticket) : Request → Gateway × List Effect
  | .run table spec _ =>
    match table.require.bind fun name => viewArguments name spec with
    | .ok arguments => g.callTool (.run caller spec) .query arguments []
    | .error e => (g, [.answer caller (.error e)])
  | .columns table =>
    match table.require with
    | .ok name => g.lookup now caller name
    | .error e => (g, [.answer caller (.error e)])
  | .stats table =>
    match table.require with
    | .ok name => g.callTool (.stats caller) .query (statsArguments name) []
    | .error e => (g, [.answer caller (.error e)])
  | .tables => g.callTool (.tables caller) .query tablesArguments []
  | .add dataset subset samples =>
    if dataset = "" ∨ subset = "" then (g, [.answer caller (.error .missingTable)])
    else
      let table := tableName dataset subset
      g.callTool (.add caller table) .ingest (tableArguments table) samples
  | .clear table =>
    ({ g with columns := g.columns.invalidate table.name }, [.answer caller (.ok .done)])
  | .mark table =>
    let (g, effects) := g.mark now table
    (g, effects ++ [.answer caller (.ok .done)])
  | .flush => g.flush (.flush caller)
  | .shutdown => g.flush (.shutdown caller)

/-- A queued refresh calls the query tool. -/
def beginRefresh (g : Gateway) (table : String) : Gateway × List Effect :=
  if table ∈ g.columns.queued then
    { g with columns := g.columns.begin table }.callTool (.refresh table) .query
      (infoArguments table) []
  else (g, [])

/-- What a caller is told about the reply to its query. -/
def queryResult (spec : Spec) (outcome : Except Error Json) : Except Error Answer :=
  outcome.bind fun v =>
    ((Output.ofJson spec.view spec.cols spec.dims v).mapError ShapeError.toError).map .output

/-- Goes on with what a call was for. -/
def resume (g : Gateway) (now : Nat) (outcome : Except Error Json) :
    Purpose → Gateway × List Effect
  | .run caller spec => (g, [.answer caller (queryResult spec outcome)])
  | .stats caller => (g, [.answer caller (outcome.map .stats)])
  | .tables caller => (g, [.answer caller ((outcome.bind TableInfo.ofListing).map .tables)])
  | .add caller table =>
    match outcome with
    | .ok _ =>
      let (g, effects) := g.mark now table
      (g, effects ++ [.answer caller (.ok .added)])
    | .error e => (g, [.answer caller (.error e)])
  | .refresh table =>
    let (callers, cache) := g.columns.finish now table outcome
    ({ g with columns := cache },
      callers.map fun caller => .answer caller ((ColumnCache.outcome table outcome).map .columns))
  | .digest batch _ =>
    match g.digests.launched batch with
    | (some b, s) => { g with digests := s }.goOn b
    | (none, s) => ({ g with digests := s }, [])

/-- A tool answers a call, which is thereby over. -/
def reply (g : Gateway) (now call : Nat) (outcome : Except Error Json) : Gateway × List Effect :=
  match g.purpose? call with
  | some purpose =>
    { g with calls := g.calls.filter fun c => c.1 ≠ call }.resume now outcome purpose
  | none => (g, [])

/-- The timer of a window fires. -/
def expire (g : Gateway) (generation : Nat) : Gateway × List Effect :=
  match g.digests.expire generation with
  | (some b, s) => { g with digests := s }.goOn b
  | (none, s) => ({ g with digests := s }, [])

/-- A caller goes away; a refresh that it has started goes on. -/
def drop (g : Gateway) (caller : Ticket) : Gateway :=
  { g with
    calls := g.calls.filter fun c => c.2.caller? ≠ some caller
    digests := g.digests.drop caller }

/-- What one event does, `now` milliseconds after the start. -/
def step (g : Gateway) (now : Nat) : Event → Gateway × List Effect
  | .request caller r => g.request now caller r
  | .begin table => g.beginRefresh table
  | .reply call outcome => g.reply now call outcome
  | .expire generation => g.expire generation
  | .notice generation => ({ g with digests := g.digests.notice generation }, [])
  | .drop caller => (g.drop caller, [])

end Gateway

end StoreGateway
