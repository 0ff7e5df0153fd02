import StoreGateway.Gateway.Timeline

/-!
# Sessions

A session is a gateway whose tools answer from a script, and whose requests come one step after
another. A labelled request is left running while the session goes on; any other is waited for.

* `Script`: the replies of each tool;
* `Step`, `Session.step`: the steps of a session and what each one does;
* `Report`: what can be seen of a step.
-/

namespace StoreGateway

open Command

/-- The replies that each tool still has to give. -/
structure Script where
  query : List Reply
  ingest : List Reply
  digest : List Reply

namespace Script

def empty : Script := ⟨[], [], []⟩

def append (a b : Script) : Script :=
  ⟨a.query ++ b.query, a.ingest ++ b.ingest, a.digest ++ b.digest⟩

/-- The reply of a tool with nothing left to say. -/
def silent : Reply := ⟨.ok .null, 0⟩

def split : List Reply → Reply × List Reply
  | [] => (silent, [])
  | r :: rs => (r, rs)

/-- Every tool gives its replies in order. -/
def tools : Tools Script where
  answer s c :=
    match c.tool with
    | .query => ((split s.query).1, { s with query := (split s.query).2 })
    | .ingest => ((split s.ingest).1, { s with ingest := (split s.ingest).2 })
    | .digest => ((split s.digest).1, { s with digest := (split s.digest).2 })

end Script

/-- One step of a session. A request that does not decode is not made. -/
inductive Step where
  | request (label : Option String) (r : Option Request)
  | advance (ms : Nat)
  | reply (more : Script)
  /-- The caller of the newest request with this label goes away. -/
  | abort (label : String)

/-- What becomes of a step or of a labelled request. -/
inductive Result where
  | nothing
  | undecodable
  | answered (r : Except Error Answer)

/-- A labelled request that is over. -/
structure Completion where
  label : String
  time : Nat
  result : Result

structure Report where
  result : Result
  calls : List LoggedCall
  completed : List Completion
  time : Nat
  gateway : Gateway

structure Session where
  timeline : Timeline Script
  /-- The labelled requests that are not over. -/
  running : List (Ticket × String)
  /-- The newest request of each label, unless it was not even made. -/
  newest : Fields Ticket

namespace Session

def start (ttl cooldown : Nat) (script : Script) : Session :=
  ⟨.start (.empty ttl cooldown) script, [], []⟩

/-- What was answered to the labelled requests. -/
def completions (running : List (Ticket × String)) (answers : List LoggedAnswer) :
    List Completion :=
  answers.filterMap fun a =>
    (running.find? fun r => r.1 = a.caller).map fun r => ⟨r.2, a.time, .answered a.result⟩

/-- Ends a step: what can happen now happens, and the logs are handed over. -/
def report (s : Session) (result : Result) (refused : List Completion) : Report × Session :=
  let w := s.timeline.settle Script.tools
  (⟨result, w.calls, refused ++ completions s.running w.answers, w.now, w.gateway⟩,
    { s with
      timeline := { w with calls := [], answers := [] }
      running := s.running.filter fun r => !(w.answers.any fun a => a.caller = r.1) })

/-- The result for a request that was waited for. -/
def resultOf (w : Timeline Script) (ticket : Ticket) : Result :=
  match w.answer? ticket with
  | some r => .answered r
  | none => .nothing

def step (s : Session) : Step → Report × Session
  | .request none none => s.report .undecodable []
  | .request (some label) none =>
    { s with newest := s.newest.erase label }.report .nothing
      [⟨label, s.timeline.now, .undecodable⟩]
  | .request none (some r) =>
    let (ticket, w) := s.timeline.ask Script.tools r
    let w := w.await Script.tools ticket
    { s with timeline := w }.report (resultOf w ticket) []
  | .request (some label) (some r) =>
    let (ticket, w) := s.timeline.ask Script.tools r
    { timeline := w
      running := s.running ++ [(ticket, label)]
      newest := s.newest.insert label ticket : Session }.report .nothing []
  | .advance ms =>
    { s with timeline := s.timeline.advance Script.tools ms }.report .nothing []
  | .reply more =>
    { s with timeline := { s.timeline with tools := s.timeline.tools.append more } }.report
      .nothing []
  | .abort label =>
    match s.newest.get? label with
    | some ticket =>
      { s with
        timeline := s.timeline.drop Script.tools ticket
        running := s.running.filter fun r => r.1 ≠ ticket }.report .nothing []
    | none => s.report .nothing []

/-- The reports of all steps in order. -/
def run (s : Session) : List Step → List Report
  | [] => []
  | step :: steps =>
    let (report, s) := s.step step
    report :: run s steps

end Session

end StoreGateway
