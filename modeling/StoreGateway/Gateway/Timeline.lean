import StoreGateway.Gateway.Basic

/-!
# The gateway in time

The gateway's events lie ahead of it on an agenda. They are taken in order of time, and at one
instant in the order in which they came; only a reply that comes at once goes before all others,
as whoever asked for it has not let go in between.

* `longestWait`: the longest time that anything waits for a timer;
* `Tools`: what answers the calls of the gateway;
* `Timeline`: the gateway, its tools and the agenda;
* `Timeline.ask`: makes a request;
* `Timeline.await`: goes on until a request is answered, and lets time pass as needed;
* `Timeline.advance`: lets time pass.
-/

namespace StoreGateway

open Command

/-- Thirty years in milliseconds. A timer that is set for longer goes off after that time. -/
def longestWait : Nat :=
  30 * 365 * 24 * 60 * 60 * 1000

/-- The reply to a call, and how long it takes in milliseconds. -/
structure Reply where
  outcome : Except Error Json
  delay : Nat

/-- Something with a state that answers calls. -/
structure Tools (σ : Type) where
  answer : σ → Call → Reply × σ

/-- A call that was made, and when. -/
structure LoggedCall where
  time : Nat
  call : Call
deriving DecidableEq, Repr

/-- An answer that was given, and when. -/
structure LoggedAnswer where
  time : Nat
  caller : Ticket
  result : Except Error Answer

structure Timeline (σ : Type) where
  now : Nat
  gateway : Gateway
  tools : σ
  /-- What lies ahead, with its time, in order. -/
  agenda : List (Nat × Event)
  /-- The calls made so far, in order. -/
  calls : List LoggedCall
  /-- The answers given so far, in order. -/
  answers : List LoggedAnswer
  nextTicket : Ticket

namespace Timeline

variable {σ : Type}

def start (gateway : Gateway) (tools : σ) : Timeline σ :=
  ⟨0, gateway, tools, [], [], [], 0⟩

/-- Puts an event behind all that are not later. -/
def enqueue (agenda : List (Nat × Event)) (time : Nat) (e : Event) : List (Nat × Event) :=
  agenda.takeWhile (fun a => decide (a.1 ≤ time)) ++ (time, e) ::
    agenda.dropWhile (fun a => decide (a.1 ≤ time))

/-- Sets a timer for an event at a time from now on. -/
def schedule (w : Timeline σ) (time : Nat) (e : Event) : Timeline σ :=
  { w with agenda := enqueue w.agenda (min time (w.now + longestWait)) e }

/-- Does what the gateway wants done. -/
def perform (tools : Tools σ) (w : Timeline σ) : Effect → Timeline σ
  | .call number c =>
    let (reply, rest) := tools.answer w.tools c
    let w := { w with tools := rest, calls := w.calls ++ [LoggedCall.mk w.now c] }
    if reply.delay = 0 then
      { w with agenda := (w.now, .reply number reply.outcome) :: w.agenda }
    else w.schedule (w.now + reply.delay) (.reply number reply.outcome)
  | .queue table => w.schedule w.now (.begin table)
  | .arm t => w.schedule t.deadline (.expire t.generation)
  | .answer caller result => { w with answers := w.answers ++ [LoggedAnswer.mk w.now caller result] }

/-- Lets one event happen now. -/
def happen (tools : Tools σ) (w : Timeline σ) (e : Event) : Timeline σ :=
  let (gateway, effects) := w.gateway.step w.now e
  effects.foldl (perform tools) { w with gateway := gateway }

/-- Makes a request, and gives the ticket for its answer. -/
def ask (tools : Tools σ) (w : Timeline σ) (r : Request) : Ticket × Timeline σ :=
  (w.nextTicket, { w with nextTicket := w.nextTicket + 1 }.happen tools (.request w.nextTicket r))

def answer? (w : Timeline σ) (caller : Ticket) : Option (Except Error Answer) :=
  (w.answers.find? fun a => a.caller = caller).map (·.result)

/--
How many events can follow from the agenda alone. An event brings about at most two more, apart
from the launches of tables that are marked or in a batch already.
-/
def work (w : Timeline σ) : Nat :=
  3 * w.agenda.length + w.gateway.digests.dirty.length +
    (w.gateway.digests.batches.flatMap fun b => b.left).length

/-- Takes the first event of the agenda, at its time. -/
def next? (w : Timeline σ) : Option (Event × Timeline σ) :=
  match w.agenda with
  | [] => none
  | (time, e) :: rest => some (e, { w with now := max w.now time, agenda := rest })

/-- Goes on, for `fuel` events at most, until a request is answered. -/
def awaitWithin (tools : Tools σ) (caller : Ticket) : Nat → Timeline σ → Timeline σ
  | 0, w => w
  | fuel + 1, w =>
    if (w.answer? caller).isSome then w
    else match w.next? with
      | some (e, w) => awaitWithin tools caller fuel (w.happen tools e)
      | none => w

def await (tools : Tools σ) (w : Timeline σ) (caller : Ticket) : Timeline σ :=
  awaitWithin tools caller w.work w

/-- Goes on, for `fuel` events at most, with what is due at a time. -/
def runWithin (tools : Tools σ) (time : Nat) : Nat → Timeline σ → Timeline σ
  | 0, w => w
  | fuel + 1, w =>
    match w.agenda with
    | (due, _) :: _ =>
      if due ≤ time then
        match w.next? with
        | some (e, w) => runWithin tools time fuel (w.happen tools e)
        | none => w
      else w
    | [] => w

/-- Lets everything happen that is due at a time, and goes on to that time. -/
def goTo (tools : Tools σ) (w : Timeline σ) (time : Nat) : Timeline σ :=
  let w := runWithin tools time w.work w
  { w with now := max w.now time }

/-- Lets some milliseconds pass. -/
def advance (tools : Tools σ) (w : Timeline σ) (ms : Nat) : Timeline σ :=
  w.goTo tools (w.now + min ms longestWait)

/-- Lets everything happen that can happen now. -/
def settle (tools : Tools σ) (w : Timeline σ) : Timeline σ :=
  w.goTo tools w.now

/-- A caller goes away. -/
def drop (tools : Tools σ) (w : Timeline σ) (caller : Ticket) : Timeline σ :=
  w.happen tools (.drop caller)

end Timeline

end StoreGateway
