import StoreGateway.Fields
import StoreGateway.Ticket

/-!
# The digest scheduler

Every write marks its table. The first mark opens a window and sets its timer; further marks join
it and never put the timer off. When the timer fires, or when somebody flushes, the marked tables
are taken as a batch, and one digest after the other is launched.

* `Scheduler.mark`: a table has been written to;
* `Scheduler.take`: the marked tables, for a timer only those of its own window;
* `Scheduler.expire`, `Scheduler.notice`: the two ways a timer ends;
* `Scheduler.launch`, `Scheduler.launched`: a batch begins and goes on;
* `Scheduler.drop`: a caller has gone, and with it the batch that it was launching.
-/

namespace StoreGateway.Digest

/-- A timer that has not ended. It belongs to the window of its generation. -/
structure Timer where
  generation : Nat
  /-- When it fires, in milliseconds. -/
  deadline : Nat
  cancelled : Bool
deriving DecidableEq, Repr

/-- Who launches a batch. -/
inductive Owner where
  | timer
  | flush (caller : Ticket)
  | shutdown (caller : Ticket)
deriving DecidableEq, Repr

/-- The caller who waits for a batch. -/
def Owner.caller? : Owner → Option Ticket
  | timer => none
  | flush t => some t
  | shutdown t => some t

/-- A batch that is being launched: the first of the tables left waits for the digest tool. -/
structure Batch where
  number : Nat
  owner : Owner
  size : Nat
  left : List String
deriving DecidableEq, Repr

/--
The marked tables, the open window, and the batches that are being launched. The program counts
generations and launches in 64 bits, so its numbers are other than these only after `2 ^ 64` windows
or launches.
-/
structure Scheduler where
  /-- How long a window stays open, in milliseconds. -/
  cooldown : Nat
  /-- The marked tables. -/
  dirty : Fields Unit
  /-- The generation of the open window. -/
  window : Option Nat
  nextGeneration : Nat
  timers : List Timer
  batches : List Batch
  nextBatch : Nat
  /-- How many batches have been launched. -/
  flushes : Nat
deriving DecidableEq, Repr

namespace Scheduler

def empty (cooldown : Nat) : Scheduler :=
  ⟨cooldown, [], none, 0, [], [], 0, 0⟩

/-- The marked tables in order. -/
def pending (s : Scheduler) : List String :=
  s.dirty.names

def armed (s : Scheduler) : Bool :=
  s.window.isSome

/-- Marks a table. The timer is given back if a window was opened for it. -/
def mark (s : Scheduler) (now : Nat) (table : String) : Option Timer × Scheduler :=
  let s := { s with dirty := s.dirty.insert table () }
  match s.window with
  | some _ => (none, s)
  | none =>
    let timer : Timer := ⟨s.nextGeneration, now + s.cooldown, false⟩
    (some timer,
      { s with
        window := some s.nextGeneration
        nextGeneration := s.nextGeneration + 1
        timers := s.timers ++ [timer] })

/-- Cancels the timer of a window. -/
def cancel (generation : Nat) (timers : List Timer) : List Timer :=
  timers.map fun t => if t.generation = generation then { t with cancelled := true } else t

/--
Closes the window and takes the marked tables. With a generation, only the window of that
generation is closed, and otherwise nothing is taken.
-/
def take (s : Scheduler) (generation : Option Nat) : List String × Scheduler :=
  if generation.isSome ∧ s.window ≠ generation then ([], s)
  else
    (s.pending,
      { s with
        dirty := []
        window := none
        timers := match s.window with
          | some g => cancel g s.timers
          | none => s.timers })

/-- Begins to launch a batch. Nothing is begun, nor counted, for no tables. -/
def launch (s : Scheduler) (owner : Owner) (tables : List String) : Option Batch × Scheduler :=
  if tables.isEmpty then (none, s)
  else
    let batch : Batch := ⟨s.nextBatch, owner, tables.length, tables⟩
    (some batch,
      { s with
        batches := s.batches ++ [batch]
        nextBatch := s.nextBatch + 1
        flushes := s.flushes + 1 })

/-- The digest tool has answered for the first table of a batch. Gives back the batch after that. -/
def launched (s : Scheduler) (number : Nat) : Option Batch × Scheduler :=
  match s.batches.find? fun b => b.number = number with
  | none => (none, s)
  | some b =>
    let b := { b with left := b.left.drop 1 }
    (some b,
      { s with
        batches :=
          if b.left.isEmpty then s.batches.filter fun c => c.number ≠ number
          else s.batches.map fun c => if c.number = number then b else c })

/-- A timer fires: what it takes is launched. -/
def expire (s : Scheduler) (generation : Nat) : Option Batch × Scheduler :=
  if s.timers.any fun t => t.generation = generation then
    let (tables, s) := s.take (some generation)
    { s with timers := s.timers.filter fun t => t.generation ≠ generation }.launch .timer tables
  else (none, s)

/-- A timer notices that it was cancelled. -/
def notice (s : Scheduler) (generation : Nat) : Scheduler :=
  { s with timers := s.timers.filter fun t => !(t.generation = generation && t.cancelled) }

/-- Takes everything that is marked and begins to launch it. -/
def flush (s : Scheduler) (owner : Owner) : Option Batch × Scheduler :=
  let (tables, s) := s.take none
  s.launch owner tables

/-- A caller has gone. What is left of its batch is not launched. -/
def drop (s : Scheduler) (caller : Ticket) : Scheduler :=
  { s with batches := s.batches.filter fun b => b.owner.caller? ≠ some caller }

end Scheduler

end StoreGateway.Digest
