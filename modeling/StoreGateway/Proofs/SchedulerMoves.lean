import StoreGateway.Proofs.Numbering
import StoreGateway.Proofs.Runs
import StoreGateway.Proofs.Steps

/-!
# What a run does to the digest scheduler

Each step of the gateway is at most one move of its scheduler. What a move does is said here once
for each case, so that the rest need not look into the operations.

* `Scheduler.Move`, `Scheduler.move`: the moves of a scheduler, all of them total;
* `Scheduler.batch?`: the batch that a move begins or goes on with;
* `Scheduler.close`, `Scheduler.endTimer`: the window is closed, a timer is over;
* `Gateway.schedulerMove?`, `Gateway.step_digests`: a step of the gateway makes the move of its
  event, and no other;
* `Gateway.digests_after`: what every move keeps is kept by every run.
-/

namespace StoreGateway

open Catalog Command Digest Query

namespace Digest

/-- A batch whose first table has been launched. -/
def Batch.tail (b : Batch) : Batch :=
  { b with left := b.left.drop 1 }

namespace Scheduler

inductive Move where
  | mark (table : String)
  | expire (generation : Nat)
  | notice (generation : Nat)
  | flush (owner : Owner)
  | launched (batch : Nat)
  | drop (caller : Ticket)

def move (s : Scheduler) (now : Nat) : Move → Scheduler
  | .mark table => (s.mark now table).2
  | .expire generation => (s.expire generation).2
  | .notice generation => s.notice generation
  | .flush owner => (s.flush owner).2
  | .launched batch => (s.launched batch).2
  | .drop caller => s.drop caller

/-- The batch that a move begins or goes on with. -/
def batch? (s : Scheduler) : Move → Option Batch
  | .expire generation => (s.expire generation).1
  | .flush owner => (s.flush owner).1
  | .launched batch => (s.launched batch).1
  | _ => none

/-! ## Taking the marked tables -/

/-- Nothing is marked and no window is open; the timer of the window that was is cancelled. -/
def close (s : Scheduler) : Scheduler :=
  { s with
    dirty := []
    window := none
    timers := match s.window with
      | some g => cancel g s.timers
      | none => s.timers }

/-- A timer is over. -/
def endTimer (s : Scheduler) (generation : Nat) : Scheduler :=
  { s with timers := s.timers.filter fun t => t.generation ≠ generation }

theorem take_own {s : Scheduler} {generation : Nat} (h : s.window = some generation) :
    s.take (some generation) = (s.pending, s.close) := by
  unfold take
  rw [if_neg (by simp [h])]
  rfl

theorem take_other {s : Scheduler} {generation : Nat} (h : s.window ≠ some generation) :
    s.take (some generation) = ([], s) := by
  unfold take
  rw [if_pos ⟨rfl, h⟩]

/-! ## Launching -/

theorem launch_nil (s : Scheduler) (owner : Owner) : s.launch owner [] = (none, s) := rfl

/-- The batch that is begun for some tables. -/
def newBatch (s : Scheduler) (owner : Owner) (tables : List String) : Batch :=
  ⟨s.nextBatch, owner, tables.length, tables⟩

/-- A scheduler that has begun a batch. -/
def begun (s : Scheduler) (b : Batch) : Scheduler :=
  { s with batches := s.batches ++ [b], nextBatch := s.nextBatch + 1, flushes := s.flushes + 1 }

theorem launch_of_ne_nil {tables : List String} (h : tables ≠ []) (s : Scheduler) (owner : Owner) :
    s.launch owner tables =
      (some (s.newBatch owner tables), s.begun (s.newBatch owner tables)) := by
  unfold launch
  rw [if_neg (by simpa using h)]
  rfl

theorem launch_batch {s s' : Scheduler} {owner : Owner} {tables : List String} {b : Batch}
    (h : s.launch owner tables = (some b, s')) :
    tables ≠ [] ∧ b = s.newBatch owner tables ∧ s' = s.begun b := by
  by_cases htables : tables = []
  · rw [htables, launch_nil] at h
    cases h
  · rw [launch_of_ne_nil htables] at h
    cases h
    exact ⟨htables, rfl, rfl⟩

section
variable (s : Scheduler) (owner : Owner) (tables : List String)

@[simp]
theorem launch_cooldown : (s.launch owner tables).2.cooldown = s.cooldown := by
  unfold launch
  split <;> rfl

@[simp]
theorem launch_dirty : (s.launch owner tables).2.dirty = s.dirty := by
  unfold launch
  split <;> rfl

@[simp]
theorem launch_window : (s.launch owner tables).2.window = s.window := by
  unfold launch
  split <;> rfl

@[simp]
theorem launch_nextGeneration :
    (s.launch owner tables).2.nextGeneration = s.nextGeneration := by
  unfold launch
  split <;> rfl

@[simp]
theorem launch_timers : (s.launch owner tables).2.timers = s.timers := by
  unfold launch
  split <;> rfl

end

theorem launch_batches (s : Scheduler) (owner : Owner) (tables : List String) :
    (s.launch owner tables).2.batches = s.batches ++ (s.launch owner tables).1.toList := by
  by_cases h : tables = []
  · rw [h, launch_nil]
    simp
  · rw [launch_of_ne_nil h]
    rfl

/-! ## Timers that fire, and flushes -/

theorem flush_eq (s : Scheduler) (owner : Owner) :
    s.flush owner = s.close.launch owner s.pending := rfl

theorem endTimer_of_none {s : Scheduler} {generation : Nat}
    (h : ∀ t ∈ s.timers, t.generation ≠ generation) : s.endTimer generation = s := by
  have hkeep : s.timers.filter (fun t => t.generation ≠ generation) = s.timers :=
    List.filter_eq_self.2 fun t ht => decide_eq_true (h t ht)
  unfold endTimer
  rw [hkeep]

theorem expire_none {s : Scheduler} {generation : Nat}
    (h : ∀ t ∈ s.timers, t.generation ≠ generation) :
    s.expire generation = (none, s.endTimer generation) := by
  have hany : ¬s.timers.any (fun t => t.generation = generation) = true := by
    simpa using h
  unfold expire
  rw [if_neg hany, endTimer_of_none h]

/-- A timer whose window is not the open one takes nothing and launches nothing. -/
theorem expire_other {s : Scheduler} {generation : Nat} (h : s.window ≠ some generation) :
    s.expire generation = (none, s.endTimer generation) := by
  by_cases hany : s.timers.any (fun t => t.generation = generation) = true
  · unfold expire
    rw [if_pos hany, take_other h]
    rfl
  · exact expire_none (by simpa using hany)

theorem expire_own {s : Scheduler} {t : Timer} (ht : t ∈ s.timers)
    (h : s.window = some t.generation) :
    s.expire t.generation = (s.close.endTimer t.generation).launch .timer s.pending := by
  unfold expire
  rw [if_pos (List.any_eq_true.2 ⟨t, ht, decide_eq_true rfl⟩), take_own h]
  rfl

/-- A timer takes what is marked in its own window, or it only ends. -/
theorem expire_cases (s : Scheduler) (generation : Nat) :
    (s.window = some generation ∧
        s.expire generation = (s.close.endTimer generation).launch .timer s.pending) ∨
      s.expire generation = (none, s.endTimer generation) := by
  by_cases hwindow : s.window = some generation
  · by_cases htimer : ∃ t ∈ s.timers, t.generation = generation
    · obtain ⟨t, ht, rfl⟩ := htimer
      exact Or.inl ⟨hwindow, expire_own ht hwindow⟩
    · exact Or.inr (expire_none fun t ht e => htimer ⟨t, ht, e⟩)
  · exact Or.inr (expire_other hwindow)

theorem flush_batches (s : Scheduler) (owner : Owner) :
    (s.flush owner).2.batches = s.batches ++ (s.flush owner).1.toList :=
  launch_batches s.close owner s.pending

theorem take_batches (s : Scheduler) (generation : Option Nat) :
    (s.take generation).2.batches = s.batches := by
  unfold take
  split <;> rfl

theorem expire_batches (s : Scheduler) (generation : Nat) :
    (s.expire generation).2.batches = s.batches ++ (s.expire generation).1.toList := by
  unfold expire
  split
  · dsimp only
    rw [launch_batches]
    show (s.take (some generation)).2.batches ++ _ = _
    rw [take_batches]
  · simp

/-- A batch that a timer begins is the timer's. -/
theorem expire_owner {s : Scheduler} {generation : Nat} {b : Batch}
    (h : (s.expire generation).1 = some b) : b.owner = .timer := by
  unfold expire at h
  split at h
  · obtain ⟨-, rfl, -⟩ := launch_batch (Prod.ext h rfl)
    rfl
  · cases h

/-! ## Batches that go on -/

theorem launched_none {s : Scheduler} {batch : Nat} (h : ∀ b ∈ s.batches, b.number ≠ batch) :
    s.launched batch = (none, s) := by
  have hfind : s.batches.find? (fun b => b.number = batch) = none := by
    rw [List.find?_eq_none]
    intro b hb
    simpa using h b hb
  unfold launched
  rw [hfind]

/-- What goes on is one of the batches that are being launched. -/
theorem launched_some {s : Scheduler} {batch : Nat} {b' : Batch}
    (h : (s.launched batch).1 = some b') :
    ∃ b ∈ s.batches, b.number = batch ∧ b' = b.tail := by
  unfold launched at h
  split at h
  · cases h
  · next b hfind =>
    cases h
    exact ⟨b, List.mem_of_find?_eq_some hfind, by simpa using List.find?_some hfind, rfl⟩

/-- A batch goes on in its place, or is gone when all of it was launched. -/
theorem launched_split {s : Scheduler} {before behind : List Batch} {b : Batch}
    (hsplit : s.batches = before ++ b :: behind) (hbefore : ∀ c ∈ before, c.number ≠ b.number)
    (hbehind : ∀ c ∈ behind, c.number ≠ b.number) :
    s.launched b.number =
      (some b.tail,
        { s with
          batches := before ++ (if b.tail.left = [] then [] else [b.tail]) ++ behind }) := by
  have hfind : s.batches.find? (fun c => c.number = b.number) = some b := by
    rw [List.find?_eq_some_iff_append]
    refine ⟨by simp, before, behind, hsplit, fun c hc => ?_⟩
    simpa using hbefore c hc
  have hfilter : s.batches.filter (fun c => c.number ≠ b.number) = before ++ behind := by
    rw [hsplit, List.filter_append, List.filter_cons_of_neg (by simp),
      List.filter_eq_self.2 fun c hc => decide_eq_true (hbefore c hc),
      List.filter_eq_self.2 fun c hc => decide_eq_true (hbehind c hc)]
  have hmap : s.batches.map (fun c => if c.number = b.number then b.tail else c) =
      before ++ b.tail :: behind := by
    rw [hsplit, List.map_append, List.map_cons, if_pos rfl]
    congr 1
    · exact (List.map_congr_left fun c hc => if_neg (hbefore c hc)).trans (List.map_id before)
    · congr 1
      exact (List.map_congr_left fun c hc => if_neg (hbehind c hc)).trans (List.map_id behind)
  unfold launched
  rw [hfind]
  show (some b.tail, { s with
    batches :=
      if b.tail.left.isEmpty then s.batches.filter fun c => c.number ≠ b.number
      else s.batches.map fun c : Batch => if c.number = b.number then b.tail else c }) = _
  rw [hfilter, hmap]
  by_cases h : b.tail.left = []
  · simp [h]
  · simp [h]

theorem mark_batches (s : Scheduler) (now : Nat) (table : String) :
    (s.mark now table).2.batches = s.batches := by
  unfold mark
  dsimp only
  split <;> rfl

theorem owner_of_mem_launched {s : Scheduler} {batch : Nat} {b : Batch}
    (h : b ∈ (s.launched batch).2.batches) : ∃ c ∈ s.batches, c.owner = b.owner := by
  unfold launched at h
  split at h
  · exact ⟨b, h, rfl⟩
  · next c hfind =>
    dsimp only at h
    split at h
    · exact ⟨b, List.mem_of_mem_filter h, rfl⟩
    · obtain ⟨d, hd, rfl⟩ := List.mem_map.1 h
      split
      · exact ⟨c, List.mem_of_find?_eq_some hfind, rfl⟩
      · exact ⟨d, hd, rfl⟩

/-- A batch that is being launched was begun before, or by a timer, or by this flush. -/
theorem owner_of_mem_move {s : Scheduler} {now : Nat} {m : Move} {b : Batch}
    (h : b ∈ (s.move now m).batches) :
    (∃ c ∈ s.batches, c.owner = b.owner) ∨ b.owner = .timer ∨ m = .flush b.owner := by
  cases m with
  | mark table =>
    change b ∈ (s.mark now table).2.batches at h
    rw [mark_batches] at h
    exact Or.inl ⟨b, h, rfl⟩
  | expire generation =>
    change b ∈ (s.expire generation).2.batches at h
    rw [expire_batches, List.mem_append, Option.mem_toList] at h
    rcases h with h | h
    · exact Or.inl ⟨b, h, rfl⟩
    · exact Or.inr (Or.inl (expire_owner h))
  | notice generation => exact Or.inl ⟨b, h, rfl⟩
  | flush owner =>
    change b ∈ (s.flush owner).2.batches at h
    rw [flush_batches, List.mem_append, Option.mem_toList] at h
    rcases h with h | h
    · exact Or.inl ⟨b, h, rfl⟩
    · rw [flush_eq] at h
      obtain ⟨-, rfl, -⟩ := launch_batch (Prod.ext h rfl)
      exact Or.inr (Or.inr rfl)
  | launched batch => exact Or.inl (owner_of_mem_launched h)
  | drop caller => exact Or.inl ⟨b, List.mem_of_mem_filter h, rfl⟩

end Scheduler

end Digest

/-- A caller asks for what is marked to be launched at once. -/
def Event.Flushes (caller : Ticket) (e : Event) : Prop :=
  e = .request caller .flush ∨ e = .request caller .shutdown

namespace Gateway

open Scheduler (Move)

/-- The move of the scheduler that the reply to a call makes. -/
def replyMark? (outcome : Except Error Json) : Purpose → Option Move
  | .add _ table => outcome.toOption.map fun _ => .mark table
  | .digest batch _ => some (.launched batch)
  | _ => none

/-- The move of the scheduler that an event makes. -/
def schedulerMove? (g : Gateway) : Event → Option Move
  | .request _ (.mark table) => some (.mark table)
  | .request caller .flush => some (.flush (.flush caller))
  | .request caller .shutdown => some (.flush (.shutdown caller))
  | .request _ _ => none
  | .begin _ => none
  | .reply call outcome => (g.purpose? call).bind (replyMark? outcome)
  | .expire generation => some (.expire generation)
  | .notice generation => some (.notice generation)
  | .drop caller => some (.drop caller)

theorem resume_digests (g : Gateway) (now : Nat) (outcome : Except Error Json) (p : Purpose) :
    (g.resume now outcome p).1.digests =
      (replyMark? outcome p).elim g.digests (g.digests.move now) := by
  cases p with
  | add caller table => cases outcome <;> rfl
  | digest batch owner =>
    show (g.resume now outcome (.digest batch owner)).1.digests = (g.digests.launched batch).2
    unfold resume
    dsimp only
    split
    · next b s h => rw [goOn_digests, h]
    · next s h => rw [h]
  | run _ _ | stats _ | tables _ | refresh _ => rfl

/-- **A step of the gateway makes the move of its event on the scheduler, and no other.** -/
theorem step_digests (g : Gateway) (now : Nat) (e : Event) :
    (g.step now e).1.digests = (g.schedulerMove? e).elim g.digests (g.digests.move now) := by
  cases e with
  | request caller r =>
    show (g.request now caller r).1.digests = _
    cases r with
    | run table spec unweight => unfold request; dsimp only; split <;> rfl
    | columns table => unfold request; dsimp only; split <;> rfl
    | stats table => unfold request; dsimp only; split <;> rfl
    | add dataset subset samples => unfold request; dsimp only; split <;> rfl
    | flush => exact flush_digests g (.flush caller)
    | shutdown => exact flush_digests g (.shutdown caller)
    | tables | clear _ | mark _ => rfl
  | begin table =>
    show (g.beginRefresh table).1.digests = g.digests
    unfold beginRefresh
    split <;> rfl
  | reply call outcome =>
    cases h : g.purpose? call with
    | none =>
      rw [step_reply_of_none h]
      simp [schedulerMove?, h]
    | some p =>
      rw [step_reply h, resume_digests]
      simp [schedulerMove?, h, close]
  | expire generation => exact expire_digests g generation
  | notice generation => rfl
  | drop caller => rfl

/-- What every move of the scheduler keeps is kept by every run. -/
theorem digests_after {P : Scheduler → Prop} {g : Gateway} (start : P g.digests)
    (move : ∀ s now m, P s → P (s.move now m)) (run : Run) : P (g.after run).digests := by
  refine after_induction (P := fun g => P g.digests) start ?_ run
  intro g now e h
  show P (g.step now e).1.digests
  rw [step_digests]
  cases g.schedulerMove? e with
  | none => exact h
  | some m => exact move g.digests now m h

/-- Only a flush or a shutdown makes the scheduler flush, for its own caller. -/
theorem request_of_schedulerMove? {g : Gateway} {e : Event} {owner : Owner}
    (h : g.schedulerMove? e = some (.flush owner)) :
    ∃ caller, owner.caller? = some caller ∧ e.Flushes caller := by
  cases e with
  | request caller r =>
    cases r with
    | flush =>
      cases h
      exact ⟨caller, rfl, Or.inl rfl⟩
    | shutdown =>
      cases h
      exact ⟨caller, rfl, Or.inr rfl⟩
    | run _ _ _ | columns _ | stats _ | tables | add _ _ _ | clear _ | mark _ => cases h
  | reply call outcome =>
    obtain ⟨p, -, hp⟩ := Option.bind_eq_some_iff.1 h
    cases p with
    | add caller table =>
      obtain ⟨v, -, hv⟩ := Option.map_eq_some_iff.1 hp
      cases hv
    | run _ _ | stats _ | tables _ | refresh _ | digest _ _ => cases hp
  | begin _ | expire _ | notice _ | drop _ => cases h

end Gateway

end StoreGateway
