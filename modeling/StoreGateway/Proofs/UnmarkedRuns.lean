import Mathlib.Algebra.Ring.Nat
import StoreGateway.Proofs.Calls
import StoreGateway.Proofs.TimelineRuns

/-!
# Runs that mark nothing

Tables are digested when they are marked, and they are marked when somebody asks for that or has
written to them. A run without such requests calls the query tool alone: once at most for each
request.

* `Request.MarksNothing`: requests after which no table is marked, whatever a tool replies;
* `Gateway.Unmarked`, `Gateway.unmarked_step`: nothing is marked, and no reply will mark anything;
* `Gateway.length_begun_le`: there are no more refreshes than requests for columns;
* `Gateway.tool_of_marksNothing`, `Gateway.length_callsMade_le`: the calls of such a run.
-/

namespace StoreGateway

open Catalog Command Digest Query

/-- No table is marked after the request, whatever a tool replies. -/
def Request.MarksNothing : Request → Prop
  | .add dataset subset _ => dataset = "" ∨ subset = ""
  | .mark _ => False
  | _ => True

/-- The request is for columns. -/
def Request.isColumns : Request → Bool
  | .columns _ => true
  | _ => false

/-- How many calls can come of the request, if it marks nothing. -/
def Request.cost (r : Request) : Nat :=
  r.call?.toList.length + if r.isColumns then 1 else 0

theorem Request.cost_le_one (r : Request) : r.cost ≤ 1 := by
  have hcall : r.call?.toList.length ≤ 1 := by cases r.call? <;> simp
  cases r with
  | columns table => exact Nat.le_refl 1
  | run _ _ _ | stats _ | tables | add _ _ _ | clear _ | mark _ | flush | shutdown => exact hcall

/-! ## The scheduler -/

namespace Digest.Scheduler

/-- No table is marked and none is being digested. -/
structure Unmarked (s : Scheduler) : Prop where
  dirty : s.dirty = []
  batches : s.batches = []

theorem unmarked_take {s : Scheduler} (h : s.Unmarked) (generation : Option Nat) :
    (s.take generation).1 = [] ∧ (s.take generation).2.Unmarked := by
  have hpending : s.pending = [] := by
    unfold pending
    rw [h.dirty]
    rfl
  unfold take
  split
  · exact ⟨rfl, h⟩
  · exact ⟨hpending, rfl, h.batches⟩

/-- Without marks there is nothing to launch. -/
theorem unmarked_move {s : Scheduler} (h : s.Unmarked) (now : Nat) {m : Move}
    (hm : ∀ table, m ≠ .mark table) : (s.move now m).Unmarked ∧ s.batch? m = none := by
  cases m with
  | mark table => exact absurd rfl (hm table)
  | expire generation =>
    show (s.expire generation).2.Unmarked ∧ (s.expire generation).1 = none
    obtain ⟨htaken, hs⟩ := unmarked_take h (some generation)
    unfold expire
    split
    · dsimp only
      rw [htaken]
      exact ⟨⟨hs.dirty, hs.batches⟩, rfl⟩
    · exact ⟨h, rfl⟩
  | notice generation => exact ⟨⟨h.dirty, h.batches⟩, rfl⟩
  | flush owner =>
    show (s.flush owner).2.Unmarked ∧ (s.flush owner).1 = none
    obtain ⟨htaken, hs⟩ := unmarked_take h none
    unfold flush
    dsimp only
    rw [htaken]
    exact ⟨hs, rfl⟩
  | launched batch =>
    show (s.launched batch).2.Unmarked ∧ (s.launched batch).1 = none
    rw [launched_none (by simp [h.batches])]
    exact ⟨h, rfl⟩
  | drop caller =>
    refine ⟨⟨h.dirty, ?_⟩, rfl⟩
    show s.batches.filter _ = []
    rw [h.batches]
    rfl

end Digest.Scheduler

namespace Gateway

/-- No table is marked, and no call is open whose reply would mark one. -/
structure Unmarked (g : Gateway) : Prop where
  digests : g.digests.Unmarked
  calls : ∀ c ∈ g.calls, ∀ caller table, c.2 ≠ .add caller table

theorem unmarked_empty (ttl cooldown : Nat) : (empty ttl cooldown).Unmarked :=
  ⟨⟨rfl, rfl⟩, fun _ hc => absurd hc List.not_mem_nil⟩

/-- A move that marks a table is made for a request or for a reply to a write. -/
theorem schedulerMove?_ne_mark {g : Gateway} (h : g.Unmarked) {e : Event}
    (he : ∀ r, e.request? = some r → r.MarksNothing) {m : Scheduler.Move}
    (hm : g.schedulerMove? e = some m) (table : String) : m ≠ .mark table := by
  rintro rfl
  cases e with
  | request caller r =>
    cases r with
    | mark table => exact he _ rfl
    | run _ _ _ | columns _ | stats _ | tables | add _ _ _ | clear _ | flush | shutdown => cases hm
  | reply call outcome =>
    obtain ⟨p, hp, hmark⟩ := Option.bind_eq_some_iff.1 hm
    cases p with
    | add caller t => exact h.calls _ (mem_of_purpose? hp) caller t rfl
    | run _ _ | stats _ | tables _ | refresh _ | digest _ _ => cases hmark
  | begin _ | expire _ | notice _ | drop _ => cases hm

theorem step_add_of_empty {dataset subset : String} (h : dataset = "" ∨ subset = "") (g : Gateway)
    (now : Nat) (caller : Ticket) (samples : List Json) :
    g.step now (.request caller (.add dataset subset samples)) =
      (g, [.answer caller (.error .missingTable)]) :=
  if_pos h

/-- No call is made whose reply would mark a table. -/
theorem unmarked_calls_step {g : Gateway} (h : g.Unmarked) (now : Nat) {e : Event}
    (he : ∀ r, e.request? = some r → r.MarksNothing) :
    ∀ c ∈ (g.step now e).1.calls, ∀ caller table, c.2 ≠ .add caller table := by
  obtain ⟨made, hcalls, -, hopens⟩ := step_calls g now e
  by_cases hadd : ∃ caller dataset subset samples, e = .request caller (.add dataset subset samples)
  · obtain ⟨caller, dataset, subset, samples, rfl⟩ := hadd
    rw [step_add_of_empty (he _ rfl)]
    exact h.calls
  · intro c hc caller table heq
    rw [hcalls] at hc
    rcases List.mem_append.1 hc with hc | hc
    · exact h.calls c (List.mem_of_mem_filter hc) caller table heq
    · obtain ⟨p, hp, rfl⟩ := Option.map_eq_some_iff.1 (Option.mem_toList.1 hc)
      obtain rfl : p = .add caller table := heq
      cases hopens _ hp
      exact hadd ⟨_, _, _, _, rfl⟩

/-- **Where nothing is marked, an event that marks nothing launches nothing.** -/
theorem unmarked_step {g : Gateway} (h : g.Unmarked) (now : Nat) {e : Event}
    (he : ∀ r, e.request? = some r → r.MarksNothing) :
    (g.step now e).1.Unmarked ∧ g.launches now e = [] := by
  have hmove : ∀ m, g.schedulerMove? e = some m →
      (g.digests.move now m).Unmarked ∧ g.digests.batch? m = none :=
    fun m hm => Scheduler.unmarked_move h.digests now (schedulerMove?_ne_mark h he hm)
  refine ⟨⟨?_, unmarked_calls_step h now he⟩, ?_⟩
  · rw [step_digests]
    cases hm : g.schedulerMove? e with
    | none => exact h.digests
    | some m => exact (hmove m hm).1
  · unfold launches
    cases hm : g.schedulerMove? e with
    | none => rfl
    | some m =>
      rw [Option.bind_some, (hmove m hm).2]
      rfl

/-- The calls that are asked for are those of the requests. -/
theorem asked_eq (run : Run) : asked run = (requests run).filterMap Request.call? := by
  unfold asked requests
  rw [List.filterMap_filterMap]
  refine List.filterMap_congr fun e _ => ?_
  cases e.2 <;> rfl

theorem mem_requests_concat {run : Run} {now : Nat} {e : Event} {r : Request} :
    r ∈ requests (run ++ [(now, e)]) ↔ r ∈ requests run ∨ e.request? = some r := by
  rw [requests_append, List.mem_append]
  cases h : e.request? <;> simp [requests, h, eq_comm]

section Runs

variable (ttl cooldown : Nat) {run : Run} (h : ∀ r ∈ requests run, r.MarksNothing)
include h

theorem unmarked_after :
    ((empty ttl cooldown).after run).Unmarked ∧ (empty ttl cooldown).launched run = [] := by
  induction run using List.reverseRecOn with
  | nil => exact ⟨unmarked_empty ttl cooldown, rfl⟩
  | append_singleton run e ih =>
    obtain ⟨now, e⟩ := e
    obtain ⟨hafter, hlaunched⟩ := ih fun r hr => h r (mem_requests_concat.2 (.inl hr))
    obtain ⟨hstep, hlaunches⟩ :=
      unmarked_step hafter now fun r hr => h r (mem_requests_concat.2 (.inr hr))
    unfold launched at hlaunched ⊢
    rw [after_concat, gather_concat, hlaunched, hlaunches]
    exact ⟨hstep, rfl⟩

/-- A run that marks nothing makes the calls of its requests and of its refreshes. -/
theorem perm_callsMade_of_marksNothing :
    ((empty ttl cooldown).callsMade run).Perm
      (asked run ++ ((empty ttl cooldown).begun run).map infoCall) := by
  have hperm := (empty ttl cooldown).perm_callsMade run
  rwa [(unmarked_after ttl cooldown h).2, List.map_nil, List.append_nil] at hperm

/-- A run that marks nothing calls the query tool alone. -/
theorem tool_of_marksNothing {c : Call} (hc : c ∈ (empty ttl cooldown).callsMade run) :
    c.tool = .query := by
  have hperm := perm_callsMade_of_marksNothing ttl cooldown h
  rcases List.mem_append.1 (hperm.mem_iff.1 hc) with hc | hc
  · rw [asked_eq] at hc
    obtain ⟨r, hr, hcall⟩ := List.mem_filterMap.1 hc
    rcases tool_of_call? hcall with htool | ⟨-, dataset, subset, samples, rfl, hnamed⟩
    · exact htool
    · exact absurd (h _ hr) hnamed
  · obtain ⟨table, -, rfl⟩ := List.mem_map.1 hc
    rfl

end Runs

/-! ## Refreshes -/

theorem queued_lookup_le (c : ColumnCache) (now : Nat) (table : String) (caller : Ticket) :
    (c.lookup now table caller).2.queued.length ≤ c.queued.length + 1 := by
  unfold ColumnCache.lookup
  split
  · split
    · exact Nat.le_succ _
    · dsimp only
      split
      · exact Nat.le_succ _
      · simp [ColumnCache.queue]
  · split
    · exact Nat.le_succ _
    · simp [ColumnCache.queue]

theorem queued_finish (c : ColumnCache) (now : Nat) (table : String) (reply : Except Error Json) :
    (c.finish now table reply).2.queued = c.queued := by
  unfold ColumnCache.finish
  split <;> rfl

/-- A refresh is queued by a request for columns, and begins but once. -/
theorem length_begins_le (g : Gateway) (now : Nat) (e : Event) :
    (g.begins now e).length + (g.step now e).1.columns.queued.length ≤
      g.columns.queued.length + e.request?.toList.countP Request.isColumns := by
  rw [step_columns]
  cases e with
  | request caller r =>
    cases r with
    | columns table =>
      by_cases hname : table.name = ""
      · simp [cacheMove?, hname, begins]
      · have hle := queued_lookup_le g.columns now table.name caller
        simpa [cacheMove?, hname, begins, ColumnCache.move, Event.request?,
          Request.isColumns] using hle
    | run _ _ _ | stats _ | tables | add _ _ _ | clear _ | mark _ | flush | shutdown =>
      simp [cacheMove?, begins, ColumnCache.move, ColumnCache.invalidate]
  | begin table =>
    show (if table ∈ g.columns.queued then [table] else []).length +
      (g.columns.begin table).queued.length ≤ g.columns.queued.length
    unfold ColumnCache.begin
    split
    · next hqueued =>
      show 1 + (g.columns.queued.erase table).length ≤ g.columns.queued.length
      have hpos : 0 < g.columns.queued.length := List.length_pos_of_mem hqueued
      rw [List.length_erase_of_mem hqueued]
      omega
    · exact Nat.le_of_eq (Nat.zero_add _)
  | reply call outcome =>
    cases hp : g.purpose? call with
    | none => simp [cacheMove?, hp, begins]
    | some p =>
      cases p with
      | refresh table => simp [cacheMove?, hp, replyMove?, begins, ColumnCache.move, queued_finish]
      | run _ _ | stats _ | tables _ | add _ _ | digest _ _ =>
        simp [cacheMove?, hp, replyMove?, begins]
  | expire _ | notice _ | drop _ => simp [cacheMove?, begins]

/-- There are no more refreshes in a run than requests for columns. -/
theorem length_begun_le (ttl cooldown : Nat) (run : Run) :
    ((empty ttl cooldown).begun run).length +
        ((empty ttl cooldown).after run).columns.queued.length ≤
      (requests run).countP Request.isColumns := by
  induction run using List.reverseRecOn with
  | nil => exact Nat.le_refl 0
  | append_singleton run e ih =>
    obtain ⟨now, e⟩ := e
    have hstep := length_begins_le ((empty ttl cooldown).after run) now e
    have hrequest : requests [(now, e)] = e.request?.toList := by
      cases h : e.request? <;> simp [requests, h]
    unfold begun at ih ⊢
    rw [after_concat, gather_concat, requests_append, hrequest, List.length_append,
      List.countP_append]
    omega

theorem sum_cost (rs : List Request) :
    (rs.map Request.cost).sum =
      (rs.filterMap Request.call?).length + rs.countP Request.isColumns := by
  induction rs with
  | nil => rfl
  | cons r rs ih =>
    rw [List.map_cons, List.sum_cons, ih, List.countP_cons, Request.cost]
    cases hcall : r.call? with
    | none =>
      rw [List.filterMap_cons_none hcall]
      simp only [Option.toList_none, List.length_nil]
      omega
    | some c =>
      rw [List.filterMap_cons_some hcall]
      simp only [Option.toList_some, List.length_cons, List.length_nil]
      omega

/-- **A run that marks nothing makes no more calls than its requests cost.** -/
theorem length_callsMade_le (ttl cooldown : Nat) {run : Run}
    (h : ∀ r ∈ requests run, r.MarksNothing) :
    ((empty ttl cooldown).callsMade run).length ≤ ((requests run).map Request.cost).sum := by
  have hlength := (perm_callsMade_of_marksNothing ttl cooldown h).length_eq
  have hbegun := length_begun_le ttl cooldown run
  rw [List.length_append, List.length_map, asked_eq] at hlength
  rw [sum_cost]
  omega

end Gateway

end StoreGateway
