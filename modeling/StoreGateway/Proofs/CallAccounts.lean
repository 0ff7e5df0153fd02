import Mathlib.Algebra.Ring.Nat
import StoreGateway.Proofs.Launching
import StoreGateway.Proofs.ToolCalls

/-!
# Nothing is called twice

Every call of a tool is accounted for by the requests, refreshes and batches of a run. What a tool
replies is told to whoever asked, an error as it is, and no error leads to another call.

* `Gateway.toCome`, `Gateway.perm_launched`: what is taken is launched or still to come;
* `Purpose.ToldTo`, `Gateway.step_error_reply`: an error is told to the caller, and that is all;
* `Event.unweighted`, `Gateway.run_unweighted`: whether weights are wished for is of no consequence;
* `Gateway.calls_accounted`: all of this for every run.
-/

namespace StoreGateway

open Catalog Command Digest Query

/-- The event without its wish for weighted results. -/
def Event.unweighted : Event → Event
  | .request caller (.run table spec _) => .request caller (.run table spec false)
  | e => e

/-- The reply to a call for this purpose is told to the caller. -/
def Purpose.ToldTo (caller : Ticket) : Purpose → Prop
  | .run t _ | .stats t | .tables t | .add t _ => t = caller
  | .refresh _ | .digest _ _ => False

namespace Gateway

/-! ## Digests -/

theorem count_launched (g : Gateway) (run : Run) (table : String) :
    (g.launched run).count table = g.digestCalls table run := by
  induction run using List.reverseRecOn with
  | nil => rfl
  | append_singleton run e ih =>
    obtain ⟨now, e⟩ := e
    unfold launched digestCalls at ih ⊢
    rw [gather_concat, List.count_append, ih, effects_concat, List.countP_append,
      countP_digests_step]
    unfold launches
    cases ((g.after run).schedulerMove? e).bind (g.after run).digests.batch? <;> rfl

theorem flatten_takes (g : Gateway) (now : Nat) (e : Event) :
    (g.takes now e).flatten = (g.schedulerMove? e).elim [] g.digests.taken := by
  unfold takes
  by_cases h : (g.schedulerMove? e).elim [] g.digests.taken = []
  · simp [h]
  · simp [h]

/-- A table stands once in each set that was taken with it. -/
theorem count_flatten_taken (ttl cooldown : Nat) (run : Run) (table : String) :
    ((empty ttl cooldown).taken run).flatten.count table =
      ((empty ttl cooldown).taken run).countP fun tables => table ∈ tables := by
  induction run using List.reverseRecOn with
  | nil => rfl
  | append_singleton run e ih =>
    obtain ⟨now, e⟩ := e
    rw [taken_concat, List.flatten_append, List.count_append, List.countP_append, ih, flatten_takes,
      countP_takes (pending_nodup ttl cooldown run)]

/-- The tables of the batches that are being launched, but for the first of each. -/
def toCome (g : Gateway) : List String :=
  g.digests.batches.flatMap fun b => b.tail.left

/-- What is taken is launched, or it is still to come. -/
theorem perm_launched (ttl cooldown : Nat) {run : Run} (h : FlushersStay run) :
    ((empty ttl cooldown).launched run ++ ((empty ttl cooldown).after run).toCome).Perm
      ((empty ttl cooldown).taken run).flatten := by
  rw [List.perm_iff_count]
  intro table
  rw [List.count_append, count_launched, count_flatten_taken]
  exact digestCalls_balance ttl cooldown h table

theorem perm_digest_toCome (ttl cooldown : Nat) {run : Run} (h : FlushersStay run) :
    ((empty ttl cooldown).callsOf .digest run ++
        ((empty ttl cooldown).after run).toCome.map digestCall).Perm
      (((empty ttl cooldown).taken run).flatten.map digestCall) := by
  refine ((perm_digest _ run).append_right _).trans ?_
  rw [← List.map_append]
  exact (perm_launched ttl cooldown h).map digestCall

/-! ## Replies -/

/-- A request that makes a call makes it for its caller. -/
theorem request_of_call? {r : Request} {c : Call} (h : r.call? = some c) (g : Gateway) (now : Nat)
    (caller : Ticket) :
    ∃ p : Purpose, p.ToldTo caller ∧
      g.request now caller r = g.callTool p c.tool c.arguments c.records := by
  rcases Request.call?_cases h with ⟨table, spec, unweight, arguments, rfl, hname, hview, rfl⟩ |
    ⟨table, rfl, hname, rfl⟩ | ⟨rfl, rfl⟩ | ⟨dataset, subset, samples, rfl, hnamed, rfl⟩
  · refine ⟨.run caller spec, rfl, ?_⟩
    simp [request, require_of_ne hname, hview, Except.bind]
  · refine ⟨.stats caller, rfl, ?_⟩
    simp [request, require_of_ne hname]
  · exact ⟨.tables caller, rfl, rfl⟩
  · exact ⟨.add caller (tableName dataset subset), rfl, if_neg hnamed⟩

/-- An error is told as it is, and nothing else is done about it. -/
theorem resume_error {p : Purpose} {caller : Ticket} (hp : p.ToldTo caller) (g : Gateway)
    (now : Nat) (e : Error) : g.resume now (.error e) p = (g, [.answer caller (.error e)]) := by
  cases p with
  | run _ _ | stats _ | tables _ | add _ _ =>
    cases hp
    rfl
  | refresh _ | digest _ _ => cases hp

theorem caller?_of_toldTo {p : Purpose} {caller : Ticket} (hp : p.ToldTo caller) :
    p.caller? = some caller := by
  cases p with
  | run _ _ | stats _ | tables _ | add _ _ => exact congrArg some hp
  | refresh _ | digest _ _ => cases hp

/-- An event that neither answers a call nor takes away a caller. -/
def Leaves (number : Nat) (caller : Ticket) (e : Event) : Prop :=
  (∀ outcome, e ≠ .reply number outcome) ∧ e ≠ .drop caller

theorem keeps_iff_leaves {number : Nat} {caller : Ticket} {p : Purpose} (hp : p.ToldTo caller)
    {e : Event} : e.keeps (number, p) = true ↔ Leaves number caller e := by
  unfold Leaves
  cases e with
  | reply call outcome => simp [Event.keeps, @eq_comm _ call]
  | drop c => simp [Event.keeps, caller?_of_toldTo hp, @eq_comm _ c]
  | request _ _ | begin _ | expire _ | notice _ => simp [Event.keeps]

theorem mem_calls_after {g : Gateway} {number : Nat} {caller : Ticket} {p : Purpose} {run : Run}
    (hp : p.ToldTo caller) (hcall : (number, p) ∈ g.calls)
    (hrun : ∀ d ∈ run, Leaves number caller d.2) : (number, p) ∈ (g.after run).calls := by
  induction run generalizing g with
  | nil => exact hcall
  | cons d run ih =>
    refine ih ?_ fun d hd => hrun d (List.mem_cons_of_mem _ hd)
    obtain ⟨made, hmade⟩ := step_calls g d.1 d.2
    rw [hmade.calls]
    exact List.mem_append_left _
      (List.mem_filter.2 ⟨hcall, (keeps_iff_leaves hp).2 (hrun d List.mem_cons_self)⟩)

theorem callsNumbered_after (ttl cooldown : Nat) (run : Run) :
    ((empty ttl cooldown).after run).CallsNumbered :=
  after_induction (callsNumbered_empty ttl cooldown)
    (fun _ now e h => callsNumbered_step now e h) run

/-- A tool's error is told to the caller whose request called it, and nothing else comes of it. -/
theorem step_error_reply (ttl cooldown : Nat) (pre mid : Run) {r : Request} {c : Call}
    (h : r.call? = some c) (now later : Nat) (caller : Ticket) (e : Error)
    (hmid : ∀ d ∈ mid, Leaves ((empty ttl cooldown).after pre).nextCall caller d.2) :
    let g := (empty ttl cooldown).after (pre ++ (now, .request caller r) :: mid)
    let number := ((empty ttl cooldown).after pre).nextCall
    g.step later (.reply number (.error e)) = (g.close number, [.answer caller (.error e)]) := by
  intro g number
  obtain ⟨p, hp, hrequest⟩ := request_of_call? h ((empty ttl cooldown).after pre) now caller
  have hmade : (number, p) ∈
      ((empty ttl cooldown).after (pre ++ [(now, .request caller r)])).calls := by
    rw [after_concat]
    show _ ∈ (((empty ttl cooldown).after pre).request now caller r).1.calls
    rw [hrequest, callTool_calls]
    exact List.mem_append_right _ (List.mem_singleton_self _)
  have hcall : (number, p) ∈ g.calls := by
    show _ ∈ ((empty ttl cooldown).after (pre ++ (now, .request caller r) :: mid)).calls
    rw [after_append_cons]
    exact mem_calls_after hp hmade hmid
  rw [step_reply (purpose?_of_mem (callsNumbered_after ttl cooldown _) hcall)]
  exact resume_error hp (g.close number) later e

/-! ## Weights -/

theorem step_unweighted (g : Gateway) (now : Nat) (e : Event) :
    g.step now e.unweighted = g.step now e := by
  cases e with
  | request caller r => cases r <;> rfl
  | begin _ | reply _ _ | expire _ | notice _ | drop _ => rfl

/-- A run goes on in the same way whether or not its queries wish for weights. -/
theorem run_unweighted (g : Gateway) (run : Run) :
    g.after (run.map fun e => (e.1, e.2.unweighted)) = g.after run ∧
      g.effects (run.map fun e => (e.1, e.2.unweighted)) = g.effects run := by
  induction run generalizing g with
  | nil => exact ⟨rfl, rfl⟩
  | cons e run ih =>
    obtain ⟨now, e⟩ := e
    obtain ⟨hafter, heffects⟩ := ih (g.step now e).1
    rw [List.map_cons, after_cons, after_cons, effects_cons, effects_cons, step_unweighted]
    exact ⟨hafter, by rw [heffects]⟩

/-- A request that names no table is refused on the spot. -/
theorem step_unnamed {table : TableRef} (h : table.name = "") {r : Request}
    (hr : (∃ spec unweight, r = .run table spec unweight) ∨ r = .stats table ∨ r = .columns table)
    (g : Gateway) (now : Nat) (caller : Ticket) :
    g.step now (.request caller r) = (g, [.answer caller (.error .missingTable)]) := by
  rcases hr with ⟨spec, unweight, rfl⟩ | rfl | rfl
  · show g.request now caller (.run table spec unweight) = _
    simp [request, require_of_eq h, Except.bind]
  · show g.request now caller (.stats table) = _
    simp [request, require_of_eq h]
  · exact step_look_of_empty h g now caller

/--
**Every call is accounted for, and none is made twice.** In every run, whatever overlaps in it:

* the calls of the query tool are those of the queries, statistics and listings that were not
  refused, and one for each refresh that has begun, as the cache counts them;
* the calls of the ingest tool are those of the writes that were not refused, in order;
* if no caller of a flush or a shutdown goes away, the calls of the digest tool and those that are
  to come are one for each table of each set that was taken, and when all were launched none are
  to come;
* an error in reply to the call of a request is told to its caller as it is, without another call;
* a query, statistics or columns without a table are refused, without a call and without any change;
* whether weights are wished for changes neither the effects of a run nor the gateway after it.
-/
theorem calls_accounted (ttl cooldown : Nat) (run : Run) :
    let start := empty ttl cooldown
    let g := start.after run
    ((start.callsOf .query run).Perm
        ((asked run).filter (fun c => c.tool = .query) ++ (start.begun run).map infoCall) ∧
      (start.callsOf .query run).length =
        ((asked run).countP fun c => c.tool = .query) + g.columns.stats.fetches) ∧
    start.callsOf .ingest run = (asked run).filter (fun c => c.tool = .ingest) ∧
    (FlushersStay run →
      (start.callsOf .digest run ++ g.toCome.map digestCall).Perm
          ((start.taken run).flatten.map digestCall) ∧
        (g.digests.batches = [] →
          (start.callsOf .digest run).length = ((start.taken run).map List.length).sum)) ∧
    (∀ pre now caller r mid c, run = pre ++ (now, .request caller r) :: mid → r.call? = some c →
      (∀ d ∈ mid, Leaves (start.after pre).nextCall caller d.2) →
      ((start.after pre).step now (.request caller r)).2 = [.call (start.after pre).nextCall c] ∧
        ∀ later e, g.step later (.reply (start.after pre).nextCall (.error e)) =
          (g.close (start.after pre).nextCall, [.answer caller (.error e)])) ∧
    (∀ now caller table r, table.name = "" →
      ((∃ spec unweight, r = .run table spec unweight) ∨ r = .stats table ∨ r = .columns table) →
      g.step now (.request caller r) = (g, [.answer caller (.error .missingTable)])) ∧
    ∀ other : Run, (other.map fun e => (e.1, e.2.unweighted)) =
        (run.map fun e => (e.1, e.2.unweighted)) →
      start.after other = g ∧ start.effects other = start.effects run := by
  intro start g
  refine ⟨⟨perm_query start run, ?_⟩, callsOf_ingest start run, fun hstay => ?_, ?_, ?_, ?_⟩
  · have hlength := (perm_query start run).length_eq
    rw [List.length_append, List.length_map, ← List.countP_eq_length_filter,
      ← fetches_after ttl cooldown run] at hlength
    exact hlength
  · have hperm := perm_digest_toCome ttl cooldown hstay
    refine ⟨hperm, fun hnone => ?_⟩
    have htoCome : g.toCome = [] := by
      unfold toCome
      rw [hnone]
      rfl
    have hlength := hperm.length_eq
    rw [List.length_append, List.length_map, List.length_map, List.length_flatten] at hlength
    rw [← hlength]
    show _ = (start.callsOf .digest run).length + g.toCome.length
    rw [htoCome]
    rfl
  · rintro pre now caller r mid c rfl hcall hmid
    refine ⟨?_, fun later e => step_error_reply ttl cooldown pre mid hcall now later caller e hmid⟩
    obtain ⟨p, -, hrequest⟩ := request_of_call? hcall (start.after pre) now caller
    show ((start.after pre).request now caller r).2 = _
    rw [hrequest]
    rfl
  · intro now caller table r hname hr
    exact step_unnamed hname hr g now caller
  · intro other hother
    obtain ⟨hafter, heffects⟩ := start.run_unweighted run
    obtain ⟨hafter', heffects'⟩ := start.run_unweighted other
    rw [hother] at hafter' heffects'
    exact ⟨hafter'.symm.trans hafter, heffects'.symm.trans heffects⟩

-- The second begin of a refresh, the error and the request without a table call no tool.
example :
    (empty 0 5).callsMade
        [(0, .request 0 (.stats (.bare "t"))), (0, .request 1 (.columns (.bare "t"))),
          (0, .begin "t"), (0, .begin "t"), (2, .reply 0 (.error .missingTable)),
          (2, .request 2 (.stats (.bare "")))] =
      [⟨.query, statsArguments "t", []⟩, infoCall "t"] := by
  decide

end Gateway

end StoreGateway
