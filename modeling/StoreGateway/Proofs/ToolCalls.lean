import StoreGateway.Proofs.Batches
import StoreGateway.Proofs.CacheMoves

/-!
# What the tools are called for

A step calls at most one tool: for its request, for the refresh that begins, or for the first table
of the batch that begins or goes on. So every call of a run is owed to something that was asked for,
to a refresh or to a batch, and none is made a second time.

* `Request.call?`, `Request.call?_cases`: the call that a request makes by itself, unless it is
  refused;
* `Gateway.callsMade`, `Gateway.asked`, `Gateway.begun`, `Gateway.launched`: the calls of a run, and
  what they are made for;
* `Gateway.calls_of_step`: the call of a step;
* `Gateway.perm_query`, `Gateway.callsOf_ingest`, `Gateway.perm_digest`: the calls of each tool;
* `Gateway.fetches_after`: the cache counts the refreshes that have begun.
-/

namespace StoreGateway

open Catalog Command Digest Query

/-- The call that is made. -/
def Effect.call? : Effect → Option Call
  | .call _ c => some c
  | _ => none

/-- The call that a request makes by itself; none when it is refused or needs no tool. -/
def Request.call? : Request → Option Call
  | .run table spec _ =>
    if table.name = "" then none
    else (viewArguments table.name spec).toOption.map fun arguments => ⟨.query, arguments, []⟩
  | .stats table => if table.name = "" then none else some ⟨.query, statsArguments table.name, []⟩
  | .tables => some ⟨.query, tablesArguments, []⟩
  | .add dataset subset samples =>
    if dataset = "" ∨ subset = "" then none
    else some ⟨.ingest, tableArguments (Gateway.tableName dataset subset), samples⟩
  | .columns _ | .clear _ | .mark _ | .flush | .shutdown => none

/-- The requests that make a call, each with the call and with what it was not refused for. -/
theorem Request.call?_cases {r : Request} {c : Call} (h : r.call? = some c) :
    (∃ table spec unweight arguments, r = .run table spec unweight ∧ table.name ≠ "" ∧
      viewArguments table.name spec = .ok arguments ∧ c = ⟨.query, arguments, []⟩) ∨
    (∃ table, r = .stats table ∧ table.name ≠ "" ∧
      c = ⟨.query, statsArguments table.name, []⟩) ∨
    (r = .tables ∧ c = ⟨.query, tablesArguments, []⟩) ∨
    ∃ dataset subset samples, r = .add dataset subset samples ∧ ¬(dataset = "" ∨ subset = "") ∧
      c = ⟨.ingest, tableArguments (Gateway.tableName dataset subset), samples⟩ := by
  cases r with
  | run table spec unweight =>
    obtain ⟨hname, h⟩ := Option.ite_none_left_eq_some.1 h
    obtain ⟨arguments, hview, rfl⟩ := Option.map_eq_some_iff.1 h
    cases hargs : viewArguments table.name spec with
    | error e =>
      rw [hargs] at hview
      cases hview
    | ok as =>
      rw [hargs] at hview
      cases hview
      exact .inl ⟨table, spec, unweight, arguments, rfl, hname, hargs, rfl⟩
  | stats table =>
    obtain ⟨hname, ⟨⟩⟩ := Option.ite_none_left_eq_some.1 h
    exact .inr (.inl ⟨table, rfl, hname, rfl⟩)
  | tables =>
    cases h
    exact .inr (.inr (.inl ⟨rfl, rfl⟩))
  | add dataset subset samples =>
    obtain ⟨hnamed, ⟨⟩⟩ := Option.ite_none_left_eq_some.1 h
    exact .inr (.inr (.inr ⟨dataset, subset, samples, rfl, hnamed, rfl⟩))
  | columns _ | clear _ | mark _ | flush | shutdown => cases h

def Event.call? : Event → Option Call
  | .request _ r => r.call?
  | _ => none

/-- The call that loads the columns of a table. -/
def infoCall (table : String) : Call :=
  ⟨.query, infoArguments table, []⟩

/-- The call that digests a table. -/
def digestCall (table : String) : Call :=
  ⟨.digest, tableArguments table, []⟩

namespace Gateway

/-- The calls that a run makes, in order. -/
def callsMade (g : Gateway) (run : Run) : List Call :=
  (g.effects run).filterMap Effect.call?

def callsOf (tool : Tool) (g : Gateway) (run : Run) : List Call :=
  (g.callsMade run).filter fun c => c.tool = tool

/-- The calls that the requests of a run make by themselves. -/
def asked (run : Run) : List Call :=
  run.filterMap fun e => e.2.call?

/-- The table whose refresh an event begins. -/
def begins (g : Gateway) (_ : Nat) : Event → List String
  | .begin table => if table ∈ g.columns.queued then [table] else []
  | _ => []

/-- The tables whose refreshes begin in a run. -/
def begun (g : Gateway) (run : Run) : List String :=
  g.gather begins run

/-- The table that an event launches, the first of a batch. -/
def launches (g : Gateway) (_ : Nat) (e : Event) : List String :=
  ((g.schedulerMove? e).bind g.digests.batch?).elim [] fun b => b.left.take 1

/-- The tables that a run launches. -/
def launched (g : Gateway) (run : Run) : List String :=
  g.gather launches run

/-! ## The call of a step -/

theorem calls_batchDone (owner : Owner) (size : Nat) :
    (batchDone owner size).filterMap Effect.call? = [] := by
  cases owner <;> rfl

theorem calls_goOn (g : Gateway) (b : Batch) :
    (g.goOn b).2.filterMap Effect.call? = (b.left.take 1).map digestCall := by
  cases hleft : b.left with
  | nil =>
    rw [goOn_of_nil hleft]
    exact calls_batchDone b.owner b.size
  | cons table rest =>
    rw [goOn_of_left hleft]
    rfl

theorem calls_mark (g : Gateway) (now : Nat) (table : String) :
    (g.mark now table).2.filterMap Effect.call? = [] := by
  rw [mark_effects]
  cases (g.digests.mark now table).1 <;> rfl

theorem calls_lookup (g : Gateway) (now : Nat) (caller : Ticket) (table : String) :
    (g.lookup now caller table).2.filterMap Effect.call? = [] := by
  rw [lookup_effects]
  cases (g.columns.lookup now table caller).1.queues <;>
    cases (g.columns.lookup now table caller).1.columns <;> rfl

theorem calls_flush (g : Gateway) (owner : Owner) :
    (g.flush owner).2.filterMap Effect.call? =
      ((g.digests.flush owner).1.elim [] fun b => b.left.take 1).map digestCall := by
  unfold flush
  split
  · next b s h =>
    rw [calls_goOn, h]
    rfl
  · next s h =>
    rw [calls_batchDone, h]
    rfl

/-- A request makes its own call, and a flush the first of its batch. -/
theorem calls_request (g : Gateway) (now : Nat) (caller : Ticket) (r : Request) :
    (g.request now caller r).2.filterMap Effect.call? =
      r.call?.toList ++ (g.launches now (.request caller r)).map digestCall := by
  cases r with
  | run table spec unweight =>
    by_cases hname : table.name = ""
    · simp [request, Request.call?, require_of_eq hname, hname, Except.bind, Effect.call?,
        launches, schedulerMove?]
    · cases hview : viewArguments table.name spec <;>
        simp [request, Request.call?, require_of_ne hname, hname, hview, Except.bind,
          Effect.call?, Except.toOption, launches, schedulerMove?]
  | columns table =>
    by_cases hname : table.name = ""
    · simp [request, require_of_eq hname, Effect.call?, Request.call?, launches, schedulerMove?]
    · simp [request, require_of_ne hname, calls_lookup, Request.call?, launches, schedulerMove?]
  | stats table =>
    by_cases hname : table.name = ""
    · simp [request, Request.call?, require_of_eq hname, hname, Effect.call?, launches,
        schedulerMove?]
    · simp [request, Request.call?, require_of_ne hname, hname, Effect.call?, launches,
        schedulerMove?]
  | tables => rfl
  | add dataset subset samples =>
    by_cases h : dataset = "" ∨ subset = ""
    · simp [request, Request.call?, h, Effect.call?, launches, schedulerMove?]
    · simp [request, Request.call?, h, Effect.call?, launches, schedulerMove?]
  | clear table => rfl
  | mark table =>
    show ((g.mark now table).2 ++ [_]).filterMap Effect.call? = []
    rw [List.filterMap_append, calls_mark]
    rfl
  | flush => exact calls_flush g (.flush caller)
  | shutdown => exact calls_flush g (.shutdown caller)

/-- After a reply a tool is called only for a batch that goes on. -/
theorem calls_resume (g : Gateway) (now : Nat) (outcome : Except Error Json) (p : Purpose) :
    (g.resume now outcome p).2.filterMap Effect.call? =
      (((replyMark? outcome p).bind g.digests.batch?).elim [] fun b => b.left.take 1).map
        digestCall := by
  cases p with
  | add caller table =>
    cases outcome with
    | error e => rfl
    | ok v =>
      show ((g.mark now table).2 ++ [_]).filterMap Effect.call? = []
      rw [List.filterMap_append, calls_mark]
      rfl
  | refresh table =>
    show ((g.columns.finish now table outcome).1.map _).filterMap Effect.call? = []
    rw [List.filterMap_map]
    exact List.filterMap_eq_nil_iff.2 fun _ _ => rfl
  | digest batch owner =>
    show _ = ((g.digests.launched batch).1.elim [] fun b => b.left.take 1).map digestCall
    unfold resume
    dsimp only
    split
    · next b s h =>
      rw [calls_goOn, h]
      rfl
    · next s h =>
      rw [h]
      rfl
  | run _ _ | stats _ | tables _ => rfl

/-- **A step makes the call of its request, of the refresh that begins, or of its batch.** -/
theorem calls_of_step (g : Gateway) (now : Nat) (e : Event) :
    (g.step now e).2.filterMap Effect.call? =
      e.call?.toList ++ (g.begins now e).map infoCall ++ (g.launches now e).map digestCall := by
  cases e with
  | request caller r =>
    show _ = r.call?.toList ++ [] ++ _
    rw [List.append_nil]
    exact calls_request g now caller r
  | begin table =>
    show (g.beginRefresh table).2.filterMap Effect.call? =
      (if table ∈ g.columns.queued then [table] else []).map infoCall ++ []
    unfold beginRefresh
    split <;> rfl
  | reply call outcome =>
    show _ = (g.launches now (.reply call outcome)).map digestCall
    unfold launches
    cases hp : g.purpose? call with
    | none =>
      rw [step_reply_of_none hp]
      simp [schedulerMove?, hp]
    | some p =>
      rw [step_reply hp, calls_resume]
      simp [schedulerMove?, hp, close]
  | expire generation =>
    show (g.expire generation).2.filterMap Effect.call? =
      ((g.digests.expire generation).1.elim [] fun b => b.left.take 1).map digestCall
    unfold expire
    split
    · next b s h =>
      rw [calls_goOn, h]
      rfl
    · next s h =>
      rw [h]
      rfl
  | notice generation => rfl
  | drop caller => rfl

/-! ## The calls of a run -/

theorem callsMade_concat (g : Gateway) (run : Run) (now : Nat) (e : Event) :
    g.callsMade (run ++ [(now, e)]) =
      g.callsMade run ++ (e.call?.toList ++ ((g.after run).begins now e).map infoCall ++
        ((g.after run).launches now e).map digestCall) := by
  unfold callsMade
  rw [effects_concat, List.filterMap_append, calls_of_step]

theorem asked_concat (run : Run) (now : Nat) (e : Event) :
    asked (run ++ [(now, e)]) = asked run ++ e.call?.toList := by
  unfold asked
  rw [List.filterMap_append]
  cases h : e.call? <;> simp [h]

/-- A write that is not refused calls the ingest tool, and any other request the query tool. -/
theorem tool_of_call? {r : Request} {c : Call} (h : r.call? = some c) :
    c.tool = .query ∨ c.tool = .ingest ∧ ∃ dataset subset samples,
      r = .add dataset subset samples ∧ ¬(dataset = "" ∨ subset = "") := by
  rcases Request.call?_cases h with ⟨_, _, _, _, -, -, -, rfl⟩ | ⟨_, -, -, rfl⟩ | ⟨-, rfl⟩ |
    ⟨dataset, subset, samples, hr, hnamed, rfl⟩
  · exact .inl rfl
  · exact .inl rfl
  · exact .inl rfl
  · exact .inr ⟨rfl, dataset, subset, samples, hr, hnamed⟩

theorem filter_map_infoCall (tool : Tool) (tables : List String) :
    (tables.map infoCall).filter (fun c => c.tool = tool) =
      if tool = .query then tables.map infoCall else [] := by
  cases tool <;> simp [infoCall]

theorem filter_map_digestCall (tool : Tool) (tables : List String) :
    (tables.map digestCall).filter (fun c => c.tool = tool) =
      if tool = .digest then tables.map digestCall else [] := by
  cases tool <;> simp [digestCall]

theorem filter_digest_asked (run : Run) : (asked run).filter (fun c => c.tool = .digest) = [] := by
  refine List.filter_eq_nil_iff.2 fun c hc => ?_
  obtain ⟨⟨now, e⟩, -, hcall⟩ := List.mem_filterMap.1 hc
  cases e with
  | request caller r =>
    rcases tool_of_call? (r := r) hcall with htool | ⟨htool, -⟩ <;> simp [htool]
  | begin _ | reply _ _ | expire _ | notice _ | drop _ => cases hcall

/-- The calls of a run are those of its requests, of its refreshes and of its batches. -/
theorem perm_callsMade (g : Gateway) (run : Run) :
    (g.callsMade run).Perm
      (asked run ++ (g.begun run).map infoCall ++ (g.launched run).map digestCall) := by
  induction run using List.reverseRecOn with
  | nil => exact .nil
  | append_singleton run e ih =>
    obtain ⟨now, e⟩ := e
    unfold begun launched at ih ⊢
    rw [callsMade_concat, asked_concat, gather_concat, gather_concat, List.map_append,
      List.map_append]
    refine (ih.append_right _).trans ?_
    rw [List.perm_iff_count]
    intro c
    simp only [List.count_append]
    omega

/-- The query tool is called once for each query, and once for each refresh. -/
theorem perm_query (g : Gateway) (run : Run) :
    (g.callsOf .query run).Perm
      ((asked run).filter (fun c => c.tool = .query) ++ (g.begun run).map infoCall) := by
  have h := (g.perm_callsMade run).filter fun c => c.tool = .query
  rw [List.filter_append, List.filter_append, filter_map_infoCall, filter_map_digestCall,
    if_pos rfl, if_neg (by decide), List.append_nil] at h
  exact h

/-- The digest tool is called once for each table that is launched. -/
theorem perm_digest (g : Gateway) (run : Run) :
    (g.callsOf .digest run).Perm ((g.launched run).map digestCall) := by
  have h := (g.perm_callsMade run).filter fun c => c.tool = .digest
  rw [List.filter_append, List.filter_append, filter_map_infoCall, filter_map_digestCall,
    filter_digest_asked, if_pos rfl, if_neg (by decide), List.append_nil, List.nil_append] at h
  exact h

/-- The ingest tool is called once for each write, in order. -/
theorem callsOf_ingest (g : Gateway) (run : Run) :
    g.callsOf .ingest run = (asked run).filter fun c => c.tool = .ingest := by
  unfold callsOf
  induction run using List.reverseRecOn with
  | nil => rfl
  | append_singleton run e ih =>
    obtain ⟨now, e⟩ := e
    rw [callsMade_concat, asked_concat, List.filter_append, List.filter_append, List.filter_append,
      List.filter_append, ih, filter_map_infoCall, filter_map_digestCall, if_neg (by decide),
      if_neg (by decide), List.append_nil, List.append_nil]

/-! ## Refreshes -/

theorem fetches_lookup (c : ColumnCache) (now : Nat) (table : String) (caller : Ticket) :
    (c.lookup now table caller).2.stats.fetches = c.stats.fetches := by
  unfold ColumnCache.lookup
  split
  · split
    · rfl
    · dsimp only
      split <;> rfl
  · split <;> rfl

theorem fetches_finish (c : ColumnCache) (now : Nat) (table : String) (reply : Except Error Json) :
    (c.finish now table reply).2.stats.fetches = c.stats.fetches := by
  unfold ColumnCache.finish
  split <;> rfl

/-- The cache counts a refresh where it begins. -/
theorem fetches_step (g : Gateway) (now : Nat) (e : Event) :
    (g.step now e).1.columns.stats.fetches =
      g.columns.stats.fetches + (g.begins now e).length := by
  rw [step_columns]
  cases e with
  | request caller r =>
    cases r with
    | columns table =>
      by_cases h : table.name = ""
      · simp [cacheMove?, h, begins]
      · simp [cacheMove?, h, begins, ColumnCache.move, fetches_lookup]
    | run _ _ _ | stats _ | tables | add _ _ _ | clear _ | mark _ | flush | shutdown => rfl
  | begin table =>
    show (g.columns.begin table).stats.fetches =
      g.columns.stats.fetches + (if table ∈ g.columns.queued then [table] else []).length
    unfold ColumnCache.begin
    split <;> rfl
  | reply call outcome =>
    cases hp : g.purpose? call with
    | none => simp [cacheMove?, hp, begins]
    | some p =>
      cases p with
      | refresh table => simp [cacheMove?, hp, replyMove?, begins, ColumnCache.move, fetches_finish]
      | run _ _ | stats _ | tables _ | add _ _ | digest _ _ =>
        simp [cacheMove?, hp, replyMove?, begins]
  | expire _ | notice _ | drop _ => rfl

theorem fetches_after (ttl cooldown : Nat) (run : Run) :
    ((empty ttl cooldown).after run).columns.stats.fetches =
      ((empty ttl cooldown).begun run).length := by
  induction run using List.reverseRecOn with
  | nil => rfl
  | append_singleton run e ih =>
    obtain ⟨now, e⟩ := e
    unfold begun at ih ⊢
    rw [after_concat, fetches_step, gather_concat, List.length_append, ih]

end Gateway

end StoreGateway
