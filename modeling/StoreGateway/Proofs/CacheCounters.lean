import StoreGateway.Proofs.TablesApart

/-!
# The counters of the cache balance

Each look-up counts once. A refresh is queued by a look-up that finds nothing at all, or by one that
finds only stale columns, and it counts when it begins. Whoever finds no columns waits, and whoever
waits is told by the end of a refresh.

* `Fields.total`: the sum of the sizes of all values, with its change by setting and removing;
* `ColumnCache.awaiting`: how many callers wait, for whatever table;
* `Event.looksUp`, `Gateway.revives`, `Gateway.delivers`: look-ups, those that find stale columns
  and no refresh in flight, and what refreshes tell those who have waited;
* `Gateway.counters_balance`: the counters against these, in every run.
-/

namespace StoreGateway

open Catalog Command Digest Query

/-! ## Sums over fields -/

namespace Fields

variable {α : Type}

/-- The sum of the sizes of all values. -/
def total (size : α → Nat) : Fields α → Nat
  | [] => 0
  | f :: fs => size f.2 + total size fs

theorem total_cons (size : α → Nat) (f : String × α) (fs : Fields α) :
    total size (f :: fs) = size f.2 + total size fs := rfl

theorem total_insert {fs : Fields α} (h : fs.Ascending) (size : α → Nat) (name : String) (v : α) :
    total size (fs.insert name v) + (fs.get? name).elim 0 size = total size fs + size v := by
  induction fs with
  | nil => simp [insert, total]
  | cons f fs ih =>
    obtain ⟨k, w⟩ := f
    obtain ⟨hlt, hfs⟩ := List.pairwise_cons.1 h
    unfold insert
    by_cases heq : name = k
    · have hget : get? ((k, w) :: fs) name = some w := if_pos heq.symm
      rw [if_pos heq, hget, total_cons, total_cons]
      show size v + _ + size w = size w + _ + size v
      omega
    · have hget : get? ((k, w) :: fs) name = get? fs name := if_neg (Ne.symm heq)
      rw [if_neg heq, hget]
      split
      · next hbefore =>
        have hnone : get? fs name = none :=
          get?_eq_none_of_lt fun g hg => String.lt_trans hbefore (hlt g hg)
        rw [hnone, total_cons]
        show size v + _ + 0 = _ + size v
        omega
      · have hrest := ih hfs
        rw [total_cons, total_cons]
        omega

theorem total_erase {fs : Fields α} (h : fs.Ascending) (size : α → Nat) (name : String) :
    total size (fs.erase name) + (fs.get? name).elim 0 size = total size fs := by
  induction fs with
  | nil => rfl
  | cons f fs ih =>
    obtain ⟨k, w⟩ := f
    obtain ⟨hlt, hfs⟩ := List.pairwise_cons.1 h
    have hrest := ih hfs
    by_cases hname : k = name
    · have hget : get? ((k, w) :: fs) name = some w := if_pos hname
      have hnone : get? fs name = none := get?_eq_none_of_lt (hname ▸ hlt)
      have herase : erase ((k, w) :: fs) name = erase fs name := by simp [erase, hname]
      rw [hnone] at hrest
      rw [herase, hget, total_cons, ← hrest]
      show _ + size w = size w + (_ + 0)
      omega
    · have hget : get? ((k, w) :: fs) name = get? fs name := if_neg hname
      have herase : erase ((k, w) :: fs) name = (k, w) :: erase fs name := by simp [erase, hname]
      rw [herase, hget, total_cons, total_cons]
      omega

end Fields

/-! ## Moves of the cache -/

namespace Catalog

/-- How many look-ups were counted. -/
def CacheStats.lookUps (s : CacheStats) : Nat :=
  s.hits + s.staleHits + s.misses + s.coalesced

namespace ColumnCache

/-- How many callers wait, for whatever table. -/
def awaiting (c : ColumnCache) : Nat :=
  c.waiting.total List.length

/-- What a look-up finds, and what that counts as. -/
theorem finding_cases (c : ColumnCache) (now : Nat) (table : String) :
    (∃ e, c.entries.get? table = some e) ∧
        (c.finding now table = .hits ∨ c.finding now table = .staleHits) ∨
      c.entries.get? table = none ∧
        (c.finding now table = .coalesced ∧ c.isRefreshing table = true ∨
          c.finding now table = .misses ∧ c.isRefreshing table = false) := by
  cases h : c.entries.get? table with
  | some e =>
    refine .inl ⟨⟨e, rfl⟩, ?_⟩
    rw [finding_of_some h]
    cases c.fresh now e with
    | true => exact .inl rfl
    | false => exact .inr rfl
  | none =>
    refine .inr ⟨rfl, ?_⟩
    rw [finding_of_none h]
    cases c.isRefreshing table with
    | true => exact .inl ⟨rfl, rfl⟩
    | false => exact .inr ⟨rfl, rfl⟩

section
variable (c : ColumnCache) (now : Nat) (table : String) (caller : Ticket)

theorem lookUps_lookup :
    (c.lookup now table caller).2.stats.lookUps = c.stats.lookUps + 1 := by
  rw [lookup_eq]
  rcases c.finding_cases now table with ⟨-, h | h⟩ | ⟨-, ⟨h, -⟩ | ⟨h, -⟩⟩ <;>
    simp only [h, CacheStats.bump, CacheStats.lookUps] <;> omega

/-- A look-up queues a refresh for a miss, and for stale columns unless there is one. -/
theorem queued_lookup :
    (c.lookup now table caller).2.stats.fetches + (c.lookup now table caller).2.queued.length +
        c.stats.misses =
      c.stats.fetches + c.queued.length + (c.lookup now table caller).2.stats.misses +
        if c.finding now table = .staleHits ∧ c.isRefreshing table = false then 1 else 0 := by
  rw [lookup_eq]
  unfold renews
  rcases c.finding_cases now table with ⟨-, h | h⟩ | ⟨-, ⟨h, hr⟩ | ⟨h, hr⟩⟩
  · simp [h, CacheStats.bump]
  · cases hr : c.isRefreshing table <;> simp [h, CacheStats.bump]
    omega
  · simp [h, hr, CacheStats.bump]
  · simp [h, hr, CacheStats.bump]
    omega

theorem length_waiters :
    (c.waiting.get? table).elim 0 List.length = (c.waiters table).length := by
  unfold waiters
  cases c.waiting.get? table <;> rfl

theorem total_joined {c : ColumnCache} (h : c.Ordered) (now : Nat) (table : String)
    (caller : Ticket) :
    (c.joined now table caller).total List.length =
      c.awaiting + if c.entries.get? table = none then 1 else 0 := by
  unfold joined awaiting
  split
  · have htotal := Fields.total_insert h.waiting List.length table (c.waiters table ++ [caller])
    rw [length_waiters, List.length_append, List.length_singleton] at htotal
    omega
  · split
    · next hrenews =>
      -- Nobody waits yet for a refresh that is about to be queued.
      have hidle : c.isRefreshing table = false := by
        have hboth := (Bool.and_eq_true _ _).mp hrenews
        simpa using hboth.2
      have htotal := Fields.total_insert h.waiting List.length table []
      rw [length_waiters, waiters_of_idle hidle] at htotal
      simpa using htotal
    · rfl

/-- A miss or a look-up that joins others makes its caller wait, and no other look-up does. -/
theorem awaiting_lookup {c : ColumnCache} (h : c.Ordered) (now : Nat) (table : String)
    (caller : Ticket) :
    (c.lookup now table caller).2.stats.misses + (c.lookup now table caller).2.stats.coalesced +
        c.awaiting =
      c.stats.misses + c.stats.coalesced + (c.lookup now table caller).2.awaiting := by
  have hjoined := total_joined h now table caller
  rw [lookup_eq]
  show _ = _ + (c.joined now table caller).total List.length
  rw [hjoined]
  rcases c.finding_cases now table with ⟨⟨e, he⟩, hf | hf⟩ | ⟨he, ⟨hf, -⟩ | ⟨hf, -⟩⟩ <;>
    simp [he, hf, CacheStats.bump] <;> omega

end

theorem awaiting_finish {c : ColumnCache} (h : c.Ordered) {table : String}
    (hmem : table ∈ c.loading) (now : Nat) (reply : Except Error Json) :
    (c.finish now table reply).2.awaiting + (c.waiters table).length = c.awaiting := by
  have htotal := Fields.total_erase h.waiting List.length table
  rw [finish_of_mem hmem, ← length_waiters]
  exact htotal

theorem stats_finish (c : ColumnCache) (now : Nat) (table : String) (reply : Except Error Json) :
    (c.finish now table reply).2.stats = c.stats :=
  stats_move c now (.finish table reply)

/-- The begin of a refresh counts as that and as nothing else. -/
theorem stats_begin (c : ColumnCache) (table : String) :
    (c.begin table).stats = { c.stats with fetches := (c.begin table).stats.fetches } := by
  unfold begin
  split <;> rfl

theorem waiting_begin (c : ColumnCache) (table : String) :
    (c.begin table).waiting = c.waiting := by
  unfold begin
  split <;> rfl

/-- A refresh that begins is queued no longer, and counts. -/
theorem queued_begin (c : ColumnCache) (table : String) :
    (c.begin table).stats.fetches + (c.begin table).queued.length =
      c.stats.fetches + c.queued.length := by
  unfold begin
  split
  · next hmem =>
    have hpos : 0 < c.queued.length := List.length_pos_of_mem hmem
    show c.stats.fetches + 1 + (c.queued.erase table).length = _
    rw [List.length_erase_of_mem hmem]
    omega
  · rfl

end ColumnCache

end Catalog

/-! ## Steps -/

/-- A look-up of a table that has a name. -/
def Event.looksUp : Event → Bool
  | .request _ (.columns t) => decide (t.name ≠ "")
  | _ => false

namespace Gateway

/-- The table of a look-up that finds stale columns and no refresh in flight. -/
def revives (g : Gateway) (now : Nat) : Event → List String
  | .request _ (.columns t) =>
    if t.name ≠ "" ∧ g.columns.finding now t.name = .staleHits ∧ g.inFlight t.name = 0 then [t.name]
    else []
  | _ => []

/-- What a refresh that ends tells those who have waited for it, with whom it tells it. -/
def delivers (g : Gateway) (now : Nat) : Event → List (Ticket × Except Error Answer)
  | .reply call outcome =>
    match g.purpose? call with
    | some (.refresh _) => (g.step now (.reply call outcome)).2.filterMap Effect.answer?
    | _ => []
  | _ => []

theorem revives_look (g : Gateway) (now : Nat) (caller : Ticket) (t : TableRef) :
    g.revives now (.request caller (.columns t)) =
      if t.name ≠ "" ∧ g.columns.finding now t.name = .staleHits ∧ g.inFlight t.name = 0 then
        [t.name]
      else [] := rfl

theorem delivers_reply (g : Gateway) (now call : Nat) (outcome : Except Error Json) :
    g.delivers now (.reply call outcome) =
      match g.purpose? call with
      | some (.refresh _) => (g.step now (.reply call outcome)).2.filterMap Effect.answer?
      | _ => [] := rfl

/-- An event of which the counters, the queue and the callers who wait know nothing. -/
structure Unseen (g : Gateway) (now : Nat) (e : Event) : Prop where
  looksUp : e.looksUp = false
  revives : g.revives now e = []
  delivers : g.delivers now e = []
  stats : (g.step now e).1.columns.stats = g.columns.stats
  queued : (g.step now e).1.columns.queued = g.columns.queued
  waiting : (g.step now e).1.columns.waiting = g.columns.waiting

/-- A look-up, the begin and the end of a refresh are the only events that the counters see. -/
theorem unseen_or (g : Gateway) (now : Nat) (e : Event) :
    (∃ caller t, e = .request caller (.columns t) ∧ t.name ≠ "") ∨
      (∃ table, e = .begin table) ∨
      (∃ call outcome table, e = .reply call outcome ∧ g.purpose? call = some (.refresh table)) ∨
      g.Unseen now e := by
  cases e with
  | request caller r =>
    cases r with
    | columns t =>
      by_cases hname : t.name = ""
      · have hstep := step_look_of_empty hname g now caller
        exact .inr (.inr (.inr ⟨by simp [Event.looksUp, hname], by simp [revives, hname], rfl,
          by rw [hstep], by rw [hstep], by rw [hstep]⟩))
      · exact .inl ⟨caller, t, rfl, hname⟩
    | clear t => exact .inr (.inr (.inr ⟨rfl, rfl, rfl, rfl, rfl, rfl⟩))
    | run _ _ _ | stats _ | tables | add _ _ _ | mark _ | flush | shutdown =>
      exact .inr (.inr (.inr ⟨rfl, rfl, rfl, by rw [step_columns]; rfl, by rw [step_columns]; rfl,
        by rw [step_columns]; rfl⟩))
  | begin table => exact .inr (.inl ⟨table, rfl⟩)
  | reply call outcome =>
    by_cases hp : ∃ table, g.purpose? call = some (.refresh table)
    · obtain ⟨table, hp⟩ := hp
      exact .inr (.inr (.inl ⟨call, outcome, table, rfl, hp⟩))
    · have hnone : g.cacheMove? (.reply call outcome) = none ∧
          g.delivers now (.reply call outcome) = [] := by
        rw [delivers_reply]
        cases hq : g.purpose? call with
        | none => simp [cacheMove?, hq]
        | some p =>
          cases p with
          | refresh table => exact absurd ⟨table, hq⟩ hp
          | run _ _ | stats _ | tables _ | add _ _ | digest _ _ =>
            simp [cacheMove?, hq, replyMove?]
      have hcolumns : (g.step now (.reply call outcome)).1.columns = g.columns := by
        rw [step_columns, hnone.1]
        rfl
      exact .inr (.inr (.inr ⟨rfl, rfl, hnone.2, by rw [hcolumns], by rw [hcolumns],
        by rw [hcolumns]⟩))
  | expire _ | notice _ | drop _ =>
    exact .inr (.inr (.inr ⟨rfl, rfl, rfl, by rw [step_columns]; rfl, by rw [step_columns]; rfl,
      by rw [step_columns]; rfl⟩))

theorem step_begin_columns (g : Gateway) (now : Nat) (table : String) :
    (g.step now (.begin table)).1.columns = g.columns.begin table := by
  rw [step_columns]
  rfl

theorem step_look_columns {t : TableRef} (h : t.name ≠ "") (g : Gateway) (now : Nat)
    (caller : Ticket) :
    (g.step now (.request caller (.columns t))).1.columns =
      (g.columns.lookup now t.name caller).2 := by
  rw [step_look h, lookup_columns]

/-- A look-up counts once, and nothing else counts as one. -/
theorem lookUps_step (g : Gateway) (now : Nat) (e : Event) :
    (g.step now e).1.columns.stats.lookUps =
      g.columns.stats.lookUps + if e.looksUp then 1 else 0 := by
  rcases g.unseen_or now e with ⟨caller, t, rfl, hname⟩ | ⟨table, rfl⟩ |
    ⟨call, outcome, table, rfl, hp⟩ | hunseen
  · have hlooks : (Event.request caller (.columns t)).looksUp = true := by
      simp [Event.looksUp, hname]
    rw [step_look_columns hname, ColumnCache.lookUps_lookup, hlooks, if_pos rfl]
  · rw [step_begin_columns, ColumnCache.stats_begin]
    rfl
  · rw [columns_of_ending hp, ColumnCache.stats_finish]
    rfl
  · rw [hunseen.stats, hunseen.looksUp]
    rfl

/-- What is queued or has begun grows by the misses, and by the stale look-ups that find no
refresh. -/
theorem queued_step {g : Gateway} (hg : g.Refreshes) (now : Nat) (e : Event) :
    (g.step now e).1.columns.stats.fetches + (g.step now e).1.columns.queued.length +
        g.columns.stats.misses =
      g.columns.stats.fetches + g.columns.queued.length + (g.step now e).1.columns.stats.misses +
        (g.revives now e).length := by
  rcases g.unseen_or now e with ⟨caller, t, rfl, hname⟩ | ⟨table, rfl⟩ |
    ⟨call, outcome, table, rfl, hp⟩ | hunseen
  · have hrevives : (g.revives now (.request caller (.columns t))).length =
        if g.columns.finding now t.name = .staleHits ∧ g.columns.isRefreshing t.name = false then 1
        else 0 := by
      simp only [revives_look, inFlight_eq_zero_iff hg]
      split
      · next h =>
        rw [if_pos h.2]
        rfl
      · next h =>
        rw [if_neg fun h' => h ⟨hname, h'⟩]
        rfl
    rw [step_look_columns hname, hrevives]
    exact ColumnCache.queued_lookup g.columns now t.name caller
  · have hmisses : (g.columns.begin table).stats.misses = g.columns.stats.misses := by
      rw [ColumnCache.stats_begin]
    have hqueued := ColumnCache.queued_begin g.columns table
    rw [step_begin_columns, hmisses]
    show _ = _ + 0
    omega
  · rw [columns_of_ending hp, ColumnCache.finish_of_mem (hg.mem_loading hp)]
    rfl
  · rw [hunseen.stats, hunseen.queued, hunseen.revives]
    rfl

/-- Who has missed or joined others was told, or waits. -/
theorem awaiting_step {g : Gateway} (hg : g.Refreshes) (hordered : g.columns.Ordered) (now : Nat)
    (e : Event) :
    (g.step now e).1.columns.stats.misses + (g.step now e).1.columns.stats.coalesced +
        g.columns.awaiting =
      g.columns.stats.misses + g.columns.stats.coalesced + (g.step now e).1.columns.awaiting +
        (g.delivers now e).length := by
  rcases g.unseen_or now e with ⟨caller, t, rfl, hname⟩ | ⟨table, rfl⟩ |
    ⟨call, outcome, table, rfl, hp⟩ | hunseen
  · rw [step_look_columns hname]
    exact ColumnCache.awaiting_lookup hordered now t.name caller
  · unfold ColumnCache.awaiting
    rw [step_begin_columns, ColumnCache.stats_begin, ColumnCache.waiting_begin]
    rfl
  · have hdelivers : (g.delivers now (.reply call outcome)).length =
        (g.columns.waiters table).length := by
      have heffects := effects_of_ending hg hp now outcome
      rw [delivers_reply, hp]
      dsimp only
      rw [heffects, List.filterMap_map]
      simp [Effect.answer?, Function.comp_def]
    have hloading := hg.mem_loading hp
    have hawaiting := ColumnCache.awaiting_finish hordered hloading now outcome
    rw [columns_of_ending hp, hdelivers, ColumnCache.stats_finish]
    show g.columns.stats.misses + g.columns.stats.coalesced + _ = _
    omega
  · have hawaiting : (g.step now e).1.columns.awaiting = g.columns.awaiting := by
      unfold ColumnCache.awaiting
      rw [hunseen.waiting]
    rw [hunseen.stats, hawaiting, hunseen.delivers]
    rfl

/-- Who revives a refresh has found stale columns. -/
theorem revives_step (g : Gateway) (now : Nat) (e : Event) :
    g.columns.stats.staleHits + (g.revives now e).length ≤
      (g.step now e).1.columns.stats.staleHits := by
  rcases g.unseen_or now e with ⟨caller, t, rfl, hname⟩ | ⟨table, rfl⟩ |
    ⟨call, outcome, table, rfl, hp⟩ | hunseen
  · rw [step_look_columns hname, ColumnCache.lookup_eq, revives_look]
    split
    · next h => simp [h.2.1, CacheStats.bump]
    · cases g.columns.finding now t.name <;> simp [CacheStats.bump]
  · rw [step_begin_columns, ColumnCache.stats_begin]
    exact Nat.le_refl _
  · rw [columns_of_ending hp, ColumnCache.stats_finish]
    exact Nat.le_refl _
  · rw [hunseen.stats, hunseen.revives]
    exact Nat.le_refl _

/-! ## Runs -/

section
variable (ttl cooldown : Nat) (run : Run)

theorem lookUps_after :
    ((empty ttl cooldown).after run).columns.stats.lookUps =
      run.countP fun e => e.2.looksUp := by
  induction run using List.reverseRecOn with
  | nil => rfl
  | append_singleton run e ih =>
    rw [after_concat, lookUps_step, ih, List.countP_append, List.countP_singleton]

theorem queued_after :
    ((empty ttl cooldown).after run).columns.stats.fetches +
        ((empty ttl cooldown).after run).columns.queued.length =
      ((empty ttl cooldown).after run).columns.stats.misses +
        ((empty ttl cooldown).gather revives run).length := by
  induction run using List.reverseRecOn with
  | nil => rfl
  | append_singleton run e ih =>
    have hrefreshes := (refreshes_empty ttl cooldown).after run
    have hstep := queued_step hrefreshes e.1 e.2
    rw [after_concat, gather_concat, List.length_append]
    omega

theorem revives_after :
    ((empty ttl cooldown).gather revives run).length ≤
      ((empty ttl cooldown).after run).columns.stats.staleHits := by
  induction run using List.reverseRecOn with
  | nil => exact Nat.le_refl _
  | append_singleton run e ih =>
    have hstep := revives_step ((empty ttl cooldown).after run) e.1 e.2
    rw [after_concat, gather_concat, List.length_append]
    omega

theorem awaiting_after :
    ((empty ttl cooldown).after run).columns.stats.misses +
        ((empty ttl cooldown).after run).columns.stats.coalesced =
      ((empty ttl cooldown).gather delivers run).length +
        ((empty ttl cooldown).after run).columns.awaiting := by
  induction run using List.reverseRecOn with
  | nil => rfl
  | append_singleton run e ih =>
    have hrefreshes := (refreshes_empty ttl cooldown).after run
    have hordered := ordered_after ttl cooldown run
    have hstep := awaiting_step hrefreshes hordered e.1 e.2
    rw [after_concat, gather_concat, List.length_append]
    omega

/--
**The counters of the cache balance.** In every run from the start:

* each look-up of a table that has a name is counted once, as what it finds;
* the refreshes that have begun and those that are queued are as many as the misses and the look-ups
  that have found stale columns and no refresh in flight, so that no more refreshes have begun than
  there were misses and stale look-ups;
* the misses and the look-ups that joined others are as many as what refreshes have told those who
  waited, together with those who still wait. Whoever has gone away is among them.
-/
theorem counters_balance :
    let start := empty ttl cooldown
    let cache := (start.after run).columns
    let stats := cache.stats
    stats.hits + stats.staleHits + stats.misses + stats.coalesced =
        run.countP (fun e => e.2.looksUp) ∧
      (stats.fetches + cache.queued.length = stats.misses + (start.gather revives run).length ∧
        stats.fetches ≤ stats.misses + stats.staleHits) ∧
      stats.misses + stats.coalesced = (start.gather delivers run).length + cache.awaiting := by
  intro start cache stats
  have hqueued : stats.fetches + cache.queued.length =
      stats.misses + (start.gather revives run).length := queued_after ttl cooldown run
  have hrevives : (start.gather revives run).length ≤ stats.staleHits :=
    revives_after ttl cooldown run
  refine ⟨lookUps_after ttl cooldown run, ⟨hqueued, ?_⟩, awaiting_after ttl cooldown run⟩
  omega

/-- One caller misses and one joins it and goes away; stale columns revive a refresh. -/
example :
    let run : Run := [(0, .request 0 (.columns (.bare "a"))),
      (0, .request 1 (.columns (.bare "a"))), (0, .drop 1), (0, .begin "a"), (1, .reply 0 (.ok (.obj [("columns", .obj [])]))),
      (9, .request 2 (.columns (.bare "a"))), (9, .request 3 (.columns (.bare "b")))]
    let start := empty 5 0
    let cache := (start.after run).columns
    cache.stats = ⟨0, 1, 2, 1, 1⟩ ∧ cache.queued = ["a", "b"] ∧ cache.awaiting = 1 ∧
      (start.gather revives run) = ["a"] ∧ (start.gather delivers run).map Prod.fst = [0, 1] := by
  decide

end

end Gateway

end StoreGateway
