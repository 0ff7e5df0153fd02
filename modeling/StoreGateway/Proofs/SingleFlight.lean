import StoreGateway.Proofs.CacheMoves
import StoreGateway.Proofs.Effects

/-!
# One refresh at a time

However look-ups, invalidations, refreshes and everything else that a gateway does overlap, a table
is being refreshed exactly when one refresh of it is under way, and never are there two.

* `ColumnCache.underWay`: how many refreshes of a table were queued and have not ended;
* `ColumnCache.SingleFlight`: one is under way for a table with waiting callers, none for others;
* `ColumnCache.singleFlight_move`: every move of the cache keeps that;
* `Gateway.started`, `Gateway.endings`: the refreshes of a table that begin and end in a run;
* `Gateway.refreshes_balance`: in each run they differ by what is under way.
-/

namespace StoreGateway

open Catalog Command Digest Query

namespace Catalog.ColumnCache

/-- How many refreshes of a table were queued and have not ended. -/
def underWay (c : ColumnCache) (table : String) : Nat :=
  c.queued.count table + c.loading.count table

/-- One refresh is under way for a table that is being refreshed, and none for any other. -/
def SingleFlight (c : ColumnCache) : Prop :=
  ∀ table, c.underWay table = if c.isRefreshing table then 1 else 0

theorem singleFlight_empty (ttl : Nat) : (empty ttl).SingleFlight :=
  fun _ => rfl

/-! ## Queueing -/

theorem underWay_queue (c : ColumnCache) (table other : String) (callers : List Ticket) :
    (c.queue table callers).underWay other =
      c.underWay other + if table = other then 1 else 0 := by
  show (c.queued ++ [table]).count other + c.loading.count other = _
  rw [List.count_append, List.count_singleton]
  unfold underWay
  by_cases h : table = other
  · simp [h]
    omega
  · simp [h]

theorem isRefreshing_queue (c : ColumnCache) (table other : String) (callers : List Ticket) :
    (c.queue table callers).isRefreshing other = (decide (table = other) || c.isRefreshing other) :=
  Fields.contains_insert c.waiting table other callers

theorem singleFlight_queue {c : ColumnCache} {table : String} (h : c.SingleFlight)
    (hidle : c.isRefreshing table = false) (callers : List Ticket) :
    (c.queue table callers).SingleFlight := by
  intro other
  rw [underWay_queue, isRefreshing_queue, h other]
  by_cases hother : table = other
  · rw [← hother, hidle]
    simp
  · simp [hother]

/-! ## Looking up -/

/-- What the refreshes of a cache depend on. -/
theorem singleFlight_congr {c d : ColumnCache} (h : c.SingleFlight) (hqueued : d.queued = c.queued)
    (hloading : d.loading = c.loading) (hwaiting : ∀ t, d.isRefreshing t = c.isRefreshing t) :
    d.SingleFlight := by
  intro table
  unfold underWay
  rw [hqueued, hloading, hwaiting]
  exact h table

theorem isRefreshing_of_get? {c : ColumnCache} {table : String} {callers : List Ticket}
    (h : c.waiting.get? table = some callers) : c.isRefreshing table = true := by
  show (c.waiting.get? table).isSome = true
  rw [h]
  rfl

theorem isRefreshing_of_get?_none {c : ColumnCache} {table : String}
    (h : c.waiting.get? table = none) : c.isRefreshing table = false := by
  show (c.waiting.get? table).isSome = false
  rw [h]
  rfl

theorem singleFlight_lookup {c : ColumnCache} (h : c.SingleFlight) (now : Nat) (table : String)
    (caller : Ticket) : (c.lookup now table caller).2.SingleFlight := by
  unfold lookup
  split
  · split
    · exact singleFlight_congr h rfl rfl fun _ => rfl
    · dsimp only
      split
      · exact singleFlight_congr h rfl rfl fun _ => rfl
      · next hidle =>
        refine singleFlight_queue ?_ (by simpa using hidle) []
        exact singleFlight_congr h rfl rfl fun _ => rfl
  · split
    · next callers hwaiting =>
      refine singleFlight_congr h rfl rfl fun t => ?_
      show (c.waiting.insert table (callers ++ [caller])).contains t = c.isRefreshing t
      rw [Fields.contains_insert]
      by_cases ht : table = t
      · have hpending := isRefreshing_of_get? hwaiting
        unfold isRefreshing at hpending ⊢
        rw [← ht, hpending, Bool.or_true]
      · rw [decide_eq_false ht, Bool.false_or]
        rfl
    · next hidle =>
      refine singleFlight_queue ?_ (isRefreshing_of_get?_none hidle) [caller]
      exact singleFlight_congr h rfl rfl fun _ => rfl

/-! ## Refreshing -/

theorem underWay_begin (c : ColumnCache) (table other : String) :
    (c.begin table).underWay other = c.underWay other := by
  unfold begin
  split
  · next h =>
    show (c.queued.erase table).count other + (c.loading ++ [table]).count other = _
    unfold underWay
    rw [List.count_append, List.count_singleton, List.count_erase]
    by_cases hother : table = other
    · have hpos : 0 < c.queued.count table := List.count_pos_iff.2 h
      subst hother
      simp
      omega
    · simp [hother]
  · rfl

theorem isRefreshing_begin (c : ColumnCache) (table other : String) :
    (c.begin table).isRefreshing other = c.isRefreshing other := by
  unfold begin
  split <;> rfl

theorem finish_of_mem {c : ColumnCache} {table : String} (h : table ∈ c.loading) (now : Nat)
    (reply : Except Error Json) :
    c.finish now table reply =
      ((c.waiting.get? table).getD [],
        { c with
          entries := match loaded reply with
            | .ok columns => c.entries.insert table ⟨columns, now⟩
            | .error _ => c.entries
          waiting := c.waiting.erase table
          loading := c.loading.erase table }) := by
  unfold finish
  exact if_pos h

theorem finish_of_not_mem {c : ColumnCache} {table : String} (h : table ∉ c.loading) (now : Nat)
    (reply : Except Error Json) : c.finish now table reply = ([], c) := by
  unfold finish
  rw [if_neg h]

theorem singleFlight_finish {c : ColumnCache} (h : c.SingleFlight) (now : Nat) (table : String)
    (reply : Except Error Json) : (c.finish now table reply).2.SingleFlight := by
  by_cases hmem : table ∈ c.loading
  · rw [finish_of_mem hmem]
    intro other
    have hpos : 0 < c.loading.count table := List.count_pos_iff.2 hmem
    have hother := h other
    show c.queued.count other + (c.loading.erase table).count other =
      if (c.waiting.erase table).contains other then 1 else 0
    rw [Fields.contains_erase, List.count_erase]
    by_cases heq : table = other
    · -- The refresh that ends was the only one.
      subst heq
      unfold underWay at hother
      have hone : c.queued.count table + c.loading.count table ≤ 1 := by
        rw [hother]
        split <;> omega
      simp
      omega
    · have hbeq : (table == other) = false := by simpa using heq
      rw [hbeq, decide_eq_false heq]
      exact hother
  · rw [finish_of_not_mem hmem]
    exact h

/-- **Every move of the cache keeps one refresh at a time.** -/
theorem singleFlight_move {c : ColumnCache} (h : c.SingleFlight) (now : Nat) (m : Move) :
    (c.move now m).SingleFlight := by
  cases m with
  | look table caller => exact singleFlight_lookup h now table caller
  | invalidate table => exact singleFlight_congr h rfl rfl fun _ => rfl
  | begin table =>
    intro other
    show (c.begin table).underWay other = if (c.begin table).isRefreshing other then 1 else 0
    rw [underWay_begin, isRefreshing_begin]
    exact h other
  | finish table reply => exact singleFlight_finish h now table reply

/-- After a look-up a table has fresh columns, or it is being refreshed. -/
theorem fresh_or_isRefreshing_lookup (c : ColumnCache) (now : Nat) (table : String)
    (caller : Ticket) :
    (∃ e, (c.lookup now table caller).2.entries.get? table = some e ∧
        (c.lookup now table caller).2.fresh now e = true) ∨
      (c.lookup now table caller).2.isRefreshing table = true := by
  unfold lookup
  split
  · next e hentry =>
    split
    · next hfresh => exact Or.inl ⟨e, hentry, hfresh⟩
    · right
      dsimp only
      split
      · next hrefreshing => exact hrefreshing
      · rw [isRefreshing_queue]
        simp
  · right
    split
    · next callers hwaiting =>
      show (c.waiting.insert table (callers ++ [caller])).contains table = true
      rw [Fields.contains_insert]
      simp
    · rw [isRefreshing_queue]
      simp

/-! ## How many are under way -/

theorem underWay_lookup (c : ColumnCache) (now : Nat) (table other : String) (caller : Ticket) :
    (c.lookup now table caller).2.underWay other = c.underWay other +
      if (c.lookup now table caller).1.queues ∧ table = other then 1 else 0 := by
  unfold lookup
  split
  · split
    · simp [underWay]
    · dsimp only
      split
      · simp [underWay]
      · rw [underWay_queue]
        simp [underWay]
  · split
    · simp [underWay]
    · rw [underWay_queue]
      simp [underWay]

theorem underWay_finish {c : ColumnCache} {table : String} (h : table ∈ c.loading) (now : Nat)
    (other : String) (reply : Except Error Json) :
    (c.finish now table reply).2.underWay other + (if table = other then 1 else 0) =
      c.underWay other := by
  have hpos : 0 < c.loading.count table := List.count_pos_iff.2 h
  rw [finish_of_mem h]
  show c.queued.count other + (c.loading.erase table).count other + _ =
    c.queued.count other + c.loading.count other
  rw [List.count_erase]
  by_cases hother : table = other
  · subst hother
    simp
    omega
  · simp [hother]

/-! ## What waits for the tool -/

theorem loading_lookup (c : ColumnCache) (now : Nat) (table : String) (caller : Ticket) :
    (c.lookup now table caller).2.loading = c.loading := by
  unfold lookup
  split
  · split
    · rfl
    · dsimp only
      split <;> rfl
  · split <;> rfl

theorem loading_finish (c : ColumnCache) (now : Nat) (table : String) (reply : Except Error Json) :
    (c.finish now table reply).2.loading = c.loading.erase table := by
  by_cases h : table ∈ c.loading
  · rw [finish_of_mem h]
  · rw [finish_of_not_mem h, List.erase_of_not_mem h]

end Catalog.ColumnCache

/-- An effect that queues a refresh of a table. -/
def Effect.queues (table : String) : Effect → Bool
  | .queue t => decide (t = table)
  | _ => false

namespace Gateway

/-- How many calls that load the columns of a table have not been answered. -/
def refreshCalls (g : Gateway) (table : String) : Nat :=
  g.calls.countP fun c => c.2 = .refresh table

/-- The refreshes of a table that have not begun, and those whose call was not answered. -/
def inFlight (g : Gateway) (table : String) : Nat :=
  g.columns.queued.count table + g.refreshCalls table

/-- How many refreshes of a table a run starts. -/
def started (table : String) (g : Gateway) (run : Run) : Nat :=
  (g.effects run).countP (Effect.queues table)

/-- The reply with which an event ends a refresh of a table. -/
def ending (table : String) (g : Gateway) (_ : Nat) : Event → List (Except Error Json)
  | .reply call outcome => if g.purpose? call = some (.refresh table) then [outcome] else []
  | _ => []

/-- The replies with which the refreshes of a table end in a run, in order. -/
def endings (table : String) (g : Gateway) (run : Run) : List (Except Error Json) :=
  g.gather (ending table) run

/-- One refresh at a time, and each that waits for the tool waits for a call of its own. -/
structure Refreshes (g : Gateway) : Prop where
  numbered : g.CallsNumbered
  single : g.columns.SingleFlight
  called : ∀ table, g.refreshCalls table = g.columns.loading.count table

theorem refreshes_empty (ttl cooldown : Nat) : (empty ttl cooldown).Refreshes :=
  ⟨callsNumbered_empty ttl cooldown, ColumnCache.singleFlight_empty ttl, fun _ => rfl⟩

/-! ## The calls for refreshes -/

/-- Only the begin of a refresh and the reply to a call change which refreshes wait for the tool. -/
theorem step_loading {e : Event} (hbegin : ∀ table, e ≠ .begin table)
    (hreply : ∀ call outcome, e ≠ .reply call outcome) (g : Gateway) (now : Nat) :
    (g.step now e).1.columns.loading = g.columns.loading := by
  cases e with
  | request caller r =>
    cases r with
    | columns table =>
      by_cases h : table.name = ""
      · rw [step_look_of_empty h]
      · rw [step_look h]
        exact ColumnCache.loading_lookup g.columns now table.name caller
    | run _ _ _ | stats _ | tables | add _ _ _ | clear _ | mark _ | flush | shutdown =>
      rw [step_columns]
      rfl
  | begin table => exact absurd rfl (hbegin table)
  | reply call outcome => exact absurd rfl (hreply call outcome)
  | expire _ | notice _ | drop _ =>
    rw [step_columns]
    rfl

/-- A call for a refresh is made where a queued refresh begins, and nowhere else. -/
theorem Opens.begin_of_refresh {g : Gateway} {e : Event} {table : String}
    (h : g.Opens e (.refresh table)) : e = .begin table := by
  cases h
  rfl

theorem CallsAfter.refreshCalls {g g' : Gateway} {e : Event} {made : Option Purpose}
    (h : g.CallsAfter e g' made) (hbegin : ∀ table, e ≠ .begin table) (table : String) :
    g'.refreshCalls table = (g.calls.filter e.keeps).countP fun c => c.2 = .refresh table := by
  unfold Gateway.refreshCalls
  rw [h.calls, List.countP_append]
  cases made with
  | none => rfl
  | some p =>
    have hp : p ≠ .refresh table := by
      rintro rfl
      exact hbegin table (h.opens _ rfl).begin_of_refresh
    simp [hp]

/-- Calls for refreshes have no caller, and so they end by a reply only. -/
theorem countP_keeps {e : Event} (hreply : ∀ call outcome, e ≠ .reply call outcome) (table : String)
    (calls : List (Nat × Purpose)) :
    (calls.filter e.keeps).countP (fun c => c.2 = .refresh table) =
      calls.countP fun c => c.2 = .refresh table := by
  rw [List.countP_filter]
  refine List.countP_congr fun c _ => ?_
  have hkeeps : c.2 = .refresh table → e.keeps c = true := by
    intro hc
    cases e with
    | reply call outcome => exact absurd rfl (hreply call outcome)
    | drop caller => simp [Event.keeps, hc, Purpose.caller?]
    | request _ _ | begin _ | expire _ | notice _ => rfl
  simpa using hkeeps

theorem called_begin {g : Gateway} (h : g.Refreshes) (now : Nat) (table other : String) :
    (g.step now (.begin table)).1.refreshCalls other =
      (g.step now (.begin table)).1.columns.loading.count other := by
  show (g.beginRefresh table).1.refreshCalls other =
    (g.beginRefresh table).1.columns.loading.count other
  unfold beginRefresh
  by_cases hmem : table ∈ g.columns.queued
  · rw [if_pos hmem]
    show (g.calls ++ [(g.nextCall, Purpose.refresh table)]).countP _ =
      (g.columns.begin table).loading.count other
    have hloading : (g.columns.begin table).loading = g.columns.loading ++ [table] := by
      unfold ColumnCache.begin
      rw [if_pos hmem]
    have hcalled := h.called other
    unfold Gateway.refreshCalls at hcalled
    rw [hloading, List.countP_append, List.count_append, hcalled, List.count_singleton]
    by_cases hother : table = other <;> simp [hother]
  · rw [if_neg hmem]
    exact h.called other

theorem called_reply {g : Gateway} (h : g.Refreshes) (now call : Nat) (outcome : Except Error Json)
    (table : String) :
    (g.step now (.reply call outcome)).1.refreshCalls table =
      (g.step now (.reply call outcome)).1.columns.loading.count table := by
  cases hp : g.purpose? call with
  | none =>
    rw [step_reply_of_none hp]
    exact h.called table
  | some p =>
    obtain ⟨made, hmade⟩ := step_calls g now (.reply call outcome)
    have hcount : (g.calls.filter (Event.reply call outcome).keeps).countP
        (fun c => c.2 = .refresh table) + (if p = .refresh table then 1 else 0) =
          g.columns.loading.count table := by
      rw [← h.called table]
      have hclosed :=
        h.numbered.countP_filter_ne (mem_of_purpose? hp) fun c => c.2 = .refresh table
      simp only [decide_eq_true_eq] at hclosed
      exact hclosed
    have hmove : (g.step now (.reply call outcome)).1.columns =
        (replyMove? outcome p).elim g.columns (g.columns.move now) := by
      rw [step_columns]
      simp [cacheMove?, hp]
    rw [hmade.refreshCalls (by simp) table, hmove]
    cases p with
    | refresh other =>
      show _ = (g.columns.finish now other outcome).2.loading.count table
      rw [ColumnCache.loading_finish, List.count_erase]
      by_cases hother : other = table
      · simp [hother] at hcount ⊢
        omega
      · simpa [hother] using hcount
    | run _ _ | stats _ | tables _ | add _ _ | digest _ _ =>
      show _ = g.columns.loading.count table
      simpa using hcount

theorem refreshes_step {g : Gateway} (h : g.Refreshes) (now : Nat) (e : Event) :
    (g.step now e).1.Refreshes := by
  refine ⟨callsNumbered_step now e h.numbered, ?_, fun table => ?_⟩
  · rw [step_columns]
    cases g.cacheMove? e with
    | none => exact h.single
    | some m => exact ColumnCache.singleFlight_move h.single now m
  · cases e with
    | begin t => exact called_begin h now t table
    | reply call outcome => exact called_reply h now call outcome table
    | request _ _ | expire _ | notice _ | drop _ =>
      obtain ⟨made, hmade⟩ := step_calls g now _
      rw [hmade.refreshCalls (by simp) table, countP_keeps (by simp) table,
        step_loading (by simp) (by simp)]
      exact h.called table

theorem Refreshes.after {g : Gateway} (h : g.Refreshes) (run : Run) : (g.after run).Refreshes :=
  after_induction h (fun _ now e h => refreshes_step h now e) run

/-! ## Refreshes begin and end -/

/-- Only a look-up starts a refresh. -/
theorem countP_queues {e : Event} (h : ∀ caller table, e ≠ .request caller (.columns table))
    (g : Gateway) (now : Nat) (table : String) :
    (g.step now e).2.countP (Effect.queues table) = 0 := by
  rw [List.countP_eq_zero]
  intro effect hmem hqueues
  cases causes_of_mem hmem with
  | queue caller t => exact h caller t rfl
  | call | arm | looked | unnamed | asked | replied | launched | refreshed => cases hqueues

theorem countP_queues_look {t : TableRef} (h : t.name ≠ "") (g : Gateway) (now : Nat)
    (caller : Ticket) (table : String) :
    (g.step now (.request caller (.columns t))).2.countP (Effect.queues table) =
      if (g.columns.lookup now t.name caller).1.queues ∧ t.name = table then 1 else 0 := by
  rw [step_look h, lookup_effects, List.countP_append]
  have hanswers : ∀ columns : Option (List Column), (columns.toList.map fun cs =>
      Effect.answer caller (.ok (.columns cs))).countP (Effect.queues table) = 0 := by
    intro columns
    cases columns <;> rfl
  rw [hanswers, Nat.add_zero]
  cases (g.columns.lookup now t.name caller).1.queues with
  | false => simp
  | true => by_cases ht : t.name = table <;> simp [ht, Effect.queues]

/-- What is under way grows by the refreshes that a step starts, and shrinks by those it ends. -/
theorem underWay_step {g : Gateway} (h : g.Refreshes) (now : Nat) (e : Event) (table : String) :
    (g.step now e).1.columns.underWay table + (ending table g now e).length =
      g.columns.underWay table + (g.step now e).2.countP (Effect.queues table) := by
  cases e with
  | request caller r =>
    cases r with
    | columns t =>
      by_cases hname : t.name = ""
      · rw [step_look_of_empty hname]
        rfl
      · rw [countP_queues_look hname, step_look hname]
        exact ColumnCache.underWay_lookup g.columns now t.name table caller
    | run _ _ _ | stats _ | tables | add _ _ _ | clear _ | mark _ | flush | shutdown =>
      rw [countP_queues (by simp), step_columns]
      rfl
  | begin t =>
    rw [countP_queues (by simp), step_columns]
    exact ColumnCache.underWay_begin g.columns t table
  | reply call outcome =>
    rw [countP_queues (by simp)]
    cases hp : g.purpose? call with
    | none =>
      rw [step_reply_of_none hp]
      simp [ending, hp]
    | some p =>
      have hmove : (g.step now (.reply call outcome)).1.columns =
          (replyMove? outcome p).elim g.columns (g.columns.move now) := by
        rw [step_columns]
        simp [cacheMove?, hp]
      rw [hmove]
      cases p with
      | refresh t =>
        have hloading : t ∈ g.columns.loading := by
          rw [← List.count_pos_iff, ← h.called t]
          exact List.countP_pos_iff.2 ⟨_, mem_of_purpose? hp, by simp⟩
        have hending : (ending table g now (.reply call outcome)).length =
            if t = table then 1 else 0 := by
          by_cases ht : t = table <;> simp [ending, hp, ht]
        rw [hending]
        exact ColumnCache.underWay_finish hloading now table outcome
      | run _ _ | stats _ | tables _ | add _ _ | digest _ _ => simp [ending, hp, replyMove?]
  | expire _ | notice _ | drop _ =>
    rw [countP_queues (by simp), step_columns]
    rfl

/-- The refreshes that a run starts and those that it ends differ by what is under way. -/
theorem refreshes_balance {g : Gateway} (h : g.Refreshes) (table : String) (run : Run) :
    (g.after run).columns.underWay table + (g.endings table run).length =
      g.columns.underWay table + g.started table run := by
  induction run generalizing g with
  | nil => rfl
  | cons e run ih =>
    obtain ⟨now, e⟩ := e
    have hstep := underWay_step h now e table
    have hrest := ih (refreshes_step h now e)
    have hendings : (g.endings table ((now, e) :: run)).length =
        (ending table g now e).length + ((g.step now e).1.endings table run).length := by
      unfold endings
      rw [gather_cons, List.length_append]
    have hstarted : g.started table ((now, e) :: run) =
        (g.step now e).2.countP (Effect.queues table) + (g.step now e).1.started table run := by
      unfold started effects
      rw [gather_cons, List.countP_append]
    rw [hendings, hstarted]
    show ((g.step now e).1.after run).columns.underWay table + _ = _
    omega

theorem Refreshes.inFlight_eq_underWay {g : Gateway} (h : g.Refreshes) (table : String) :
    g.inFlight table = g.columns.underWay table := by
  unfold inFlight
  rw [h.called table]
  rfl

theorem Refreshes.inFlight_eq {g : Gateway} (h : g.Refreshes) (table : String) :
    g.inFlight table = if g.columns.isRefreshing table then 1 else 0 := by
  rw [h.inFlight_eq_underWay]
  exact h.single table

/--
**One refresh at a time.** In every run, whatever overlaps in it, the refreshes of a table that
were started and have not ended are one if the table is being refreshed and none otherwise; they
are those that have not begun and those whose call was not answered. After a look-up the table has
fresh columns or is being refreshed.
-/
theorem single_flight (ttl cooldown : Nat) (run : Run) (table : String) :
    let start := empty ttl cooldown
    let g := start.after run
    start.started table run =
        (start.endings table run).length + (if g.columns.isRefreshing table then 1 else 0) ∧
      g.inFlight table = (if g.columns.isRefreshing table then 1 else 0) ∧
      g.refreshCalls table ≤ 1 ∧
      ∀ (now : Nat) (caller : Ticket) (t : TableRef), t.name = table → table ≠ "" →
        let g' := (g.step now (.request caller (.columns t))).1
        (∃ e, g'.columns.entries.get? table = some e ∧ g'.columns.fresh now e = true) ∨
          g'.inFlight table = 1 := by
  intro start g
  have hg : g.Refreshes := (refreshes_empty ttl cooldown).after run
  have hflight := hg.inFlight_eq table
  have hbalance : g.columns.underWay table + (start.endings table run).length =
      0 + start.started table run :=
    refreshes_balance (refreshes_empty ttl cooldown) table run
  have hunder : g.columns.underWay table = if g.columns.isRefreshing table then 1 else 0 :=
    hg.single table
  refine ⟨?_, hflight, ?_, ?_⟩
  · omega
  · unfold inFlight at hflight
    split at hflight <;> omega
  · rintro now caller t rfl hname
    have hg' := refreshes_step hg now (.request caller (.columns t))
    intro g'
    rw [hg'.inFlight_eq]
    have hcolumns : g'.columns = (g.columns.lookup now t.name caller).2 := by
      show (g.step now (.request caller (.columns t))).1.columns = _
      rw [step_look hname, lookup_columns]
    have hlook := ColumnCache.fresh_or_isRefreshing_lookup g.columns now t.name caller
    rw [← hcolumns] at hlook
    rcases hlook with hfresh | hrefreshing
    · exact Or.inl hfresh
    · exact Or.inr (if_pos hrefreshing)

end Gateway

end StoreGateway
