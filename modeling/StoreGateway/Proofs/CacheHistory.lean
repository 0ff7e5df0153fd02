import Mathlib.Data.List.Induction
import StoreGateway.Proofs.Waiters

/-!
# The cache and its history

What the cache holds for a table is told by the events so far: the columns that a refresh of it has
brought last, unless they were forgotten since. Refreshes that fail change nothing, and one that was
under way when the columns were forgotten still brings new ones.

* `Gateway.changes`: what an event makes of the entry of a table;
* `Gateway.Lands`: a refresh of a table ends, and brings an entry;
* `Gateway.get?_entries_iff`: the entry of a table is the last one that has landed, and nothing has
  changed it since;
* `ColumnCache.lookup_fresh`, `ColumnCache.lookup_stale`: what a look-up gets that finds an entry;
* `Gateway.landed_since_cleared`: who asks for columns that were forgotten is told what has landed
  since.
-/

namespace StoreGateway

open Catalog Command Digest Query

namespace Catalog.ColumnCache

variable {c : ColumnCache} {table : String} {entry : Entry} {now : Nat}

theorem lookup_fresh (h : c.entries.get? table = some entry) (hfresh : c.fresh now entry = true)
    (caller : Ticket) :
    c.lookup now table caller =
      (⟨some entry.columns, false⟩, { c with stats.hits := c.stats.hits + 1 }) := by
  unfold lookup
  rw [h]
  dsimp only
  rw [if_pos hfresh]

theorem lookup_stale (h : c.entries.get? table = some entry) (hstale : c.fresh now entry = false)
    (caller : Ticket) :
    c.lookup now table caller =
      (⟨some entry.columns, !c.isRefreshing table⟩,
        if c.isRefreshing table then { c with stats.staleHits := c.stats.staleHits + 1 }
        else { c with stats.staleHits := c.stats.staleHits + 1 }.queue table []) := by
  unfold lookup
  rw [h]
  dsimp only
  rw [hstale]
  cases hrefreshing : c.isRefreshing table with
  | false => simp [isRefreshing, show c.waiting.contains table = false from hrefreshing]
  | true => simp [isRefreshing, show c.waiting.contains table = true from hrefreshing]

theorem entries_lookup (c : ColumnCache) (now : Nat) (table : String) (caller : Ticket) :
    (c.lookup now table caller).2.entries = c.entries := by
  unfold lookup
  split
  · split
    · rfl
    · dsimp only
      split <;> rfl
  · split <;> rfl

theorem entries_begin (c : ColumnCache) (table : String) : (c.begin table).entries = c.entries := by
  unfold begin
  split <;> rfl

theorem ttl_move (c : ColumnCache) (now : Nat) (m : Move) : (c.move now m).ttl = c.ttl := by
  cases m with
  | look table caller =>
    show (c.lookup now table caller).2.ttl = c.ttl
    unfold lookup
    split
    · split
      · rfl
      · dsimp only
        split <;> rfl
    · split <;> rfl
  | invalidate table => rfl
  | begin table =>
    show (c.begin table).ttl = c.ttl
    unfold begin
    split <;> rfl
  | finish table reply =>
    show (c.finish now table reply).2.ttl = c.ttl
    unfold finish
    split <;> rfl

end Catalog.ColumnCache

/-- An event forgets the columns of a table. -/
def Event.Forgets (table : String) (e : Event) : Prop :=
  ∃ caller t, e = .request caller (.clear t) ∧ t.name = table

namespace Gateway

/-- What an event makes of the entry of a table, if it changes it. -/
def changes (table : String) (g : Gateway) (now : Nat) : Event → List (Option Entry)
  | .request _ (.clear t) => if t.name = table then [none] else []
  | .reply call outcome =>
    if g.purpose? call = some (.refresh table) then
      match outcome.bind columnsOfInfo with
      | .ok columns => [some ⟨columns, now⟩]
      | .error _ => []
    else []
  | _ => []

/-- A refresh of a table ends with an event, and brings an entry. -/
def Lands (g : Gateway) (table : String) (entry : Entry) (now : Nat) (e : Event) : Prop :=
  entry.loadedAt = now ∧ ∃ call info, e = .reply call (.ok info) ∧
    g.purpose? call = some (.refresh table) ∧ columnsOfInfo info = .ok entry.columns

/-! ## One event -/

section
variable {g : Gateway} {table : String} {now : Nat} {e : Event}

theorem changes_clear (table : String) (g : Gateway) (now : Nat) (caller : Ticket) (t : TableRef) :
    changes table g now (.request caller (.clear t)) = if t.name = table then [none] else [] := rfl

theorem changes_reply (table : String) (g : Gateway) (now call : Nat)
    (outcome : Except Error Json) :
    changes table g now (.reply call outcome) =
      if g.purpose? call = some (.refresh table) then
        match outcome.bind columnsOfInfo with
        | .ok columns => [some ⟨columns, now⟩]
        | .error _ => []
      else [] := rfl

theorem exists_info {outcome : Except Error Json} {columns : List Column}
    (h : outcome.bind columnsOfInfo = .ok columns) :
    ∃ info, outcome = .ok info ∧ columnsOfInfo info = .ok columns := by
  cases outcome with
  | error cause => cases h
  | ok info => exact ⟨info, rfl, h⟩

theorem changes_of_forgets (h : e.Forgets table) (g : Gateway) (now : Nat) :
    changes table g now e = [none] := by
  obtain ⟨caller, t, rfl, ht⟩ := h
  exact if_pos ht

theorem changes_of_lands {entry : Entry} (h : g.Lands table entry now e) :
    changes table g now e = [some entry] := by
  obtain ⟨rfl, call, info, rfl, hp, hinfo⟩ := h
  have hbind : (Except.ok info : Except Error Json).bind columnsOfInfo = .ok entry.columns := hinfo
  rw [changes_reply, if_pos hp, hbind]

/-- An event leaves the entry of a table alone, or forgets it, or brings one. -/
theorem changes_cases (table : String) (g : Gateway) (now : Nat) (e : Event) :
    changes table g now e = [] ∨ e.Forgets table ∨ ∃ entry, g.Lands table entry now e := by
  cases e with
  | reply call outcome =>
    rw [changes_reply]
    split
    · next hp =>
      split
      · next columns hbind =>
        obtain ⟨info, rfl, hinfo⟩ := exists_info hbind
        exact Or.inr (Or.inr ⟨⟨columns, now⟩, rfl, call, info, rfl, hp, hinfo⟩)
      · exact Or.inl rfl
    · exact Or.inl rfl
  | request caller r =>
    cases r with
    | clear t =>
      rw [changes_clear]
      split
      · next ht => exact Or.inr (Or.inl ⟨caller, t, rfl, ht⟩)
      · exact Or.inl rfl
    | run _ _ _ | columns _ | stats _ | tables | add _ _ _ | mark _ | flush | shutdown =>
      exact Or.inl rfl
  | begin _ | expire _ | notice _ | drop _ => exact Or.inl rfl

theorem lands_iff {entry : Entry} :
    g.Lands table entry now e ↔ changes table g now e = [some entry] := by
  refine ⟨changes_of_lands, fun h => ?_⟩
  rcases changes_cases table g now e with hnil | hforgets | ⟨other, hlands⟩
  · rw [hnil] at h
    cases h
  · rw [changes_of_forgets hforgets] at h
    cases h
  · rw [changes_of_lands hlands] at h
    cases h
    exact hlands

/-- The entries after the end of a refresh; one that fails changes none. -/
theorem entries_of_ending (hg : g.Refreshes) {call : Nat}
    (hp : g.purpose? call = some (.refresh table)) (now : Nat) (outcome : Except Error Json) :
    (g.step now (.reply call outcome)).1.columns.entries =
      match outcome.bind columnsOfInfo with
      | .ok columns => g.columns.entries.insert table ⟨columns, now⟩
      | .error _ => g.columns.entries := by
  rw [columns_of_ending hp, ColumnCache.finish_of_mem (hg.mem_loading hp)]
  rfl

/-- The entry of a table is what an event makes of it, and else what it was. -/
theorem get?_entries_step (hg : g.Refreshes) (now : Nat) (e : Event) (table : String) :
    (g.step now e).1.columns.entries.get? table =
      (changes table g now e).head?.getD (g.columns.entries.get? table) := by
  cases e with
  | request caller r =>
    cases r with
    | columns t =>
      by_cases hname : t.name = ""
      · rw [step_look_of_empty hname]
        rfl
      · rw [step_look hname, lookup_columns, ColumnCache.entries_lookup]
        rfl
    | clear t =>
      show (g.columns.entries.erase t.name).get? table = _
      rw [Fields.get?_erase, changes_clear]
      split <;> rfl
    | run _ _ _ | stats _ | tables | add _ _ _ | mark _ | flush | shutdown =>
      rw [step_columns]
      rfl
  | begin t =>
    rw [step_columns]
    show (g.columns.begin t).entries.get? table = _
    rw [ColumnCache.entries_begin]
    rfl
  | reply call outcome =>
    cases hp : g.purpose? call with
    | none =>
      rw [step_reply_of_none hp]
      simp [changes, hp]
    | some p =>
      cases p with
      | refresh t =>
        rw [entries_of_ending hg hp]
        cases hinfo : outcome.bind columnsOfInfo with
        | error cause => simp [changes, hinfo]
        | ok columns =>
          rw [Fields.get?_insert]
          by_cases ht : t = table <;> simp [changes, hp, hinfo, ht]
      | run _ _ | stats _ | tables _ | add _ _ | digest _ _ =>
        rw [step_columns]
        simp [cacheMove?, hp, replyMove?, changes]
  | expire _ | notice _ | drop _ =>
    rw [step_columns]
    rfl

/-- A table has an entry after an event that brings it, and after one that leaves it alone. -/
theorem get?_entries_step_iff (hg : g.Refreshes) {entry : Entry} :
    (g.step now e).1.columns.entries.get? table = some entry ↔
      g.Lands table entry now e ∨
        g.columns.entries.get? table = some entry ∧ changes table g now e = [] := by
  rw [get?_entries_step hg, lands_iff]
  rcases changes_cases table g now e with hnil | hforgets | ⟨other, hlands⟩
  · simp [hnil]
  · simp [changes_of_forgets hforgets]
  · simp [changes_of_lands hlands]

end

/-! ## Runs -/

/-- The entry of a table is the last that has landed, and nothing has changed it since. -/
theorem get?_entries_iff {g : Gateway} (hg : g.Refreshes) {table : String}
    (hnone : g.columns.entries.get? table = none) (run : Run) (entry : Entry) :
    (g.after run).columns.entries.get? table = some entry ↔
      ∃ pre done e post, run = pre ++ (done, e) :: post ∧
        (g.after pre).Lands table entry done e ∧
        (g.after (pre ++ [(done, e)])).gather (changes table) post = [] := by
  induction run using List.reverseRecOn with
  | nil =>
    refine iff_of_false (by simp [after, hnone]) ?_
    rintro ⟨pre, done, e, post, hsplit, -⟩
    simp at hsplit
  | append_singleton run e ih =>
    obtain ⟨now, e⟩ := e
    rw [after_concat, get?_entries_step_iff (hg.after run), ih]
    exact (exists_since_concat (P := fun a t d => (g.after a).Lands table entry t d)).symm

/-- Once a table has an entry it keeps one until its columns are forgotten. -/
theorem exists_entry_after {g : Gateway} (hg : g.Refreshes) {table : String} {run : Run}
    (h : ∃ entry, g.columns.entries.get? table = some entry)
    (hrun : ∀ e ∈ run, ¬e.2.Forgets table) :
    ∃ entry, (g.after run).columns.entries.get? table = some entry := by
  induction run generalizing g with
  | nil => exact h
  | cons e run ih =>
    obtain ⟨now, e⟩ := e
    refine ih (refreshes_step hg now e) ?_ fun d hd => hrun d (List.mem_cons_of_mem _ hd)
    rw [get?_entries_step hg]
    rcases changes_cases table g now e with hnil | hforgets | ⟨entry, hlands⟩
    · rw [hnil]
      exact h
    · exact absurd hforgets (hrun _ List.mem_cons_self)
    · rw [changes_of_lands hlands]
      exact ⟨entry, rfl⟩

theorem not_forgets_of_gather {table : String} {g : Gateway} {run : Run}
    (h : g.gather (changes table) run = []) : ∀ e ∈ run, ¬e.2.Forgets table := by
  induction run generalizing g with
  | nil => simp
  | cons e run ih =>
    obtain ⟨now, e⟩ := e
    obtain ⟨hhead, htail⟩ := List.append_eq_nil_iff.1 h
    rintro d (_ | ⟨_, hd⟩) hforgets
    · rw [changes_of_forgets hforgets] at hhead
      cases hhead
    · exact ih htail d hd hforgets

/-- A table has an entry when a refresh of it has ended well since its columns were forgotten. -/
theorem exists_entry_iff {g : Gateway} (hg : g.Refreshes) {table : String}
    (hnone : g.columns.entries.get? table = none) (run : Run) :
    (∃ entry, (g.after run).columns.entries.get? table = some entry) ↔
      ∃ pre done e post entry, run = pre ++ (done, e) :: post ∧
        (g.after pre).Lands table entry done e ∧ ∀ d ∈ post, ¬d.2.Forgets table := by
  constructor
  · rintro ⟨entry, hentry⟩
    obtain ⟨pre, done, e, post, rfl, hlands, hsilent⟩ :=
      (get?_entries_iff hg hnone run entry).1 hentry
    exact ⟨pre, done, e, post, entry, rfl, hlands, not_forgets_of_gather hsilent⟩
  · rintro ⟨pre, done, e, post, entry, rfl, hlands, hpost⟩
    have hlanded : ((g.after pre).step done e).1.columns.entries.get? table = some entry :=
      (get?_entries_step_iff (hg.after pre)).2 (Or.inl hlands)
    rw [after_append, after_cons]
    exact exists_entry_after (refreshes_step (hg.after pre) done e) ⟨entry, hlanded⟩ hpost

theorem ttl_after (ttl cooldown : Nat) (run : Run) :
    ((empty ttl cooldown).after run).columns.ttl = ttl := by
  refine after_induction (P := fun g => g.columns.ttl = ttl) rfl (fun g now e h => ?_) run
  rw [step_columns]
  cases g.cacheMove? e with
  | none => exact h
  | some m => exact (ColumnCache.ttl_move g.columns now m).trans h

/-! ## Look-ups -/

section
variable {g : Gateway} {t : TableRef} {entry : Entry} {now : Nat}

theorem inFlight_eq_zero_iff (hg : g.Refreshes) (table : String) :
    g.inFlight table = 0 ↔ g.columns.isRefreshing table = false := by
  rw [hg.inFlight_eq]
  cases g.columns.isRefreshing table <;> simp

theorem step_look_fresh (hname : t.name ≠ "")
    (hentry : g.columns.entries.get? t.name = some entry)
    (hfresh : now - entry.loadedAt < g.columns.ttl) (caller : Ticket) :
    g.step now (.request caller (.columns t)) =
      ({ g with columns := { g.columns with stats.hits := g.columns.stats.hits + 1 } },
        [.answer caller (.ok (.columns entry.columns))]) := by
  rw [step_look hname]
  unfold lookup
  rw [ColumnCache.lookup_fresh hentry (decide_eq_true hfresh)]
  rfl

/-- Stale columns are told at once, too, and a refresh is queued unless one is in flight. -/
theorem step_look_stale (hg : g.Refreshes) (hname : t.name ≠ "")
    (hentry : g.columns.entries.get? t.name = some entry)
    (hstale : ¬now - entry.loadedAt < g.columns.ttl) (caller : Ticket) :
    let counted := { g.columns with stats.staleHits := g.columns.stats.staleHits + 1 }
    g.step now (.request caller (.columns t)) =
      ({ g with columns := if g.inFlight t.name = 0 then counted.queue t.name [] else counted },
        (if g.inFlight t.name = 0 then [.queue t.name] else []) ++
          [.answer caller (.ok (.columns entry.columns))]) := by
  intro counted
  rw [step_look hname]
  unfold lookup
  rw [ColumnCache.lookup_stale hentry (decide_eq_false hstale)]
  cases hrefreshing : g.columns.isRefreshing t.name with
  | false =>
    have hflight := (inFlight_eq_zero_iff hg t.name).2 hrefreshing
    rw [if_pos hflight, if_pos hflight]
    rfl
  | true =>
    have hflight : g.inFlight t.name ≠ 0 := by
      rw [Ne, inFlight_eq_zero_iff hg, hrefreshing]
      exact Bool.noConfusion
    rw [if_neg hflight, if_neg hflight]
    rfl

theorem inFlight_look_stale (hg : g.Refreshes) (hname : t.name ≠ "")
    (hentry : g.columns.entries.get? t.name = some entry)
    (hstale : ¬now - entry.loadedAt < g.columns.ttl) (caller : Ticket) :
    (g.step now (.request caller (.columns t))).1.inFlight t.name = 1 := by
  have hcolumns : (g.step now (.request caller (.columns t))).1.columns =
      (g.columns.lookup now t.name caller).2 := by
    rw [step_look hname, lookup_columns]
  rw [(refreshes_step hg now _).inFlight_eq, hcolumns, if_pos]
  rw [ColumnCache.lookup_stale hentry (decide_eq_false hstale)]
  dsimp only
  split
  · next hrefreshing => exact hrefreshing
  · rw [ColumnCache.isRefreshing_queue, decide_eq_true rfl, Bool.true_or]

theorem gone_look (hg : g.Refreshes) {caller : Ticket} (h : g.Gone caller) (hname : t.name ≠ "")
    (hentry : g.columns.entries.get? t.name = some entry) (now : Nat) :
    (g.step now (.request caller (.columns t))).1.Gone caller ∧
      (g.step now (.request caller (.columns t))).2.filterMap (Effect.answerTo caller) =
        [.ok (.columns entry.columns)] := by
  refine ⟨⟨not_engaged_step h.free (by simp [Event.AsksElse]) now, fun table => ?_⟩, ?_⟩
  · have hending : ending table g now (.request caller (.columns t)) = [] := rfl
    have hwaits : waits table g now (.request caller (.columns t)) = [] := by simp [waits, hentry]
    rw [waiters_step hg, if_pos hending, hwaits, List.append_nil]
    exact h.nowhere table
  · by_cases hfresh : now - entry.loadedAt < g.columns.ttl
    · rw [step_look_fresh hname hentry hfresh]
      simp [Effect.answerTo]
    · rw [step_look_stale hg hname hentry hfresh]
      dsimp only
      split <;> simp [Effect.answerTo, List.filterMap_cons]

theorem gone_look_of_empty {caller : Ticket} (h : g.Gone caller) (hname : t.name = "") (now : Nat) :
    (g.step now (.request caller (.columns t))).1.Gone caller ∧
      (g.step now (.request caller (.columns t))).2.filterMap (Effect.answerTo caller) =
        [.error .missingTable] := by
  rw [step_look_of_empty hname]
  exact ⟨h, by simp [Effect.answerTo]⟩

theorem bind_of_told {table : String} {outcome : Except Error Json} {columns : List Column}
    (h : told table outcome = .ok (.columns columns)) :
    outcome.bind columnsOfInfo = .ok columns := by
  unfold told at h
  split at h
  · next found hinfo =>
    cases h
    exact hinfo
  · cases h

/-- The columns that a caller is told are there when it asks, or land while it waits. -/
theorem landed_of_answer (hg : g.Refreshes) {caller : Ticket} (h : g.Gone caller) {run : Run}
    (hrun : ∀ e ∈ run, e.2.requester? ≠ some caller) {columns : List Column}
    (hmem : .ok (.columns columns) ∈
      g.answersTo caller ((now, .request caller (.columns t)) :: run)) :
    (∃ entry, g.columns.entries.get? t.name = some entry ∧ entry.columns = columns) ∨
      ∃ a done e b entry, run = a ++ (done, e) :: b ∧
        ((g.step now (.request caller (.columns t))).1.after a).Lands t.name entry done e ∧
        entry.columns = columns := by
  have hg' := refreshes_step hg now (.request caller (.columns t))
  rw [answersTo_cons, List.mem_append] at hmem
  by_cases hname : t.name = ""
  · obtain ⟨hgone, htold⟩ := gone_look_of_empty h hname now
    rw [htold, (answersTo_of_gone hg' hgone hrun).1] at hmem
    simp at hmem
  · cases hentry : g.columns.entries.get? t.name with
    | some entry =>
      obtain ⟨hgone, htold⟩ := gone_look hg h hname hentry now
      rw [htold, (answersTo_of_gone hg' hgone hrun).1] at hmem
      exact Or.inl ⟨entry, rfl, by simpa [eq_comm] using hmem⟩
    | none =>
      obtain ⟨hwaits, hnone⟩ := waitsFor_look hg h hname hentry now
      rw [hnone] at hmem
      rcases answersTo_of_waitsFor hg' hwaits hrun with
        ⟨-, hanswers, -⟩ | ⟨a, later, call, outcome, b, rfl, -, hp, hanswers, -⟩
      · rw [hanswers] at hmem
        simp at hmem
      · rw [hanswers] at hmem
        have htold : told t.name outcome = .ok (.columns columns) := by
          simpa [eq_comm] using hmem
        obtain ⟨info, rfl, hinfo⟩ := exists_info (bind_of_told htold)
        exact Or.inr ⟨a, later, _, b, ⟨columns, later⟩, rfl,
          ⟨rfl, call, info, rfl, hp, hinfo⟩, rfl⟩

end

/-- What a caller is told who asks after the columns were forgotten has landed since then. -/
theorem landed_since_cleared {g : Gateway} (hg : g.Refreshes) {caller clearer : Ticket}
    (h : g.Gone caller) {t u : TableRef} (hname : u.name = t.name) {mid post : Run}
    {cleared now : Nat}
    (hrun : ∀ e ∈ (cleared, Event.request clearer (.clear t)) :: (mid ++ post),
      e.2.requester? ≠ some caller) {columns : List Column}
    (hmem : .ok (.columns columns) ∈ g.answersTo caller
      ((cleared, .request clearer (.clear t)) ::
        (mid ++ (now, .request caller (.columns u)) :: post))) :
    ∃ a done e b entry, mid ++ (now, .request caller (.columns u)) :: post = a ++ (done, e) :: b ∧
      ((g.step cleared (.request clearer (.clear t))).1.after a).Lands t.name entry done e ∧
      entry.columns = columns := by
  have hg' := refreshes_step hg cleared (.request clearer (.clear t))
  have hforgets : (Event.request clearer (.clear t)).Forgets t.name := ⟨clearer, t, rfl, rfl⟩
  have hnone : (g.step cleared (.request clearer (.clear t))).1.columns.entries.get? t.name =
      none := by
    rw [get?_entries_step hg, changes_of_forgets hforgets]
    rfl
  obtain ⟨hhead, htail⟩ := List.forall_mem_cons.1 hrun
  obtain ⟨hgone, hsilent⟩ := gone_step hg h hhead cleared
  obtain ⟨hsilent', hgone'⟩ := answersTo_of_gone hg' hgone fun e he =>
    htail e (List.mem_append_left post he)
  rw [answersTo_cons, hsilent, List.nil_append, answersTo_append, hsilent', List.nil_append] at hmem
  rcases landed_of_answer (hg'.after mid) hgone' (fun e he =>
    htail e (List.mem_append_right mid he)) hmem with
    ⟨entry, hentry, rfl⟩ | ⟨a, done, e, b, entry, rfl, hlands, rfl⟩
  · rw [hname] at hentry
    obtain ⟨a, done, e, b, rfl, hlands, -⟩ := (get?_entries_iff hg' hnone mid entry).1 hentry
    exact ⟨a, done, e, b ++ (now, .request caller (.columns u)) :: post, entry,
      by rw [List.append_assoc, List.cons_append], hlands, rfl⟩
  · refine ⟨mid ++ (now, .request caller (.columns u)) :: a, done, e, b, entry,
      by rw [List.append_assoc, List.cons_append], ?_, rfl⟩
    rw [after_append, after_cons, ← hname]
    exact hlands

/--
**The cache is its history.** In every reachable state:

* a table has an entry when a refresh of it has ended well since its columns were last forgotten,
  and the entry is what the last such refresh has brought, with the time at which it ended;
* a refresh that fails changes no entry;
* a look-up that finds an entry is told its columns at once. It counts as a hit and changes nothing
  else while the entry is fresh; then it counts as stale, and queues a refresh if none is in flight.

So whoever asks for columns after they were forgotten, and for nothing else, is told only columns
that have landed since.
-/
theorem cache_history (ttl cooldown : Nat) (run : Run) :
    let start := empty ttl cooldown
    let g := start.after run
    (∀ table,
      ((∃ entry, g.columns.entries.get? table = some entry) ↔
        ∃ pre done e post entry, run = pre ++ (done, e) :: post ∧
          (start.after pre).Lands table entry done e ∧ ∀ d ∈ post, ¬d.2.Forgets table) ∧
      ∀ entry, g.columns.entries.get? table = some entry ↔
        ∃ pre done e post, run = pre ++ (done, e) :: post ∧
          (start.after pre).Lands table entry done e ∧
          (start.after (pre ++ [(done, e)])).gather (changes table) post = []) ∧
    (∀ now call table outcome cause, g.purpose? call = some (.refresh table) →
      outcome.bind columnsOfInfo = .error cause →
      (g.step now (.reply call outcome)).1.columns.entries = g.columns.entries) ∧
    (∀ now caller (t : TableRef) entry, t.name ≠ "" →
      g.columns.entries.get? t.name = some entry →
      let next := g.step now (.request caller (.columns t))
      let answer := Effect.answer caller (.ok (.columns entry.columns))
      let stale := { g.columns with stats.staleHits := g.columns.stats.staleHits + 1 }
      (now - entry.loadedAt < ttl →
        next = ({ g with columns := { g.columns with stats.hits := g.columns.stats.hits + 1 } },
          [answer])) ∧
      (¬now - entry.loadedAt < ttl →
        next.1.inFlight t.name = 1 ∧
          next = if g.inFlight t.name = 0 then
            ({ g with columns := stale.queue t.name [] }, [.queue t.name, answer])
          else ({ g with columns := stale }, [answer]))) ∧
    ∀ pre cleared clearer t mid now caller (u : TableRef) post,
      run = pre ++ (cleared, .request clearer (.clear t)) ::
        (mid ++ (now, .request caller (.columns u)) :: post) →
      u.name = t.name →
      (∀ e ∈ pre ++ (cleared, .request clearer (.clear t)) :: (mid ++ post),
        e.2.requester? ≠ some caller) →
      ∀ columns, .ok (.columns columns) ∈ start.answersTo caller run →
        ∃ a done e b entry,
          mid ++ (now, .request caller (.columns u)) :: post = a ++ (done, e) :: b ∧
          (start.after (pre ++ (cleared, .request clearer (.clear t)) :: a)).Lands
            t.name entry done e ∧
          entry.columns = columns := by
  intro start g
  have hstart : start.Refreshes := refreshes_empty ttl cooldown
  have hg : g.Refreshes := hstart.after run
  refine ⟨fun table => ⟨exists_entry_iff hstart rfl run, get?_entries_iff hstart rfl run⟩,
    ?_, ?_, ?_⟩
  · intro now call table outcome cause hp hfails
    rw [entries_of_ending hg hp, hfails]
  · intro now caller t entry hname hentry next answer stale
    have httl : g.columns.ttl = ttl := ttl_after ttl cooldown run
    rw [← httl]
    refine ⟨fun hfresh => step_look_fresh hname hentry hfresh caller, fun hstale =>
      ⟨inFlight_look_stale hg hname hentry hstale caller, ?_⟩⟩
    show g.step now (.request caller (.columns t)) = _
    rw [step_look_stale hg hname hentry hstale]
    dsimp only
    split <;> rfl
  · rintro pre cleared clearer t mid now caller u post rfl hname honly columns hmem
    have hfirst := gone_empty ttl cooldown caller
    obtain ⟨hsilent, hgone⟩ := answersTo_of_gone hstart hfirst fun e he =>
      honly e (List.mem_append_left _ he)
    rw [answersTo_append, hsilent, List.nil_append] at hmem
    obtain ⟨a, done, e, b, entry, hsplit, hlands, hcolumns⟩ :=
      landed_since_cleared (hstart.after pre) hgone hname
        (fun e he => honly e (List.mem_append_right pre he)) hmem
    refine ⟨a, done, e, b, entry, hsplit, ?_, hcolumns⟩
    rw [after_append, after_cons]
    exact hlands

-- A refresh lands that was under way when the columns were forgotten; the one that fails later
-- changes nothing.
example :
    ((empty 5 5).after
        [(0, .request 0 (.columns (.bare "t"))), (1, .begin "t"),
          (2, .request 1 (.clear (.bare "t"))),
          (3, .reply 0 (.ok (.obj [("columns", .obj [("ints", .arr [.str "x"])])]))),
          (9, .request 0 (.columns (.bare "t"))), (9, .begin "t"),
          (12, .reply 1 (.error .missingTable))]).columns.entries =
      [("t", ⟨[⟨"x", .integer⟩], 3⟩)] := by
  rfl

end Gateway

end StoreGateway
