import StoreGateway.Fields.Order
import StoreGateway.Proofs.CacheHistory

/-!
# Tables are apart

A move of the cache reads and changes what is held for its own table, and it adds to at most one
counter. So what the cache holds for a table, and whatever is told about it, does not depend on the
moves on other tables, nor on where they come in between.

* `ColumnCache.lookup_eq`: a look-up by what it finds, `ColumnCache.finding`;
* `ColumnCache.Agree`: two caches hold the same for a table;
* `ColumnCache.agree_other`, `Agree.move`: a move leaves other tables alone, and does the same to
  its own table wherever the same is held;
* `ColumnCache.stats_move`: the counter that a move adds to;
* `ColumnCache.Visible`, `ColumnCache.seen`: what can be seen of a move, and of all moves on one
  table;
* `ColumnCache.Alike`, `ColumnCache.alike_of_apart`: two moves on different tables, in either order.
-/

namespace StoreGateway

open Catalog Command Digest Query

namespace Catalog

/-- What the cache counts. -/
inductive Counter where
  | hits | staleHits | misses | coalesced | fetches
deriving DecidableEq, Repr

namespace CacheStats

/-- One more is counted. -/
def bump (s : CacheStats) : Counter → CacheStats
  | .hits => { s with hits := s.hits + 1 }
  | .staleHits => { s with staleHits := s.staleHits + 1 }
  | .misses => { s with misses := s.misses + 1 }
  | .coalesced => { s with coalesced := s.coalesced + 1 }
  | .fetches => { s with fetches := s.fetches + 1 }

theorem bump_comm (s : CacheStats) (j k : Counter) : (s.bump j).bump k = (s.bump k).bump j := by
  cases j <;> cases k <;> rfl

/-- One more is counted, if anything is. -/
def bump? (s : CacheStats) (k : Option Counter) : CacheStats :=
  k.elim s s.bump

theorem bump?_comm (s : CacheStats) (j k : Option Counter) :
    (s.bump? j).bump? k = (s.bump? k).bump? j := by
  cases j with
  | none => rfl
  | some j =>
    cases k with
    | none => rfl
    | some k => exact bump_comm s j k

end CacheStats

namespace ColumnCache

def Move.table : Move → String
  | .look table _ | .invalidate table | .begin table | .finish table _ => table

/-! ## What a look-up finds -/

/-- What a look-up counts as: by the columns that are there, and else by the refresh that is. -/
def finding (c : ColumnCache) (now : Nat) (table : String) : Counter :=
  match c.entries.get? table with
  | some e => if c.fresh now e then .hits else .staleHits
  | none => if c.isRefreshing table then .coalesced else .misses

/-- Whether a look-up queues a refresh: it finds neither fresh columns nor a refresh in flight. -/
def renews (c : ColumnCache) (now : Nat) (table : String) : Bool :=
  decide (c.finding now table ≠ .hits) && !c.isRefreshing table

/-- Who waits after a look-up. -/
def joined (c : ColumnCache) (now : Nat) (table : String) (caller : Ticket) :
    Fields (List Ticket) :=
  if c.entries.get? table = none then c.waiting.insert table (c.waiters table ++ [caller])
  else if c.renews now table then c.waiting.insert table []
  else c.waiting

section
variable {c : ColumnCache} {table : String}

theorem finding_of_some {e : Entry} (h : c.entries.get? table = some e) (now : Nat) :
    c.finding now table = if c.fresh now e then .hits else .staleHits := by
  unfold finding
  rw [h]

theorem finding_of_none (h : c.entries.get? table = none) (now : Nat) :
    c.finding now table = if c.isRefreshing table then .coalesced else .misses := by
  unfold finding
  rw [h]

theorem get?_waiting_of_isRefreshing (h : c.isRefreshing table = true) :
    c.waiting.get? table = some (c.waiters table) := by
  obtain ⟨callers, hcallers⟩ := Option.isSome_iff_exists.1 h
  unfold waiters
  rw [hcallers]
  rfl

theorem lookup_of_some {e : Entry} (h : c.entries.get? table = some e) (now : Nat)
    (caller : Ticket) :
    c.lookup now table caller =
      (⟨some e.columns, c.renews now table⟩,
        { c with
          waiting := if c.renews now table then c.waiting.insert table [] else c.waiting
          queued := c.queued ++ if c.renews now table then [table] else []
          stats := c.stats.bump (c.finding now table) }) := by
  unfold renews
  rw [finding_of_some h]
  cases hfresh : c.fresh now e with
  | true =>
    rw [lookup_fresh h hfresh]
    simp [CacheStats.bump]
  | false =>
    rw [lookup_stale h hfresh]
    cases c.isRefreshing table <;> simp [CacheStats.bump, queue]

theorem lookup_of_none (h : c.entries.get? table = none) (now : Nat) (caller : Ticket) :
    c.lookup now table caller =
      (⟨none, c.renews now table⟩,
        { c with
          waiting := c.waiting.insert table (c.waiters table ++ [caller])
          queued := c.queued ++ if c.renews now table then [table] else []
          stats := c.stats.bump (c.finding now table) }) := by
  unfold renews lookup
  rw [finding_of_none h, h]
  cases hrefreshing : c.isRefreshing table with
  | true =>
    rw [get?_waiting_of_isRefreshing hrefreshing]
    simp [CacheStats.bump]
  | false =>
    have hnone : c.waiting.get? table = none := by
      simpa [isRefreshing, Fields.contains] using hrefreshing
    rw [hnone, waiters_of_idle hrefreshing]
    simp [CacheStats.bump, queue]

/-- **A look-up, by what it finds.** -/
theorem lookup_eq (c : ColumnCache) (now : Nat) (table : String) (caller : Ticket) :
    c.lookup now table caller =
      (⟨(c.entries.get? table).map Entry.columns, c.renews now table⟩,
        { c with
          waiting := c.joined now table caller
          queued := c.queued ++ if c.renews now table then [table] else []
          stats := c.stats.bump (c.finding now table) }) := by
  unfold joined
  cases h : c.entries.get? table with
  | some e => rw [lookup_of_some h, if_neg (Option.some_ne_none e), Option.map_some]
  | none => rw [lookup_of_none h, if_pos rfl, Option.map_none]

end

/-! ## What is held for a table -/

/-- Two caches hold the same for a table. -/
structure Agree (table : String) (c d : ColumnCache) : Prop where
  ttl : d.ttl = c.ttl
  entry : d.entries.get? table = c.entries.get? table
  waiting : d.waiting.get? table = c.waiting.get? table
  queued : d.queued.count table = c.queued.count table
  loading : d.loading.count table = c.loading.count table

namespace Agree

variable {table : String} {b c d : ColumnCache}

theorem refl (table : String) (c : ColumnCache) : Agree table c c :=
  ⟨rfl, rfl, rfl, rfl, rfl⟩

theorem symm (h : Agree table c d) : Agree table d c :=
  ⟨h.ttl.symm, h.entry.symm, h.waiting.symm, h.queued.symm, h.loading.symm⟩

theorem trans (h : Agree table b c) (h' : Agree table c d) : Agree table b d :=
  ⟨h'.ttl.trans h.ttl, h'.entry.trans h.entry, h'.waiting.trans h.waiting,
    h'.queued.trans h.queued, h'.loading.trans h.loading⟩

section
variable (h : Agree table c d)
include h

theorem isRefreshing_eq : d.isRefreshing table = c.isRefreshing table := by
  unfold isRefreshing Fields.contains
  rw [h.waiting]

theorem waiters_eq : d.waiters table = c.waiters table := by
  unfold waiters
  rw [h.waiting]

theorem finding_eq (now : Nat) : d.finding now table = c.finding now table := by
  unfold finding fresh
  rw [h.entry, h.ttl, h.isRefreshing_eq]

theorem renews_eq (now : Nat) : d.renews now table = c.renews now table := by
  unfold renews
  rw [h.finding_eq, h.isRefreshing_eq]

theorem mem_queued_iff : table ∈ d.queued ↔ table ∈ c.queued := by
  rw [← List.count_pos_iff, ← List.count_pos_iff, h.queued]

theorem mem_loading_iff : table ∈ d.loading ↔ table ∈ c.loading := by
  rw [← List.count_pos_iff, ← List.count_pos_iff, h.loading]

end

end Agree

/-! ## A move on another table -/

section
variable {table other : String} (h : table ≠ other)
include h

theorem count_singleton_of_ne : [table].count other = 0 := by
  rw [List.count_singleton, if_neg (by simpa using h)]

theorem get?_joined_of_ne (c : ColumnCache) (now : Nat) (caller : Ticket) :
    (c.joined now table caller).get? other = c.waiting.get? other := by
  unfold joined
  split
  · rw [Fields.get?_insert, if_neg h]
  · split
    · rw [Fields.get?_insert, if_neg h]
    · rfl

theorem agree_lookup_of_ne (c : ColumnCache) (now : Nat) (caller : Ticket) :
    Agree other c (c.lookup now table caller).2 := by
  have hqueued : (c.queued ++ if c.renews now table then [table] else []).count other =
      c.queued.count other := by
    rw [List.count_append]
    split
    · rw [count_singleton_of_ne h, Nat.add_zero]
    · rfl
  rw [lookup_eq]
  exact ⟨rfl, rfl, get?_joined_of_ne h c now caller, hqueued, rfl⟩

theorem agree_invalidate_of_ne (c : ColumnCache) : Agree other c (c.invalidate table) := by
  have hentry : (c.entries.erase table).get? other = c.entries.get? other := by
    rw [Fields.get?_erase, if_neg h]
  exact ⟨rfl, hentry, rfl, rfl, rfl⟩

theorem agree_begin_of_ne (c : ColumnCache) : Agree other c (c.begin table) := by
  unfold begin
  split
  · have hqueued : (c.queued.erase table).count other = c.queued.count other :=
      List.count_erase_of_ne (Ne.symm h)
    have hloading : (c.loading ++ [table]).count other = c.loading.count other := by
      rw [List.count_append, count_singleton_of_ne h, Nat.add_zero]
    exact ⟨rfl, rfl, rfl, hqueued, hloading⟩
  · exact .refl other c

theorem agree_finish_of_ne (c : ColumnCache) (now : Nat) (reply : Except Error Json) :
    Agree other c (c.finish now table reply).2 := by
  by_cases hmem : table ∈ c.loading
  · have hwaiting : (c.waiting.erase table).get? other = c.waiting.get? other := by
      rw [Fields.get?_erase, if_neg h]
    have hloading : (c.loading.erase table).count other = c.loading.count other :=
      List.count_erase_of_ne (Ne.symm h)
    rw [finish_of_mem hmem]
    refine ⟨rfl, ?_, hwaiting, rfl, hloading⟩
    dsimp only
    split
    · rw [Fields.get?_insert, if_neg h]
    · rfl
  · rw [finish_of_not_mem hmem]
    exact .refl other c

end

/-- **A move leaves alone what is held for other tables.** -/
theorem agree_other {m : Move} {table : String} (h : m.table ≠ table) (c : ColumnCache)
    (now : Nat) : Agree table c (c.move now m) := by
  cases m with
  | look t caller => exact agree_lookup_of_ne h c now caller
  | invalidate t => exact agree_invalidate_of_ne h c
  | begin t => exact agree_begin_of_ne h c
  | finish t reply => exact agree_finish_of_ne h c now reply

/-! ## A move on the table itself -/

namespace Agree

section
variable {table : String} {c d : ColumnCache} (h : Agree table c d)
include h

theorem get?_joined (now : Nat) (caller : Ticket) :
    (d.joined now table caller).get? table = (c.joined now table caller).get? table := by
  unfold joined
  rw [h.entry, h.renews_eq, h.waiters_eq]
  split
  · rw [Fields.get?_insert, Fields.get?_insert, if_pos rfl, if_pos rfl]
  · split
    · rw [Fields.get?_insert, Fields.get?_insert, if_pos rfl, if_pos rfl]
    · exact h.waiting

theorem lookup (now : Nat) (caller : Ticket) :
    Agree table (c.lookup now table caller).2 (d.lookup now table caller).2 := by
  have hqueued : (d.queued ++ if d.renews now table then [table] else []).count table =
      (c.queued ++ if c.renews now table then [table] else []).count table := by
    rw [List.count_append, List.count_append, h.queued, h.renews_eq]
  rw [lookup_eq, lookup_eq]
  exact ⟨h.ttl, h.entry, h.get?_joined now caller, hqueued, h.loading⟩

theorem invalidate : Agree table (c.invalidate table) (d.invalidate table) := by
  have hentry : (d.entries.erase table).get? table = (c.entries.erase table).get? table := by
    rw [Fields.get?_erase, Fields.get?_erase, if_pos rfl, if_pos rfl]
  exact ⟨h.ttl, hentry, h.waiting, h.queued, h.loading⟩

theorem begin : Agree table (c.begin table) (d.begin table) := by
  unfold ColumnCache.begin
  by_cases hmem : table ∈ c.queued
  · have hqueued : (d.queued.erase table).count table = (c.queued.erase table).count table := by
      rw [List.count_erase_self, List.count_erase_self, h.queued]
    have hloading : (d.loading ++ [table]).count table = (c.loading ++ [table]).count table := by
      rw [List.count_append, List.count_append, h.loading]
    rw [if_pos hmem, if_pos (h.mem_queued_iff.2 hmem)]
    exact ⟨h.ttl, h.entry, h.waiting, hqueued, hloading⟩
  · rw [if_neg hmem, if_neg fun hd => hmem (h.mem_queued_iff.1 hd)]
    exact h

theorem finish (now : Nat) (reply : Except Error Json) :
    Agree table (c.finish now table reply).2 (d.finish now table reply).2 := by
  by_cases hmem : table ∈ c.loading
  · have hwaiting : (d.waiting.erase table).get? table = (c.waiting.erase table).get? table := by
      rw [Fields.get?_erase, Fields.get?_erase, if_pos rfl, if_pos rfl]
    have hloading : (d.loading.erase table).count table = (c.loading.erase table).count table := by
      rw [List.count_erase_self, List.count_erase_self, h.loading]
    rw [finish_of_mem hmem, finish_of_mem (h.mem_loading_iff.2 hmem)]
    refine ⟨h.ttl, ?_, hwaiting, h.queued, hloading⟩
    dsimp only
    split
    · rw [Fields.get?_insert, Fields.get?_insert, if_pos rfl, if_pos rfl]
    · exact h.entry
  · rw [finish_of_not_mem hmem, finish_of_not_mem fun hd => hmem (h.mem_loading_iff.1 hd)]
    exact h

end

/-- **A move does the same to its own table in caches that hold the same for it.** -/
theorem move {m : Move} {c d : ColumnCache} (h : Agree m.table c d) (now : Nat) :
    Agree m.table (c.move now m) (d.move now m) := by
  cases m with
  | look t caller => exact h.lookup now caller
  | invalidate t => exact h.invalidate
  | begin t => exact h.begin
  | finish t reply => exact h.finish now reply

/-- A move keeps what two caches hold alike, whatever its table. -/
theorem step {table : String} {c d : ColumnCache} (h : Agree table c d) (now : Nat) (m : Move) :
    Agree table (c.move now m) (d.move now m) := by
  by_cases hm : m.table = table
  · subst hm
    exact h.move now
  · exact ((agree_other hm c now).symm.trans h).trans (agree_other hm d now)

end Agree

/-! ## What can be seen of a move -/

/-- What a move counts as, whether it queues a refresh, and who is told what, in order. -/
structure Visible where
  counted : Option Counter
  queues : Bool
  told : List (Ticket × Except Error (List Column))

def visible (c : ColumnCache) (now : Nat) : Move → Visible
  | .look table caller =>
    let found := (c.lookup now table caller).1
    ⟨some (c.finding now table), found.queues,
      found.columns.toList.map fun columns => (caller, .ok columns)⟩
  | .begin table => ⟨if table ∈ c.queued then some .fetches else none, false, []⟩
  | .finish table reply =>
    ⟨none, false, (c.finish now table reply).1.map fun caller => (caller, outcome table reply)⟩
  | .invalidate _ => ⟨none, false, []⟩

/-- A move adds to the counter that it counts as, and to no other. -/
theorem stats_move (c : ColumnCache) (now : Nat) (m : Move) :
    (c.move now m).stats = c.stats.bump? (c.visible now m).counted := by
  cases m with
  | look table caller =>
    show (c.lookup now table caller).2.stats = _
    rw [lookup_eq]
    rfl
  | invalidate table => rfl
  | begin table =>
    show (c.begin table).stats = c.stats.bump? (if table ∈ c.queued then some .fetches else none)
    unfold begin
    split <;> rfl
  | finish table reply =>
    show (c.finish now table reply).2.stats = c.stats
    unfold finish
    split <;> rfl

theorem Agree.visible_look {table : String} {c d : ColumnCache} (h : Agree table c d) (now : Nat)
    (caller : Ticket) :
    d.visible now (.look table caller) = c.visible now (.look table caller) := by
  show (⟨some (d.finding now table), (d.lookup now table caller).1.queues, _⟩ : Visible) =
    ⟨some (c.finding now table), (c.lookup now table caller).1.queues, _⟩
  rw [lookup_eq, lookup_eq, h.finding_eq, h.entry, h.renews_eq]

theorem Agree.visible_begin {table : String} {c d : ColumnCache} (h : Agree table c d) (now : Nat) :
    d.visible now (.begin table) = c.visible now (.begin table) := by
  show (⟨if table ∈ d.queued then some .fetches else none, false, []⟩ : Visible) =
    ⟨if table ∈ c.queued then some .fetches else none, false, []⟩
  simp only [h.mem_queued_iff]

theorem Agree.visible_finish {table : String} {c d : ColumnCache} (h : Agree table c d) (now : Nat)
    (reply : Except Error Json) :
    d.visible now (.finish table reply) = c.visible now (.finish table reply) := by
  have hcallers : (d.finish now table reply).1 = (c.finish now table reply).1 := by
    by_cases hmem : table ∈ c.loading
    · rw [finish_of_mem hmem, finish_of_mem (h.mem_loading_iff.2 hmem), h.waiting]
    · rw [finish_of_not_mem hmem, finish_of_not_mem fun hd => hmem (h.mem_loading_iff.1 hd)]
  show (⟨none, false, (d.finish now table reply).1.map _⟩ : Visible) =
    ⟨none, false, (c.finish now table reply).1.map _⟩
  rw [hcallers]

/-- Where the same is held for its table, the same is seen of a move. -/
theorem Agree.visible_eq {m : Move} {c d : ColumnCache} (h : Agree m.table c d) (now : Nat) :
    d.visible now m = c.visible now m := by
  cases m with
  | look t caller => exact h.visible_look now caller
  | invalidate t => rfl
  | begin t => exact h.visible_begin now
  | finish t reply => exact h.visible_finish now reply

/-- What can be seen of the moves on a table, in order. -/
def seen (table : String) : ColumnCache → List (Nat × Move) → List Visible
  | _, [] => []
  | c, (now, m) :: moves =>
    (if m.table = table then [c.visible now m] else []) ++ seen table (c.move now m) moves

/-- Where the same is held for a table, the same is seen of it from then on. -/
theorem Agree.seen_eq {table : String} {c d : ColumnCache} (h : Agree table c d)
    (moves : List (Nat × Move)) : seen table d moves = seen table c moves := by
  induction moves generalizing c d with
  | nil => rfl
  | cons e moves ih =>
    obtain ⟨now, m⟩ := e
    have hrest : seen table (d.move now m) moves = seen table (c.move now m) moves :=
      ih (h.step now m)
    unfold seen
    rw [hrest]
    by_cases hm : m.table = table
    · subst hm
      rw [h.visible_eq]
    · rw [if_neg hm, if_neg hm]

/-! ## Two moves in either order -/

/-- Two caches that hold the same for every table, and have counted the same. -/
structure Alike (c d : ColumnCache) : Prop where
  entries : ∀ table, d.entries.get? table = c.entries.get? table
  waiting : ∀ table, d.waiting.get? table = c.waiting.get? table
  queued : d.queued.Perm c.queued
  loading : d.loading.Perm c.loading
  stats : d.stats = c.stats

theorem alike_of_agree {c d : ColumnCache} (h : ∀ table, Agree table c d)
    (hstats : d.stats = c.stats) : Alike c d :=
  ⟨fun table => (h table).entry, fun table => (h table).waiting,
    List.perm_iff_count.2 fun table => (h table).queued,
    List.perm_iff_count.2 fun table => (h table).loading, hstats⟩

section
variable {m m' : Move} (h : m.table ≠ m'.table) (c : ColumnCache) (now later : Nat)
include h

/-- A move on another table does not change what is seen of a move. -/
theorem visible_of_apart : (c.move now m).visible later m' = c.visible later m' :=
  (agree_other h c now).visible_eq later

theorem agree_of_apart (table : String) :
    Agree table ((c.move now m).move later m') ((c.move later m').move now m) := by
  by_cases hm : m.table = table
  · -- The other move leaves the table alone, wherever it comes.
    have hother : m'.table ≠ table := fun e => h (hm.trans e.symm)
    exact (agree_other hother (c.move now m) later).symm.trans
      ((agree_other hother c later).step now m)
  · exact ((agree_other hm c now).symm.step later m').trans
      (agree_other hm (c.move later m') now)

theorem stats_of_apart :
    ((c.move later m').move now m).stats = ((c.move now m).move later m').stats := by
  rw [stats_move, stats_move, stats_move, stats_move, visible_of_apart h c now later,
    visible_of_apart h.symm c later now, CacheStats.bump?_comm]

theorem alike_of_apart : Alike ((c.move now m).move later m') ((c.move later m').move now m) :=
  alike_of_agree (agree_of_apart h c now later) (stats_of_apart h c now later)

end

/-! ## Entries and callers in order -/

/-- The tables stand in order, both those with columns and those that are waited for. -/
structure Ordered (c : ColumnCache) : Prop where
  entries : c.entries.Ascending
  waiting : c.waiting.Ascending

theorem ordered_empty (ttl : Nat) : (empty ttl).Ordered :=
  ⟨.nil, .nil⟩

theorem ascending_joined {c : ColumnCache} (h : c.Ordered) (now : Nat) (table : String)
    (caller : Ticket) : (c.joined now table caller).Ascending := by
  unfold joined
  split
  · exact Fields.ascending_insert h.waiting table _
  · split
    · exact Fields.ascending_insert h.waiting table _
    · exact h.waiting

theorem ordered_finish {c : ColumnCache} (h : c.Ordered) (now : Nat) (table : String)
    (reply : Except Error Json) : (c.finish now table reply).2.Ordered := by
  by_cases hmem : table ∈ c.loading
  · rw [finish_of_mem hmem]
    refine ⟨?_, Fields.ascending_erase h.waiting table⟩
    dsimp only
    split
    · exact Fields.ascending_insert h.entries table _
    · exact h.entries
  · rw [finish_of_not_mem hmem]
    exact h

theorem ordered_move {c : ColumnCache} (h : c.Ordered) (now : Nat) (m : Move) :
    (c.move now m).Ordered := by
  cases m with
  | look table caller =>
    show (c.lookup now table caller).2.Ordered
    rw [lookup_eq]
    exact ⟨h.entries, ascending_joined h now table caller⟩
  | invalidate table => exact ⟨Fields.ascending_erase h.entries table, h.waiting⟩
  | begin table =>
    show (c.begin table).Ordered
    unfold begin
    split
    · exact ⟨h.entries, h.waiting⟩
    · exact h
  | finish table reply => exact ordered_finish h now table reply

theorem Alike.eq_of_ordered {c d : ColumnCache} (h : Alike c d) (hc : c.Ordered) (hd : d.Ordered) :
    d.entries = c.entries ∧ d.waiting = c.waiting :=
  ⟨Fields.eq_of_get? hd.entries hc.entries h.entries,
    Fields.eq_of_get? hd.waiting hc.waiting h.waiting⟩

end ColumnCache

end Catalog

namespace Gateway

open ColumnCache (Move)

theorem ordered_after (ttl cooldown : Nat) (run : Run) :
    ((empty ttl cooldown).after run).columns.Ordered := by
  refine after_induction (P := fun g => g.columns.Ordered) (ColumnCache.ordered_empty ttl)
    (fun g now e h => ?_) run
  rw [step_columns]
  cases g.cacheMove? e with
  | none => exact h
  | some m => exact ColumnCache.ordered_move h now m

/-- The move of a look-up, of the begin and of the end of a refresh, by the event that makes it. -/
theorem cacheMove?_cases {g : Gateway} {e : Event} {m : Move} (h : g.cacheMove? e = some m) :
    (∃ caller t, e = .request caller (.columns t) ∧ t.name ≠ "" ∧ m = .look t.name caller) ∨
      (∃ caller t, e = .request caller (.clear t) ∧ m = .invalidate t.name) ∨
      (∃ table, e = .begin table ∧ m = .begin table) ∨
      ∃ call outcome table, e = .reply call outcome ∧ g.purpose? call = some (.refresh table) ∧
        m = .finish table outcome := by
  cases e with
  | request caller r =>
    cases r with
    | columns t =>
      obtain ⟨hname, ⟨⟩⟩ := Option.ite_none_left_eq_some.1 h
      exact .inl ⟨caller, t, rfl, hname, rfl⟩
    | clear t =>
      cases h
      exact .inr (.inl ⟨caller, t, rfl, rfl⟩)
    | run _ _ _ | stats _ | tables | add _ _ _ | mark _ | flush | shutdown => cases h
  | begin table =>
    cases h
    exact .inr (.inr (.inl ⟨table, rfl, rfl⟩))
  | reply call outcome =>
    obtain ⟨p, hp, hmove⟩ := Option.bind_eq_some_iff.1 h
    cases p with
    | refresh table =>
      cases hmove
      exact .inr (.inr (.inr ⟨call, outcome, table, rfl, hp, rfl⟩))
    | run _ _ | stats _ | tables _ | add _ _ | digest _ _ => cases hmove
  | expire _ | notice _ | drop _ => cases h

/-- Whom an event tells something, and what, by what can be seen of its move of the cache. Who clears
a table is told that it is done, whatever was there. -/
def answersOf (v : ColumnCache.Visible) : Event → List (Ticket × Except Error Answer)
  | .request caller (.clear _) => [(caller, .ok .done)]
  | _ => v.told.map fun a => (a.1, a.2.map .columns)

/-- A step of the gateway tells its callers what can be seen of its move of the cache. -/
theorem answers_of_move {g : Gateway} {e : Event} {m : Move} (h : g.cacheMove? e = some m)
    (now : Nat) :
    (g.step now e).2.filterMap Effect.answer? = answersOf (g.columns.visible now m) e := by
  rcases cacheMove?_cases h with ⟨caller, t, rfl, hname, rfl⟩ | ⟨caller, t, rfl, rfl⟩ |
    ⟨table, rfl, rfl⟩ | ⟨call, outcome, table, rfl, hp, rfl⟩
  · rw [step_look hname, lookup_effects, List.filterMap_append]
    show _ ++ _ = (((g.columns.lookup now t.name caller).1.columns.toList.map _).map _)
    cases (g.columns.lookup now t.name caller).1.columns <;>
      cases (g.columns.lookup now t.name caller).1.queues <;> rfl
  · rfl
  · show (g.beginRefresh table).2.filterMap Effect.answer? = []
    unfold beginRefresh
    split <;> rfl
  · rw [step_reply hp]
    show (((g.columns.finish now table outcome).1.map _).filterMap _) =
      ((g.columns.finish now table outcome).1.map _).map _
    rw [List.filterMap_map, List.map_map]
    exact congrFun List.filterMap_eq_map' _

/--
**Tables are apart.** Of two moves of the cache on different tables, in every state:

* either order leaves the same entries, the same callers waiting, the same refreshes and the same
  counters, and in every reachable state the very same lists of entries and of callers;
* what each of them counts as, whether it queues a refresh, and who is told what is the same in
  either order;
* a move leaves alone what is held for any other table, and whatever follows, all that is seen of
  the moves on that table is what would have been seen without it.

These are the moves that the steps of a gateway make, and what is seen of them is what the callers
are told.
-/
theorem tables_apart (g : Gateway) (now later : Nat) {m m' : Move} (h : m.table ≠ m'.table) :
    let c := g.columns
    let first := (c.move now m).move later m'
    let second := (c.move later m').move now m
    (ColumnCache.Alike first second ∧
      ∀ ttl cooldown run, g = (empty ttl cooldown).after run →
        second.entries = first.entries ∧ second.waiting = first.waiting) ∧
    ((c.move later m').visible now m = c.visible now m ∧
      (c.move now m).visible later m' = c.visible later m') ∧
    (∀ table, m.table ≠ table → ColumnCache.Agree table c (c.move now m) ∧
      ∀ moves, ColumnCache.seen table (c.move now m) moves = ColumnCache.seen table c moves) ∧
    ∀ e, g.cacheMove? e = some m → (g.step now e).1.columns = c.move now m ∧
      (g.step now e).2.filterMap Effect.answer? = answersOf (c.visible now m) e := by
  intro c first second
  have halike : ColumnCache.Alike first second := ColumnCache.alike_of_apart h c now later
  refine ⟨⟨halike, ?_⟩, ⟨?_, ?_⟩, ?_, ?_⟩
  · rintro ttl cooldown run rfl
    have hc : c.Ordered := ordered_after ttl cooldown run
    have hfirst : first.Ordered :=
      ColumnCache.ordered_move (ColumnCache.ordered_move hc now m) later m'
    have hsecond : second.Ordered :=
      ColumnCache.ordered_move (ColumnCache.ordered_move hc later m') now m
    exact halike.eq_of_ordered hfirst hsecond
  · exact ColumnCache.visible_of_apart h.symm c later now
  · exact ColumnCache.visible_of_apart h c now later
  · intro table htable
    have hagree : ColumnCache.Agree table c (c.move now m) := ColumnCache.agree_other htable c now
    exact ⟨hagree, hagree.seen_eq⟩
  · intro e hmove
    refine ⟨?_, answers_of_move hmove now⟩
    rw [step_columns, hmove]
    rfl

/-- Stale columns are served, and a refresh of another table fails, in either order. -/
theorem tables_apart_stale_and_failing :
    let g := (empty 5 0).after
      [(0, .request 0 (.columns (.bare "a"))), (0, .begin "a"),
        (1, .reply 0 (.ok (.obj [("columns", .obj [("ints", .arr [.str "x"])])]))),
        (9, .request 1 (.columns (.bare "b"))), (9, .begin "b")]
    let look := Move.look "a" 2
    let fails := Move.finish "b" (.error .missingTable)
    look.table ≠ fails.table ∧
      g.columns.visible 9 look = ⟨some .staleHits, true, [(2, .ok [⟨"x", .integer⟩])]⟩ ∧
      (g.columns.move 9 fails).visible 9 look = g.columns.visible 9 look ∧
      ColumnCache.Alike ((g.columns.move 9 look).move 9 fails)
        ((g.columns.move 9 fails).move 9 look) := by
  intro g look fails
  have hne : look.table ≠ fails.table := by decide
  obtain ⟨⟨halike, -⟩, ⟨hvisible, -⟩, -⟩ := tables_apart g 9 9 hne
  exact ⟨hne, rfl, hvisible, halike⟩

end Gateway

end StoreGateway
