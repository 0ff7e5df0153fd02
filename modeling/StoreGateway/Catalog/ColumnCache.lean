import StoreGateway.Catalog.Column
import StoreGateway.Ticket

/-!
# The column cache

The columns of a table are kept for a while after they were loaded. What is older is still served,
while a refresh loads it again; callers for a table that has no columns yet wait for one common
refresh. A refresh is a task of its own: it is queued, then begins by calling the query tool, and
ends with the tool's reply, whatever has become of the callers.

* `ColumnCache.lookup`: what a caller gets, and whether a refresh has to be queued for it;
* `ColumnCache.begin`, `ColumnCache.finish`: the steps of a refresh;
* `ColumnCache.invalidate`: forgets the columns of a table.
-/

namespace StoreGateway.Catalog

/-- The columns of a table and when they were loaded, in milliseconds. -/
structure Entry where
  columns : List Column
  loadedAt : Nat
deriving DecidableEq, Repr

/--
How often each thing has happened. The program counts in 64 bits, so its numbers are other than
these only after `2 ^ 64` events.
-/
structure CacheStats where
  hits : Nat
  staleHits : Nat
  misses : Nat
  coalesced : Nat
  fetches : Nat
deriving DecidableEq, Repr

structure ColumnCache where
  /-- How long columns count as fresh, in milliseconds. -/
  ttl : Nat
  entries : Fields Entry
  /-- The tables that are being refreshed, with the callers who wait for each, in order. -/
  waiting : Fields (List Ticket)
  /-- The refreshes that have not begun. -/
  queued : List String
  /-- The refreshes that wait for the query tool. -/
  loading : List String
  stats : CacheStats
deriving DecidableEq, Repr

/-- What a look-up gives: columns at once, or none yet; and whether it queued a refresh. -/
structure Lookup where
  columns : Option (List Column)
  queues : Bool
deriving DecidableEq, Repr

namespace ColumnCache

def empty (ttl : Nat) : ColumnCache :=
  ⟨ttl, [], [], [], [], ⟨0, 0, 0, 0, 0⟩⟩

def isRefreshing (c : ColumnCache) (table : String) : Bool :=
  c.waiting.contains table

/-- Columns are fresh until the time to live has passed. -/
def fresh (c : ColumnCache) (now : Nat) (e : Entry) : Bool :=
  now - e.loadedAt < c.ttl

/-- Queues a refresh of a table for the callers given. -/
def queue (c : ColumnCache) (table : String) (callers : List Ticket) : ColumnCache :=
  { c with waiting := c.waiting.insert table callers, queued := c.queued ++ [table] }

/-- A caller asks for the columns of a table. -/
def lookup (c : ColumnCache) (now : Nat) (table : String) (caller : Ticket) :
    Lookup × ColumnCache :=
  match c.entries.get? table with
  | some e =>
    if c.fresh now e then
      (⟨some e.columns, false⟩, { c with stats.hits := c.stats.hits + 1 })
    else
      let c := { c with stats.staleHits := c.stats.staleHits + 1 }
      if c.isRefreshing table then (⟨some e.columns, false⟩, c)
      else (⟨some e.columns, true⟩, c.queue table [])
  | none =>
    match c.waiting.get? table with
    | some callers =>
      (⟨none, false⟩,
        { c with
          waiting := c.waiting.insert table (callers ++ [caller])
          stats.coalesced := c.stats.coalesced + 1 })
    | none =>
      (⟨none, true⟩, { c with stats.misses := c.stats.misses + 1 }.queue table [caller])

/-- A queued refresh begins: from here on it waits for the query tool. -/
def begin (c : ColumnCache) (table : String) : ColumnCache :=
  if table ∈ c.queued then
    { c with
      queued := c.queued.erase table
      loading := c.loading ++ [table]
      stats.fetches := c.stats.fetches + 1 }
  else c

/-- The columns in the tool's reply. -/
def loaded (reply : Except Error Json) : Except Error (List Column) :=
  reply.bind columnsOfInfo

/-- What each caller gets who has waited for a refresh of the table. -/
def outcome (table : String) (reply : Except Error Json) : Except Error (List Column) :=
  (loaded reply).mapError fun e =>
    .metadata ("failed to load columns for " ++ table ++ ": " ++ e.message)

/-- A refresh ends with the tool's reply. The callers who waited for it are given back. -/
def finish (c : ColumnCache) (now : Nat) (table : String) (reply : Except Error Json) :
    List Ticket × ColumnCache :=
  if table ∈ c.loading then
    let entries := match loaded reply with
      | .ok columns => c.entries.insert table ⟨columns, now⟩
      | .error _ => c.entries
    ((c.waiting.get? table).getD [],
      { c with
        entries := entries
        waiting := c.waiting.erase table
        loading := c.loading.erase table })
  else ([], c)

/-- Forgets the columns of a table. A refresh that is under way still lands. -/
def invalidate (c : ColumnCache) (table : String) : ColumnCache :=
  { c with entries := c.entries.erase table }

end ColumnCache

end StoreGateway.Catalog
