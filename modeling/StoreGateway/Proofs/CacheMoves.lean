import StoreGateway.Proofs.Runs
import StoreGateway.Proofs.Steps

/-!
# What a run does to the column cache

Each step of the gateway is at most one move of its cache: a look-up, an invalidation, or the
begin or the end of a refresh.

* `ColumnCache.Move`, `ColumnCache.move`: the moves of a cache, all of them total;
* `Gateway.cacheMove?`: the move that an event makes;
* `Gateway.step_columns`: a step of the gateway makes that move, and no other.
-/

namespace StoreGateway

open Catalog Command Digest Query

namespace Catalog.ColumnCache

inductive Move where
  | look (table : String) (caller : Ticket)
  | invalidate (table : String)
  | begin (table : String)
  | finish (table : String) (reply : Except Error Json)

def move (c : ColumnCache) (now : Nat) : Move → ColumnCache
  | .look table caller => (c.lookup now table caller).2
  | .invalidate table => c.invalidate table
  | .begin table => c.begin table
  | .finish table reply => (c.finish now table reply).2

end Catalog.ColumnCache

namespace Gateway

open ColumnCache (Move)

/-- The move of the cache that the reply to a call makes. -/
def replyMove? (outcome : Except Error Json) : Purpose → Option Move
  | .refresh table => some (.finish table outcome)
  | _ => none

/-- The move of the cache that an event makes. -/
def cacheMove? (g : Gateway) : Event → Option Move
  | .request caller (.columns table) =>
    if table.name = "" then none else some (.look table.name caller)
  | .request _ (.clear table) => some (.invalidate table.name)
  | .begin table => some (.begin table)
  | .reply call outcome => (g.purpose? call).bind (replyMove? outcome)
  | _ => none

/-- A request that is neither for columns nor clears them leaves the cache alone. -/
theorem request_columns {r : Request} (hcolumns : ∀ table, r ≠ .columns table)
    (hclear : ∀ table, r ≠ .clear table) (g : Gateway) (now : Nat) (caller : Ticket) :
    (g.request now caller r).1.columns = g.columns := by
  cases r with
  | run table spec unweight => unfold request; dsimp only; split <;> rfl
  | columns table => exact absurd rfl (hcolumns table)
  | stats table => unfold request; dsimp only; split <;> rfl
  | tables => rfl
  | add dataset subset samples => unfold request; dsimp only; split <;> rfl
  | clear table => exact absurd rfl (hclear table)
  | mark table => rfl
  | flush => exact flush_columns g (.flush caller)
  | shutdown => exact flush_columns g (.shutdown caller)

/-- A reply ends a refresh, or it leaves the cache alone. -/
theorem resume_columns (g : Gateway) (now : Nat) (outcome : Except Error Json) (p : Purpose) :
    (g.resume now outcome p).1.columns =
      (replyMove? outcome p).elim g.columns (g.columns.move now) := by
  cases p with
  | add caller table => cases outcome <;> rfl
  | digest batch owner =>
    show (g.resume now outcome (.digest batch owner)).1.columns = g.columns
    unfold resume
    dsimp only
    split
    · rw [goOn_columns]
    · rfl
  | run _ _ | stats _ | tables _ | refresh _ => rfl

/-- **A step of the gateway makes the move of its event on the cache, and no other.** -/
theorem step_columns (g : Gateway) (now : Nat) (e : Event) :
    (g.step now e).1.columns = (g.cacheMove? e).elim g.columns (g.columns.move now) := by
  cases e with
  | request caller r =>
    cases r with
    | columns table =>
      by_cases h : table.name = ""
      · rw [step_look_of_empty h]
        simp [cacheMove?, h]
      · rw [step_look h]
        simp [cacheMove?, h, ColumnCache.move]
    | clear table => rfl
    | run _ _ _ | stats _ | tables | add _ _ _ | mark _ | flush | shutdown =>
      exact request_columns (by simp) (by simp) g now caller
  | begin table =>
    show (g.beginRefresh table).1.columns = g.columns.begin table
    unfold beginRefresh
    split
    · rfl
    · next h =>
      unfold ColumnCache.begin
      rw [if_neg h]
  | reply call outcome =>
    cases h : g.purpose? call with
    | none =>
      rw [step_reply_of_none h]
      simp [cacheMove?, h]
    | some p =>
      rw [step_reply h, resume_columns]
      simp [cacheMove?, h, close]
  | expire generation => exact expire_columns g generation
  | notice generation => rfl
  | drop caller => rfl

end Gateway

end StoreGateway
