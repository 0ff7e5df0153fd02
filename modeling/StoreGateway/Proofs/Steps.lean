import StoreGateway.Gateway.Basic

/-!
# What the operations of the gateway leave alone

Each operation of the gateway works on one of its parts, the cache, the scheduler or the calls.
Here stands for each of them what it does to the other parts.

* `Gateway.goOn_of_left`, `Gateway.goOn_of_nil`: a batch goes on with a call, or is over;
* `Gateway.close`, `Gateway.step_reply`: a reply ends its call, and goes on with what that was for.
-/

namespace StoreGateway

open Catalog Command Digest Query

namespace Gateway

section
variable (g : Gateway) (purpose : Purpose) (tool : Tool) (arguments : Arguments)
  (records : List Json)

@[simp]
theorem callTool_calls : (g.callTool purpose tool arguments records).1.calls =
    g.calls ++ [(g.nextCall, purpose)] := rfl

@[simp]
theorem callTool_nextCall :
    (g.callTool purpose tool arguments records).1.nextCall = g.nextCall + 1 := rfl

@[simp]
theorem callTool_effects : (g.callTool purpose tool arguments records).2 =
    [.call g.nextCall ⟨tool, arguments, records⟩] := rfl

end

/-! ## Batches -/

theorem goOn_of_left {b : Batch} {table : String} {rest : List String}
    (h : b.left = table :: rest) (g : Gateway) :
    g.goOn b = g.callTool (.digest b.number b.owner) .digest (tableArguments table) [] := by
  unfold goOn
  rw [h]

theorem goOn_of_nil {b : Batch} (h : b.left = []) (g : Gateway) :
    g.goOn b = (g, batchDone b.owner b.size) := by
  unfold goOn
  rw [h]

@[simp]
theorem goOn_columns (g : Gateway) (b : Batch) : (g.goOn b).1.columns = g.columns := by
  unfold goOn
  split <;> rfl

@[simp]
theorem goOn_digests (g : Gateway) (b : Batch) : (g.goOn b).1.digests = g.digests := by
  unfold goOn
  split <;> rfl

@[simp]
theorem flush_columns (g : Gateway) (owner : Owner) : (g.flush owner).1.columns = g.columns := by
  unfold flush
  split
  · rw [goOn_columns]
  · rfl

@[simp]
theorem flush_digests (g : Gateway) (owner : Owner) :
    (g.flush owner).1.digests = (g.digests.flush owner).2 := by
  unfold flush
  split
  · next b s h => rw [goOn_digests, h]
  · next s h => rw [h]

@[simp]
theorem expire_columns (g : Gateway) (generation : Nat) :
    (g.expire generation).1.columns = g.columns := by
  unfold expire
  split
  · rw [goOn_columns]
  · rfl

@[simp]
theorem expire_digests (g : Gateway) (generation : Nat) :
    (g.expire generation).1.digests = (g.digests.expire generation).2 := by
  unfold expire
  split
  · next b s h => rw [goOn_digests, h]
  · next s h => rw [h]

/-! ## Replies -/

/-- The gateway without a call, which is over. -/
def close (g : Gateway) (call : Nat) : Gateway :=
  { g with calls := g.calls.filter fun c => c.1 ≠ call }

theorem step_reply {g : Gateway} {call : Nat} {p : Purpose} (h : g.purpose? call = some p)
    (now : Nat) (outcome : Except Error Json) :
    g.step now (.reply call outcome) = (g.close call).resume now outcome p := by
  show g.reply now call outcome = _
  unfold reply
  rw [h]
  rfl

theorem step_reply_of_none {g : Gateway} {call : Nat} (h : g.purpose? call = none)
    (now : Nat) (outcome : Except Error Json) : g.step now (.reply call outcome) = (g, []) := by
  show g.reply now call outcome = _
  unfold reply
  rw [h]

/-! ## Marks and look-ups -/

@[simp]
theorem mark_effects (g : Gateway) (now : Nat) (table : String) :
    (g.mark now table).2 = (g.digests.mark now table).1.toList.map .arm := rfl

@[simp]
theorem lookup_columns (g : Gateway) (now : Nat) (caller : Ticket) (table : String) :
    (g.lookup now caller table).1.columns = (g.columns.lookup now table caller).2 := rfl

theorem lookup_effects (g : Gateway) (now : Nat) (caller : Ticket) (table : String) :
    (g.lookup now caller table).2 =
      (if (g.columns.lookup now table caller).1.queues then [.queue table] else []) ++
        (g.columns.lookup now table caller).1.columns.toList.map
          fun cs => .answer caller (.ok (.columns cs)) := rfl

theorem require_of_ne {table : TableRef} (h : table.name ≠ "") :
    table.require = .ok table.name := by
  unfold TableRef.require
  rw [if_neg h]

theorem require_of_eq {table : TableRef} (h : table.name = "") :
    table.require = .error .missingTable := by
  unfold TableRef.require
  rw [if_pos h]

/-- The columns of a table that has a name are looked up. -/
theorem step_look {table : TableRef} (h : table.name ≠ "") (g : Gateway) (now : Nat)
    (caller : Ticket) :
    g.step now (.request caller (.columns table)) = g.lookup now caller table.name := by
  show g.request now caller (.columns table) = _
  unfold request
  dsimp only
  rw [require_of_ne h]

theorem step_look_of_empty {table : TableRef} (h : table.name = "") (g : Gateway) (now : Nat)
    (caller : Ticket) :
    g.step now (.request caller (.columns table)) =
      (g, [.answer caller (.error .missingTable)]) := by
  show g.request now caller (.columns table) = _
  unfold request
  dsimp only
  rw [require_of_eq h]

end Gateway

end StoreGateway
