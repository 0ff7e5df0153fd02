import StoreGateway.Proofs.Calls

/-!
# What the gateway wants done, and why

Every effect of a step has its cause in the event: a request is answered to its caller, a reply to
whoever has waited for it.

* `Gateway.Causes`: the effects that an event may have;
* `Gateway.causes_of_mem`: a step has no others.
-/

namespace StoreGateway

open Catalog Command Digest Query

namespace Gateway

/-- The effects that an event may have. -/
inductive Causes (g : Gateway) : Event → Effect → Prop
  | call (e : Event) (number : Nat) (c : Call) : Causes g e (.call number c)
  | arm (e : Event) (t : Timer) : Causes g e (.arm t)
  | queue (caller : Ticket) (table : TableRef) :
    Causes g (.request caller (.columns table)) (.queue table.name)
  | looked (caller : Ticket) (table : TableRef) (columns : List Column) :
    Causes g (.request caller (.columns table)) (.answer caller (.ok (.columns columns)))
  | unnamed (caller : Ticket) (table : TableRef) :
    Causes g (.request caller (.columns table)) (.answer caller (.error .missingTable))
  | asked {r : Request} (h : ∀ table, r ≠ .columns table) (caller : Ticket)
    (result : Except Error Answer) : Causes g (.request caller r) (.answer caller result)
  | replied {call : Nat} {p : Purpose} {caller : Ticket} (h : (call, p) ∈ g.calls)
    (hcaller : p.caller? = some caller) (outcome : Except Error Json)
    (result : Except Error Answer) : Causes g (.reply call outcome) (.answer caller result)
  | launched {b : Batch} {caller : Ticket} (h : b ∈ g.digests.batches)
    (hcaller : b.owner.caller? = some caller) (call : Nat) (outcome : Except Error Json)
    (result : Except Error Answer) : Causes g (.reply call outcome) (.answer caller result)
  | refreshed {call : Nat} {table : String} {caller : Ticket} {callers : List Ticket}
    (h : g.purpose? call = some (.refresh table))
    (hwaiting : g.columns.waiting.get? table = some callers) (hcaller : caller ∈ callers)
    (outcome : Except Error Json) :
    Causes g (.reply call outcome)
      (.answer caller ((ColumnCache.outcome table outcome).map .columns))

theorem causes_of_callTool {g g' : Gateway} {e : Event} {p : Purpose} {tool : Tool}
    {arguments : Arguments} {records : List Json} {effect : Effect}
    (h : effect ∈ (g'.callTool p tool arguments records).2) : g.Causes e effect := by
  rw [callTool_effects, List.mem_singleton] at h
  rw [h]
  exact .call e _ _

/-- A batch that goes on answers to its caller, if it answers at all. -/
theorem causes_of_goOn {g g' : Gateway} {e : Event} {b : Batch} {effect : Effect}
    (h : effect ∈ (g'.goOn b).2)
    (hcaller : ∀ caller result, b.owner.caller? = some caller →
      g.Causes e (.answer caller result)) : g.Causes e effect := by
  cases hleft : b.left with
  | nil =>
    rw [goOn_of_nil hleft] at h
    cases howner : b.owner with
    | timer => simp [howner, batchDone] at h
    | flush caller =>
      obtain rfl : effect = .answer caller (.ok (.count b.size)) := by
        simpa [howner, batchDone] using h
      exact hcaller caller _ (by rw [howner]; rfl)
    | shutdown caller =>
      obtain rfl : effect = .answer caller (.ok .done) := by
        simpa [howner, batchDone] using h
      exact hcaller caller _ (by rw [howner]; rfl)
  | cons table rest =>
    rw [goOn_of_left hleft] at h
    exact causes_of_callTool h

theorem causes_of_mark {g g' : Gateway} {e : Event} {now : Nat} {table : String} {effect : Effect}
    (h : effect ∈ (g'.mark now table).2) : g.Causes e effect := by
  rw [mark_effects] at h
  obtain ⟨t, -, rfl⟩ := List.mem_map.1 h
  exact .arm e t

theorem causes_of_flush {g : Gateway} {e : Event} {owner : Owner} {effect : Effect}
    (h : effect ∈ (g.flush owner).2)
    (hcaller : ∀ caller result, owner.caller? = some caller →
      g.Causes e (.answer caller result)) : g.Causes e effect := by
  unfold flush at h
  split at h
  · next b s hflush =>
    rw [Scheduler.flush_eq] at hflush
    obtain ⟨-, rfl, -⟩ := Scheduler.launch_batch hflush
    exact causes_of_goOn h hcaller
  · cases owner with
    | timer => cases h
    | flush caller =>
      obtain rfl : effect = .answer caller (.ok (.count 0)) := by simpa [batchDone] using h
      exact hcaller caller _ rfl
    | shutdown caller =>
      obtain rfl : effect = .answer caller (.ok .done) := by simpa [batchDone] using h
      exact hcaller caller _ rfl

theorem causes_of_look {g : Gateway} {now : Nat} {caller : Ticket} {table : TableRef}
    {effect : Effect} (h : effect ∈ (g.step now (.request caller (.columns table))).2) :
    g.Causes (.request caller (.columns table)) effect := by
  by_cases hname : table.name = ""
  · rw [step_look_of_empty hname, List.mem_singleton] at h
    rw [h]
    exact .unnamed caller table
  · rw [step_look hname, lookup_effects] at h
    rcases List.mem_append.1 h with h | h
    · rw [List.mem_singleton.1 (List.mem_ite_nil_right.1 h).2]
      exact .queue caller table
    · obtain ⟨columns, -, rfl⟩ := List.mem_map.1 h
      exact .looked caller table columns

theorem causes_of_request {g : Gateway} {now : Nat} {caller : Ticket} {r : Request}
    {effect : Effect} (h : effect ∈ (g.step now (.request caller r)).2) :
    g.Causes (.request caller r) effect := by
  by_cases hcolumns : ∃ table, r = .columns table
  · obtain ⟨table, rfl⟩ := hcolumns
    exact causes_of_look h
  · have hasked : ∀ result, g.Causes (.request caller r) (.answer caller result) :=
      .asked (fun table hr => hcolumns ⟨table, hr⟩) caller
    change effect ∈ (g.request now caller r).2 at h
    cases r with
    | columns table => exact absurd ⟨table, rfl⟩ hcolumns
    | run table spec unweight =>
      unfold request at h
      dsimp only at h
      split at h
      · exact causes_of_callTool h
      · rw [List.mem_singleton.1 h]
        exact hasked _
    | stats table =>
      unfold request at h
      dsimp only at h
      split at h
      · exact causes_of_callTool h
      · rw [List.mem_singleton.1 h]
        exact hasked _
    | tables => exact causes_of_callTool h
    | add dataset subset samples =>
      unfold request at h
      dsimp only at h
      split at h
      · rw [List.mem_singleton.1 h]
        exact hasked _
      · exact causes_of_callTool h
    | clear table =>
      rw [List.mem_singleton.1 h]
      exact hasked _
    | mark table =>
      rcases List.mem_append.1 h with h | h
      · exact causes_of_mark h
      · rw [List.mem_singleton.1 h]
        exact hasked _
    | flush =>
      refine causes_of_flush h fun c result hc => ?_
      obtain rfl : caller = c := by simpa [Owner.caller?] using hc
      exact hasked result
    | shutdown =>
      refine causes_of_flush h fun c result hc => ?_
      obtain rfl : caller = c := by simpa [Owner.caller?] using hc
      exact hasked result

theorem causes_of_reply {g : Gateway} {now call : Nat} {outcome : Except Error Json}
    {effect : Effect} (h : effect ∈ (g.step now (.reply call outcome)).2) :
    g.Causes (.reply call outcome) effect := by
  cases hp : g.purpose? call with
  | none =>
    rw [step_reply_of_none hp] at h
    cases h
  | some p =>
    rw [step_reply hp] at h
    have hmem := mem_of_purpose? hp
    cases p with
    | run caller spec =>
      rw [List.mem_singleton.1 h]
      exact .replied hmem rfl outcome _
    | stats caller =>
      rw [List.mem_singleton.1 h]
      exact .replied hmem rfl outcome _
    | tables caller =>
      rw [List.mem_singleton.1 h]
      exact .replied hmem rfl outcome _
    | add caller table =>
      cases outcome with
      | error e =>
        rw [List.mem_singleton.1 h]
        exact .replied hmem rfl _ _
      | ok v =>
        rcases List.mem_append.1 h with h | h
        · exact causes_of_mark h
        · rw [List.mem_singleton.1 h]
          exact .replied hmem rfl _ _
    | refresh table =>
      obtain ⟨caller, hcaller, rfl⟩ := List.mem_map.1 h
      change caller ∈ (g.columns.finish now table outcome).1 at hcaller
      unfold ColumnCache.finish at hcaller
      split at hcaller
      · cases hwaiting : g.columns.waiting.get? table with
        | none => simp [hwaiting] at hcaller
        | some callers =>
          exact .refreshed hp hwaiting (by simpa [hwaiting] using hcaller) outcome
      · cases hcaller
    | digest batch owner =>
      unfold resume at h
      dsimp only at h
      split at h
      · next b s hlaunched =>
        obtain ⟨c, hc, -, rfl⟩ := Scheduler.launched_some (congrArg Prod.fst hlaunched)
        have hbatch : c ∈ g.digests.batches := hc
        exact causes_of_goOn h fun caller result hcaller =>
          .launched hbatch hcaller call outcome result
      · cases h

/-- **Every effect of a step is caused by its event.** -/
theorem causes_of_mem {g : Gateway} {now : Nat} {e : Event} {effect : Effect}
    (h : effect ∈ (g.step now e).2) : g.Causes e effect := by
  cases e with
  | request caller r => exact causes_of_request h
  | begin table =>
    change effect ∈ (g.beginRefresh table).2 at h
    unfold beginRefresh at h
    split at h
    · exact causes_of_callTool h
    · cases h
  | reply call outcome => exact causes_of_reply h
  | expire generation =>
    change effect ∈ (g.expire generation).2 at h
    unfold expire at h
    split at h
    · next b s hexpire =>
      refine causes_of_goOn h fun caller result hcaller => ?_
      rw [Scheduler.expire_owner (congrArg Prod.fst hexpire)] at hcaller
      cases hcaller
    · cases h
  | notice generation => cases h
  | drop caller => cases h

end Gateway

end StoreGateway
