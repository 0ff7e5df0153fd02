import StoreGateway.Proofs.SchedulerMoves

/-!
# The calls of the gateway

A step of the gateway ends some calls and makes at most one. What the new call is for is told by
the event.

* `Event.keeps`: the calls that go on after an event;
* `Gateway.Opens`: what an event may make a call for;
* `Gateway.step_calls`: the calls after a step;
* `Gateway.CallsNumbered`: no two calls have the same number.
-/

namespace StoreGateway

open Catalog Command Digest Query

/-- A call goes on after an event that neither answers it nor takes away its caller. -/
def Event.keeps : Event → Nat × Purpose → Bool
  | .reply call _, c => decide (c.1 ≠ call)
  | .drop caller, c => decide (c.2.caller? ≠ some caller)
  | _, _ => true

namespace Gateway

/-- What an event may make a call for. -/
inductive Opens (g : Gateway) : Event → Purpose → Prop
  | run (caller : Ticket) (table : TableRef) (spec : Spec) (unweight : Bool) :
    Opens g (.request caller (.run table spec unweight)) (.run caller spec)
  | stats (caller : Ticket) (table : TableRef) :
    Opens g (.request caller (.stats table)) (.stats caller)
  | tables (caller : Ticket) : Opens g (.request caller .tables) (.tables caller)
  | add (caller : Ticket) (dataset subset : String) (samples : List Json) :
    Opens g (.request caller (.add dataset subset samples)) (.add caller (tableName dataset subset))
  | refresh {table : String} (h : table ∈ g.columns.queued) :
    Opens g (.begin table) (.refresh table)
  | flush (caller : Ticket) (batch : Nat) :
    Opens g (.request caller .flush) (.digest batch (.flush caller))
  | shutdown (caller : Ticket) (batch : Nat) :
    Opens g (.request caller .shutdown) (.digest batch (.shutdown caller))
  | expire (generation batch : Nat) : Opens g (.expire generation) (.digest batch .timer)
  | launched {call : Nat} {b : Batch} (h : b ∈ g.digests.batches) (outcome : Except Error Json) :
    Opens g (.reply call outcome) (.digest b.number b.owner)

/-- After an event there are the calls that it keeps, and behind them the one that it makes. -/
structure CallsAfter (g : Gateway) (e : Event) (g' : Gateway) (made : Option Purpose) : Prop where
  calls : g'.calls = g.calls.filter e.keeps ++ (made.map (g.nextCall, ·)).toList
  next : g'.nextCall = g.nextCall + made.toList.length
  opens : ∀ p, made = some p → g.Opens e p

section
variable {g g' : Gateway} {e : Event}

theorem callsAfter_none (hcalls : g'.calls = g.calls.filter e.keeps)
    (hnext : g'.nextCall = g.nextCall) : ∃ made, g.CallsAfter e g' made :=
  ⟨none, by simp [hcalls], hnext, fun _ h => by cases h⟩

theorem callsAfter_callTool {p : Purpose} (hcalls : g'.calls = g.calls.filter e.keeps)
    (hnext : g'.nextCall = g.nextCall) (h : g.Opens e p) (tool : Tool) (arguments : Arguments)
    (records : List Json) :
    ∃ made, g.CallsAfter e (g'.callTool p tool arguments records).1 made := by
  refine ⟨some p, ?_, ?_, ?_⟩
  · rw [callTool_calls, hcalls, hnext]
    rfl
  · rw [callTool_nextCall, hnext]
    rfl
  · rintro q ⟨⟩
    exact h

theorem callsAfter_goOn {b : Batch} (hcalls : g'.calls = g.calls.filter e.keeps)
    (hnext : g'.nextCall = g.nextCall) (h : g.Opens e (.digest b.number b.owner)) :
    ∃ made, g.CallsAfter e (g'.goOn b).1 made := by
  cases hleft : b.left with
  | nil =>
    rw [goOn_of_nil hleft]
    exact callsAfter_none hcalls hnext
  | cons table rest =>
    rw [goOn_of_left hleft]
    exact callsAfter_callTool hcalls hnext h _ _ _

end

theorem filter_keeps {e : Event} (h : ∀ c, e.keeps c = true) (calls : List (Nat × Purpose)) :
    calls.filter e.keeps = calls :=
  List.filter_eq_self.2 fun c _ => h c

theorem flush_callsAfter {g : Gateway} {e : Event} {owner : Owner} (hkeeps : ∀ c, e.keeps c = true)
    (h : ∀ batch, g.Opens e (.digest batch owner)) :
    ∃ made, g.CallsAfter e (g.flush owner).1 made := by
  have hcalls : g.calls = g.calls.filter e.keeps := (filter_keeps hkeeps g.calls).symm
  unfold flush
  split
  · next b s hflush =>
    rw [Scheduler.flush_eq] at hflush
    obtain ⟨-, rfl, -⟩ := Scheduler.launch_batch hflush
    exact callsAfter_goOn hcalls rfl (h _)
  · exact callsAfter_none hcalls rfl

theorem request_callsAfter (g : Gateway) (now : Nat) (caller : Ticket) (r : Request) :
    ∃ made, g.CallsAfter (.request caller r) (g.request now caller r).1 made := by
  have hkeeps : ∀ c, (Event.request caller r).keeps c = true := fun _ => rfl
  have hcalls : g.calls = g.calls.filter (Event.request caller r).keeps :=
    (filter_keeps hkeeps g.calls).symm
  cases r with
  | run table spec unweight =>
    unfold request
    dsimp only
    split
    · exact callsAfter_callTool hcalls rfl (.run ..) _ _ _
    · exact callsAfter_none hcalls rfl
  | columns table =>
    unfold request
    dsimp only
    split <;> exact callsAfter_none hcalls rfl
  | stats table =>
    unfold request
    dsimp only
    split
    · exact callsAfter_callTool hcalls rfl (.stats ..) _ _ _
    · exact callsAfter_none hcalls rfl
  | tables => exact callsAfter_callTool hcalls rfl (.tables caller) _ _ _
  | add dataset subset samples =>
    unfold request
    dsimp only
    split
    · exact callsAfter_none hcalls rfl
    · exact callsAfter_callTool hcalls rfl (.add ..) _ _ _
  | clear table => exact callsAfter_none hcalls rfl
  | mark table => exact callsAfter_none hcalls rfl
  | flush => exact flush_callsAfter hkeeps fun batch => .flush caller batch
  | shutdown => exact flush_callsAfter hkeeps fun batch => .shutdown caller batch

theorem reply_callsAfter (g : Gateway) (now call : Nat) (outcome : Except Error Json) :
    ∃ made, g.CallsAfter (.reply call outcome) (g.step now (.reply call outcome)).1 made := by
  cases h : g.purpose? call with
  | none =>
    rw [step_reply_of_none h]
    refine callsAfter_none (List.filter_eq_self.2 fun c hc => ?_).symm rfl
    unfold purpose? at h
    rw [Option.map_eq_none_iff, List.find?_eq_none] at h
    simpa [Event.keeps] using h c hc
  | some p =>
    rw [step_reply h]
    cases p with
    | add caller table => cases outcome <;> exact callsAfter_none rfl rfl
    | digest batch owner =>
      unfold resume
      dsimp only
      split
      · next b s hlaunched =>
        obtain ⟨c, hc, -, rfl⟩ := Scheduler.launched_some (congrArg Prod.fst hlaunched)
        have hbatch : c ∈ g.digests.batches := hc
        exact callsAfter_goOn rfl rfl (.launched hbatch outcome)
      · exact callsAfter_none rfl rfl
    | run _ _ | stats _ | tables _ | refresh _ => exact callsAfter_none rfl rfl

/-- **After a step there are the calls that its event keeps, and at most one more.** -/
theorem step_calls (g : Gateway) (now : Nat) (e : Event) :
    ∃ made, g.CallsAfter e (g.step now e).1 made := by
  cases e with
  | request caller r => exact request_callsAfter g now caller r
  | begin table =>
    have hcalls : g.calls = g.calls.filter (Event.begin table).keeps :=
      (filter_keeps (fun _ => rfl) g.calls).symm
    show ∃ made, g.CallsAfter (.begin table) (g.beginRefresh table).1 made
    unfold beginRefresh
    split
    · next h =>
      refine callsAfter_callTool ?_ ?_ (.refresh h) _ _ _
      · exact hcalls
      · rfl
    · exact callsAfter_none hcalls rfl
  | reply call outcome => exact reply_callsAfter g now call outcome
  | expire generation =>
    have hcalls : g.calls = g.calls.filter (Event.expire generation).keeps :=
      (filter_keeps (fun _ => rfl) g.calls).symm
    show ∃ made, g.CallsAfter (.expire generation) (g.expire generation).1 made
    unfold expire
    split
    · next b s hexpire =>
      have howner : b.owner = .timer := Scheduler.expire_owner (congrArg Prod.fst hexpire)
      exact callsAfter_goOn hcalls rfl (howner ▸ .expire generation b.number)
    · exact callsAfter_none hcalls rfl
  | notice generation => exact callsAfter_none (filter_keeps (fun _ => rfl) g.calls).symm rfl
  | drop caller => exact callsAfter_none rfl rfl

/-! ## The numbers of calls -/

def CallsNumbered (g : Gateway) : Prop :=
  Numbered Prod.fst g.nextCall g.calls

theorem callsNumbered_empty (ttl cooldown : Nat) : (empty ttl cooldown).CallsNumbered :=
  .nil

theorem callsNumbered_step {g : Gateway} (now : Nat) (e : Event) (h : g.CallsNumbered) :
    (g.step now e).1.CallsNumbered := by
  obtain ⟨made, hcalls, hnext, -⟩ := step_calls g now e
  unfold CallsNumbered
  rw [hcalls, hnext]
  cases made with
  | none =>
    show Numbered Prod.fst g.nextCall (g.calls.filter e.keeps ++ [])
    rw [List.append_nil]
    exact h.filter e.keeps
  | some p => exact (h.filter e.keeps).concat rfl

theorem mem_of_purpose? {g : Gateway} {call : Nat} {p : Purpose} (h : g.purpose? call = some p) :
    (call, p) ∈ g.calls := by
  unfold purpose? at h
  obtain ⟨⟨n, q⟩, hfind, rfl⟩ := Option.map_eq_some_iff.1 h
  obtain rfl : n = call := by simpa using List.find?_some hfind
  exact List.mem_of_find?_eq_some hfind

end Gateway

end StoreGateway
