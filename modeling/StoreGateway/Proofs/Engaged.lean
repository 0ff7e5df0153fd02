import StoreGateway.Proofs.Calls

/-!
# Callers who are engaged

Some callers need the gateway to go on for them: a call is made for them, or a batch launched. Who
only looks up columns is never engaged in this way, and may as well go away.

* `Event.AsksElse`: a request for something else than columns;
* `Gateway.Engaged`: a call is made, or a batch launched, for a caller;
* `Gateway.engaged_step`: only a request for something else than columns engages its caller;
* `Gateway.effects_without_drops`: the drops of those who only look up columns are without effect.
-/

namespace StoreGateway

open Catalog Command Digest Query

/-- An event that asks for something else than columns for a caller. -/
def Event.AsksElse (caller : Ticket) (e : Event) : Prop :=
  ∃ r, e = .request caller r ∧ ∀ table, r ≠ .columns table

theorem Event.not_asksElse {caller : Ticket} {e : Event} (h : e.requester? ≠ some caller) :
    ¬e.AsksElse caller := by
  rintro ⟨r, rfl, -⟩
  exact h rfl

/-- The drop of one of some callers. -/
def Event.drops (callers : List Ticket) : Event → Bool
  | .drop caller => decide (caller ∈ callers)
  | _ => false

theorem Event.exists_of_drops {callers : List Ticket} {e : Event} (h : e.drops callers = true) :
    ∃ caller ∈ callers, e = .drop caller := by
  cases e with
  | drop caller => exact ⟨caller, of_decide_eq_true h, rfl⟩
  | request _ _ | begin _ | reply _ _ | expire _ | notice _ => cases h

namespace Gateway

/-- A call is made, or a batch launched, for a caller. -/
def Engaged (g : Gateway) (caller : Ticket) : Prop :=
  (∃ c ∈ g.calls, c.2.caller? = some caller) ∨
    ∃ b ∈ g.digests.batches, b.owner.caller? = some caller

theorem Opens.engaged {g : Gateway} {e : Event} {p : Purpose} {caller : Ticket} (h : g.Opens e p)
    (hcaller : p.caller? = some caller) : g.Engaged caller ∨ e.AsksElse caller := by
  cases h with
  | run c table spec unweight =>
    cases hcaller
    exact Or.inr ⟨_, rfl, by simp⟩
  | stats c table =>
    cases hcaller
    exact Or.inr ⟨_, rfl, by simp⟩
  | tables c =>
    cases hcaller
    exact Or.inr ⟨_, rfl, by simp⟩
  | add c dataset subset samples =>
    cases hcaller
    exact Or.inr ⟨_, rfl, by simp⟩
  | refresh => cases hcaller
  | flush c batch =>
    cases hcaller
    exact Or.inr ⟨_, rfl, by simp⟩
  | shutdown c batch =>
    cases hcaller
    exact Or.inr ⟨_, rfl, by simp⟩
  | expire => cases hcaller
  | launched hb outcome => exact Or.inl (Or.inr ⟨_, hb, hcaller⟩)

/-- A caller is not engaged by its looking up columns. -/
theorem engaged_step {g : Gateway} {now : Nat} {e : Event} {caller : Ticket}
    (h : (g.step now e).1.Engaged caller) : g.Engaged caller ∨ e.AsksElse caller := by
  rcases h with ⟨c, hc, hcaller⟩ | ⟨b, hb, hcaller⟩
  · obtain ⟨made, hmade⟩ := step_calls g now e
    rw [hmade.calls, List.mem_append, Option.mem_toList] at hc
    rcases hc with hc | hc
    · exact Or.inl (Or.inl ⟨c, List.mem_of_mem_filter hc, hcaller⟩)
    · obtain ⟨p, hp, rfl⟩ := Option.map_eq_some_iff.1 hc
      exact (hmade.opens p hp).engaged hcaller
  · rw [step_digests] at hb
    cases hm : g.schedulerMove? e with
    | none =>
      rw [hm] at hb
      exact Or.inl (Or.inr ⟨b, hb, hcaller⟩)
    | some m =>
      rw [hm] at hb
      rcases Scheduler.owner_of_mem_move hb with ⟨c, hc, howner⟩ | howner | rfl
      · exact Or.inl (Or.inr ⟨c, hc, howner ▸ hcaller⟩)
      · rw [howner] at hcaller
        cases hcaller
      · obtain ⟨c, hc, he⟩ := request_of_schedulerMove? hm
        obtain rfl : c = caller := Option.some.inj (hc.symm.trans hcaller)
        rcases he with rfl | rfl
        · exact Or.inr ⟨_, rfl, by simp⟩
        · exact Or.inr ⟨_, rfl, by simp⟩

theorem not_engaged_step {g : Gateway} {e : Event} {caller : Ticket} (h : ¬g.Engaged caller)
    (he : ¬e.AsksElse caller) (now : Nat) : ¬(g.step now e).1.Engaged caller :=
  fun h' => (engaged_step h').elim h he

/-! ## Callers who go away -/

/-- The drop of a caller for whom no call is made and no batch launched changes nothing. -/
theorem step_drop {g : Gateway} {caller : Ticket} (h : ¬g.Engaged caller) (now : Nat) :
    g.step now (.drop caller) = (g, []) := by
  have hcalls : g.calls.filter (fun c => c.2.caller? ≠ some caller) = g.calls := by
    rw [List.filter_eq_self]
    exact fun c hc => decide_eq_true fun hcaller => h (Or.inl ⟨c, hc, hcaller⟩)
  have hbatches : g.digests.batches.filter (fun b => b.owner.caller? ≠ some caller) =
      g.digests.batches := by
    rw [List.filter_eq_self]
    exact fun b hb => decide_eq_true fun hcaller => h (Or.inr ⟨b, hb, hcaller⟩)
  show (g.drop caller, []) = (g, [])
  unfold drop Scheduler.drop
  rw [hcalls, hbatches]

/-- Whether those who only look up columns go away or stay is of no consequence. -/
theorem effects_without_drops {g : Gateway} {callers : List Ticket} {run : Run}
    (hfree : ∀ caller ∈ callers, ¬g.Engaged caller)
    (hrun : ∀ caller ∈ callers, ∀ e ∈ run, ¬e.2.AsksElse caller) :
    g.after (run.filter fun e => !e.2.drops callers) = g.after run ∧
      g.effects (run.filter fun e => !e.2.drops callers) = g.effects run := by
  induction run generalizing g with
  | nil => exact ⟨rfl, rfl⟩
  | cons e run ih =>
    obtain ⟨now, e⟩ := e
    obtain ⟨hafter, heffects⟩ := @ih (g.step now e).1
      (fun caller hcaller =>
        not_engaged_step (hfree caller hcaller) (hrun caller hcaller _ List.mem_cons_self) now)
      fun caller hcaller d hd => hrun caller hcaller d (List.mem_cons_of_mem _ hd)
    by_cases hdrops : e.drops callers = true
    · obtain ⟨caller, hcaller, rfl⟩ := Event.exists_of_drops hdrops
      rw [step_drop (hfree caller hcaller)] at hafter heffects
      rw [List.filter_cons_of_neg (by simpa using hdrops), hafter, heffects, after_cons,
        effects_cons, step_drop (hfree caller hcaller)]
      exact ⟨rfl, rfl⟩
    · rw [List.filter_cons_of_pos (by simpa using hdrops), after_cons, effects_cons, hafter,
        heffects]
      exact ⟨rfl, rfl⟩

end Gateway

end StoreGateway
