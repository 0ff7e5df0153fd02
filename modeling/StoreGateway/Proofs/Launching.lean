import StoreGateway.Proofs.Calls

/-!
# Batches that are being launched

A batch goes from table to table: while it is being launched, the digest tool has been called for
the first of the tables left, and that call has not been answered.

* `Scheduler.mem_batches_move`: the batches after a move, the old ones and the one that goes on;
* `Gateway.exists_goOn`: a step that begins a batch or goes on with one does nothing else after that;
* `Gateway.LaunchesCalled`: each batch that is being launched waits for a call of its own.
-/

namespace StoreGateway

open Catalog Command Digest Query

namespace Digest.Scheduler

/-- A batch after a move was there and is left alone, or it is the one that begins or goes on. -/
theorem mem_batches_move {s : Scheduler} {now : Nat} {m : Move} {b : Batch}
    (h : b ∈ (s.move now m).batches) :
    (b ∈ s.batches ∧ m ≠ .launched b.number ∧
        ∀ caller, m = .drop caller → b.owner.caller? ≠ some caller) ∨
      (s.batch? m = some b ∧ b.left ≠ []) := by
  cases m with
  | mark table =>
    change b ∈ (s.mark now table).2.batches at h
    rw [mark_batches] at h
    exact Or.inl ⟨h, by simp, by simp⟩
  | expire w =>
    change b ∈ (s.expire w).2.batches at h
    rw [expire_batches, List.mem_append, Option.mem_toList] at h
    rcases h with h | h
    · exact Or.inl ⟨h, by simp, by simp⟩
    · refine Or.inr ⟨h, ?_⟩
      unfold expire at h
      split at h
      · obtain ⟨hne, rfl, -⟩ := launch_batch (Prod.ext h rfl)
        exact hne
      · cases h
  | notice w => exact Or.inl ⟨h, by simp, by simp⟩
  | flush owner =>
    change b ∈ (s.flush owner).2.batches at h
    rw [flush_batches, List.mem_append, Option.mem_toList] at h
    rcases h with h | h
    · exact Or.inl ⟨h, by simp, by simp⟩
    · refine Or.inr ⟨h, ?_⟩
      rw [flush_eq] at h
      obtain ⟨hne, rfl, -⟩ := launch_batch (Prod.ext h rfl)
      exact hne
  | launched batch =>
    change b ∈ (s.launched batch).2.batches at h
    show _ ∨ ((s.launched batch).1 = some b ∧ _)
    unfold launched at h ⊢
    cases hfind : s.batches.find? (fun c => c.number = batch) with
    | none =>
      rw [hfind] at h
      rw [List.find?_eq_none] at hfind
      refine Or.inl ⟨h, ?_, by simp⟩
      rintro ⟨⟩
      exact hfind b h (by simp)
    | some c =>
      rw [hfind] at h
      dsimp only at h ⊢
      split at h
      · obtain ⟨hmem, hne⟩ := List.mem_filter.1 h
        refine Or.inl ⟨hmem, ?_, by simp⟩
        rintro ⟨⟩
        exact of_decide_eq_true hne rfl
      · next hleft =>
        obtain ⟨d, hd, rfl⟩ := List.mem_map.1 h
        split
        · exact Or.inr ⟨rfl, by simpa using hleft⟩
        · next hne =>
          refine Or.inl ⟨hd, ?_, by simp⟩
          rintro ⟨⟩
          exact hne rfl
  | drop caller =>
    obtain ⟨hmem, hne⟩ := List.mem_filter.1 h
    refine Or.inl ⟨hmem, by simp, ?_⟩
    rintro c ⟨⟩
    exact of_decide_eq_true hne

end Digest.Scheduler

namespace Gateway

/-- A step that begins a batch, or goes on with one, goes on with it last of all. -/
theorem exists_goOn {g : Gateway} {e : Event} {b : Batch}
    (h : (g.schedulerMove? e).bind g.digests.batch? = some b) (now : Nat) :
    ∃ g' : Gateway, g.step now e = g'.goOn b := by
  obtain ⟨m, hm, hb⟩ := Option.bind_eq_some_iff.1 h
  have hflush : ∀ owner, (g.digests.flush owner).1 = some b →
      ∃ g' : Gateway, g.flush owner = g'.goOn b := by
    intro owner hb
    have hbatch : g.digests.flush owner = (some b, (g.digests.flush owner).2) := Prod.ext hb rfl
    refine ⟨{ g with digests := (g.digests.flush owner).2 }, ?_⟩
    unfold flush
    rw [hbatch]
  cases e with
  | request caller r =>
    cases r with
    | mark table =>
      cases hm
      cases hb
    | flush =>
      cases hm
      exact hflush _ hb
    | shutdown =>
      cases hm
      exact hflush _ hb
    | run _ _ _ | columns _ | stats _ | tables | add _ _ _ | clear _ => cases hm
  | reply call outcome =>
    obtain ⟨p, hp, hmove⟩ := Option.bind_eq_some_iff.1 hm
    cases p with
    | add caller table =>
      obtain ⟨v, -, rfl⟩ := Option.map_eq_some_iff.1 hmove
      cases hb
    | digest batch owner =>
      cases hmove
      refine ⟨{ g.close call with digests := (g.digests.launched batch).2 }, ?_⟩
      have hbatch : (g.close call).digests.launched batch =
          (some b, (g.digests.launched batch).2) := Prod.ext hb rfl
      rw [step_reply hp]
      unfold resume
      dsimp only
      rw [hbatch]
    | run _ _ | stats _ | tables _ | refresh _ => cases hmove
  | expire w =>
    cases hm
    have hbatch : g.digests.expire w = (some b, (g.digests.expire w).2) := Prod.ext hb rfl
    refine ⟨{ g with digests := (g.digests.expire w).2 }, ?_⟩
    show g.expire w = _
    unfold expire
    rw [hbatch]
  | notice w =>
    cases hm
    cases hb
  | drop caller =>
    cases hm
    cases hb
  | begin table => cases hm

/-- Each batch that is being launched waits for a call of its own. -/
def LaunchesCalled (g : Gateway) : Prop :=
  ∀ b ∈ g.digests.batches, ∃ call, (call, .digest b.number b.owner) ∈ g.calls

theorem purpose?_of_mem {g : Gateway} (h : g.CallsNumbered) {call : Nat} {p : Purpose}
    (hmem : (call, p) ∈ g.calls) : g.purpose? call = some p := by
  unfold purpose?
  rw [h.find?_of_mem hmem]
  rfl

/-- A call for a batch that an event leaves alone goes on after it. -/
theorem keeps_digest {g : Gateway} (h : g.CallsNumbered) {call : Nat} {b : Batch} {e : Event}
    (hcall : (call, .digest b.number b.owner) ∈ g.calls)
    (hlaunched : g.schedulerMove? e ≠ some (.launched b.number))
    (hdrop : ∀ caller, e = .drop caller → b.owner.caller? ≠ some caller) :
    e.keeps (call, .digest b.number b.owner) = true := by
  cases e with
  | reply answered outcome =>
    refine decide_eq_true ?_
    rintro rfl
    refine hlaunched ?_
    show (g.purpose? call).bind (replyMark? outcome) = _
    rw [purpose?_of_mem h hcall]
    rfl
  | drop caller => exact decide_eq_true (hdrop caller rfl)
  | request _ _ | begin _ | expire _ | notice _ => rfl

theorem launchesCalled_step {g : Gateway} (hnumbered : g.CallsNumbered) (h : g.LaunchesCalled)
    (now : Nat) (e : Event) : (g.step now e).1.LaunchesCalled := by
  obtain ⟨made, hmade⟩ := step_calls g now e
  -- A batch that is left alone keeps its call.
  have hkept : ∀ b ∈ g.digests.batches, g.schedulerMove? e ≠ some (.launched b.number) →
      (∀ caller, e = .drop caller → b.owner.caller? ≠ some caller) →
      ∃ call, (call, .digest b.number b.owner) ∈ (g.step now e).1.calls := by
    intro b hb hlaunched hdrop
    obtain ⟨call, hcall⟩ := h b hb
    refine ⟨call, ?_⟩
    rw [hmade.calls]
    exact List.mem_append_left _
      (List.mem_filter.2 ⟨hcall, keeps_digest hnumbered hcall hlaunched hdrop⟩)
  intro b hb
  cases hm : g.schedulerMove? e with
  | none =>
    rw [step_digests, hm] at hb
    refine hkept b hb (by simp [hm]) ?_
    rintro caller rfl
    cases hm
  | some m =>
    rw [step_digests, hm] at hb
    rcases Scheduler.mem_batches_move hb with ⟨hmem, hlaunched, hdrop⟩ | ⟨hbatch, hleft⟩
    · refine hkept b hmem (fun hm' => hlaunched (Option.some.inj (hm.symm.trans hm'))) ?_
      rintro caller rfl
      cases hm
      exact hdrop caller rfl
    · obtain ⟨g', hgo⟩ := exists_goOn (by rw [hm]; exact hbatch) now
      obtain ⟨table, rest, htables⟩ := List.exists_cons_of_ne_nil hleft
      refine ⟨g'.nextCall, ?_⟩
      rw [hgo, goOn_of_left htables, callTool_calls]
      exact List.mem_append_right _ (List.mem_singleton_self _)

theorem launchesCalled_after (ttl cooldown : Nat) (run : Run) :
    ((empty ttl cooldown).after run).LaunchesCalled := by
  have hstart : (empty ttl cooldown).CallsNumbered ∧ (empty ttl cooldown).LaunchesCalled :=
    ⟨callsNumbered_empty ttl cooldown, fun b hb => by cases hb⟩
  refine (after_induction (P := fun g => g.CallsNumbered ∧ g.LaunchesCalled) hstart ?_ run).2
  intro g now e h
  exact ⟨callsNumbered_step now e h.1, launchesCalled_step h.1 h.2 now e⟩

end Gateway

end StoreGateway
