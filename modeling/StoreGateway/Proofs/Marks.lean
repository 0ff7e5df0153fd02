import Mathlib.Data.List.Induction
import StoreGateway.Fields.Order
import StoreGateway.Proofs.SchedulerMoves

/-!
# Marks are kept until they are taken

The tables that are marked at any time are those that were marked since marked tables were last
taken, by a timer or by somebody. So no mark is lost, and none counts for two batches.

* `Scheduler.taken`: the tables that a move takes;
* `Gateway.marks`, `Gateway.takes`: the tables that an event marks, and those that it takes;
* `Gateway.MarkedSince`: a table was marked in a run, and nothing was taken after that;
* `Gateway.mem_pending_iff`: these are the tables that are marked after a run.
-/

namespace StoreGateway

open Catalog Command Digest Query

namespace Digest.Scheduler

/-- The tables that a move marks. -/
def marked : Move → List String
  | .mark table => [table]
  | _ => []

/-- The tables that a move takes. -/
def taken (s : Scheduler) : Move → List String
  | .expire w => if s.timers.any fun t => t.generation = w then (s.take (some w)).1 else []
  | .flush _ => (s.take none).1
  | _ => []

theorem taken_expire (s : Scheduler) (w : Nat) :
    s.taken (.expire w) =
      if s.timers.any fun t => t.generation = w then (s.take (some w)).1 else [] := rfl

theorem dirty_mark (s : Scheduler) (now : Nat) (table : String) :
    (s.mark now table).2.dirty = s.dirty.insert table () := by
  unfold mark
  dsimp only
  split <;> rfl

theorem dirty_take (s : Scheduler) (generation : Option Nat) :
    ((s.take generation).1 = [] ∧ (s.take generation).2.dirty = s.dirty) ∨
      ((s.take generation).1 = s.pending ∧ s.pending ≠ [] ∧ (s.take generation).2.dirty = []) := by
  unfold take
  split
  · exact Or.inl ⟨rfl, rfl⟩
  · by_cases h : s.pending = []
    · exact Or.inl ⟨h, (List.map_eq_nil_iff.1 h).symm⟩
    · exact Or.inr ⟨rfl, h, rfl⟩

/-- A move that is no mark takes nothing and leaves the marks, or it takes them all. -/
theorem dirty_move (s : Scheduler) (now : Nat) {m : Move} (hm : ∀ table, m ≠ .mark table) :
    (s.taken m = [] ∧ (s.move now m).dirty = s.dirty) ∨
      (s.taken m = s.pending ∧ s.pending ≠ [] ∧ (s.move now m).dirty = []) := by
  cases m with
  | mark table => exact absurd rfl (hm table)
  | expire w =>
    have hdirty : (s.expire w).2.dirty = if s.timers.any fun t => t.generation = w then
        (s.take (some w)).2.dirty else s.dirty := by
      unfold expire
      split
      · exact launch_dirty _ .timer _
      · rfl
    show (s.taken (.expire w) = [] ∧ (s.expire w).2.dirty = _) ∨
      (s.taken (.expire w) = _ ∧ _ ∧ (s.expire w).2.dirty = _)
    rw [hdirty, taken_expire]
    by_cases hany : s.timers.any (fun t => t.generation = w) = true
    · rw [if_pos hany, if_pos hany]
      exact dirty_take s (some w)
    · rw [if_neg hany, if_neg hany]
      exact Or.inl ⟨rfl, rfl⟩
  | flush owner =>
    have hdirty : (s.move now (.flush owner)).dirty = (s.take none).2.dirty :=
      launch_dirty _ owner _
    rw [hdirty]
    exact dirty_take s none
  | launched batch =>
    left
    show _ ∧ (s.launched batch).2.dirty = s.dirty
    unfold launched
    split <;> exact ⟨rfl, rfl⟩
  | notice _ | drop _ => exact Or.inl ⟨rfl, rfl⟩

theorem ascending_move {s : Scheduler} (h : s.dirty.Ascending) (now : Nat) (m : Move) :
    (s.move now m).dirty.Ascending := by
  by_cases hm : ∃ table, m = .mark table
  · obtain ⟨table, rfl⟩ := hm
    show (s.mark now table).2.dirty.Ascending
    rw [dirty_mark]
    exact Fields.ascending_insert h table ()
  · rcases dirty_move s now fun table e => hm ⟨table, e⟩ with ⟨-, hdirty⟩ | ⟨-, -, hdirty⟩
    · rw [hdirty]
      exact h
    · rw [hdirty]
      exact List.Pairwise.nil

end Digest.Scheduler

namespace Gateway

/-- The tables that an event marks. -/
def marks (g : Gateway) (_ : Nat) (e : Event) : List String :=
  (g.schedulerMove? e).elim [] Scheduler.marked

/-- The tables that an event takes, if there are any. -/
def takes (g : Gateway) (_ : Nat) (e : Event) : List (List String) :=
  [(g.schedulerMove? e).elim [] g.digests.taken].filter fun tables => tables ≠ []

/-- The sets of tables that a run takes, in order. -/
def taken (g : Gateway) (run : Run) : List (List String) :=
  g.gather takes run

/-- A table was marked in a run, and nothing was taken after that. -/
def MarkedSince (g : Gateway) (run : Run) (table : String) : Prop :=
  ∃ a now e b, run = a ++ (now, e) :: b ∧ table ∈ (g.after a).marks now e ∧
    (g.after (a ++ [(now, e)])).taken b = []

section
variable {g : Gateway}

theorem takes_eq_nil_iff {now : Nat} {e : Event} :
    g.takes now e = [] ↔ (g.schedulerMove? e).elim [] g.digests.taken = [] := by
  unfold takes
  simp

theorem takes_eq_singleton_iff {now : Nat} {e : Event} {tables : List String} :
    g.takes now e = [tables] ↔
      tables ≠ [] ∧ (g.schedulerMove? e).elim [] g.digests.taken = tables := by
  unfold takes
  by_cases h : (g.schedulerMove? e).elim [] g.digests.taken = []
  · rw [h]
    simp [eq_comm]
  · rw [List.filter_cons_of_pos (by simpa using h)]
    simp only [List.filter_nil, List.cons.injEq, and_true]
    constructor
    · rintro rfl
      exact ⟨h, rfl⟩
    · exact And.right

theorem exists_of_takes {now : Nat} {e : Event} (h : g.takes now e ≠ []) :
    ∃ tables, g.takes now e = [tables] := by
  refine ⟨(g.schedulerMove? e).elim [] g.digests.taken, takes_eq_singleton_iff.2 ⟨?_, rfl⟩⟩
  exact fun hnil => h (takes_eq_nil_iff.2 hnil)

/-- A table is marked after a step that marks it, and after one that takes nothing if it was. -/
theorem mem_pending_step (now : Nat) (e : Event) (table : String) :
    table ∈ (g.step now e).1.digests.pending ↔
      table ∈ g.marks now e ∨ (table ∈ g.digests.pending ∧ g.takes now e = []) := by
  rw [takes_eq_nil_iff, step_digests]
  unfold marks
  cases g.schedulerMove? e with
  | none => simp
  | some m =>
    show table ∈ (g.digests.move now m).pending ↔
      table ∈ Scheduler.marked m ∨ (table ∈ g.digests.pending ∧ g.digests.taken m = [])
    unfold Scheduler.pending
    by_cases hm : ∃ t, m = .mark t
    · obtain ⟨t, rfl⟩ := hm
      show table ∈ (g.digests.mark now t).2.dirty.names ↔ table ∈ [t] ∨ (_ ∧ [] = [])
      rw [Scheduler.dirty_mark, Fields.mem_names_insert]
      simp
    · have hmarked : Scheduler.marked m = [] := by
        cases m with
        | mark t => exact absurd ⟨t, rfl⟩ hm
        | expire _ | notice _ | flush _ | launched _ | drop _ => rfl
      rw [hmarked]
      rcases Scheduler.dirty_move g.digests now fun t e => hm ⟨t, e⟩ with
        ⟨htaken, hdirty⟩ | ⟨htaken, hne, hdirty⟩
      · rw [hdirty, htaken]
        simp
      · rw [hdirty, htaken]
        simp [hne, Fields.names]

/-- What is taken is all that was marked. -/
theorem eq_pending_of_takes {now : Nat} {e : Event} {tables : List String}
    (h : g.takes now e = [tables]) : tables = g.digests.pending := by
  obtain ⟨hne, htables⟩ := takes_eq_singleton_iff.1 h
  cases hm : g.schedulerMove? e with
  | none =>
    rw [hm] at htables
    exact absurd htables.symm hne
  | some m =>
    rw [hm] at htables
    change g.digests.taken m = tables at htables
    by_cases hmark : ∃ t, m = .mark t
    · obtain ⟨t, rfl⟩ := hmark
      exact absurd htables.symm hne
    · rcases Scheduler.dirty_move g.digests now fun t e => hmark ⟨t, e⟩ with ⟨hnil, -⟩ | ⟨hall, -⟩
      · exact absurd (htables.symm.trans hnil) hne
      · exact htables.symm.trans hall

end

/-! ## Runs -/

theorem taken_concat (g : Gateway) (run : Run) (now : Nat) (e : Event) :
    g.taken (run ++ [(now, e)]) = g.taken run ++ (g.after run).takes now e :=
  gather_concat takes g run now e

theorem markedSince_concat {g : Gateway} {run : Run} {now : Nat} {e : Event} {table : String} :
    g.MarkedSince (run ++ [(now, e)]) table ↔
      table ∈ (g.after run).marks now e ∨
        (g.MarkedSince run table ∧ (g.after run).takes now e = []) :=
  exists_since_concat

/-- **The tables that are marked are those that were marked since tables were last taken.** -/
theorem mem_pending_iff (ttl cooldown : Nat) (run : Run) (table : String) :
    table ∈ ((empty ttl cooldown).after run).digests.pending ↔
      (empty ttl cooldown).MarkedSince run table := by
  induction run using List.reverseRecOn with
  | nil =>
    refine iff_of_false List.not_mem_nil ?_
    rintro ⟨a, now, e, b, h, -⟩
    simp at h
  | append_singleton run e ih =>
    obtain ⟨now, e⟩ := e
    rw [after_concat, mem_pending_step, ih]
    exact markedSince_concat.symm

/-- The marked tables ascend by code point. -/
theorem ascending_dirty (ttl cooldown : Nat) (run : Run) :
    ((empty ttl cooldown).after run).digests.dirty.Ascending := by
  have hempty : (Scheduler.empty cooldown).dirty.Ascending := List.Pairwise.nil
  exact digests_after (P := fun s => s.dirty.Ascending) hempty
    (fun _ now m h => Scheduler.ascending_move h now m) run

theorem pending_nodup (ttl cooldown : Nat) (run : Run) :
    ((empty ttl cooldown).after run).digests.pending.Nodup :=
  Fields.nodup_names (ascending_dirty ttl cooldown run)

end Gateway

end StoreGateway
