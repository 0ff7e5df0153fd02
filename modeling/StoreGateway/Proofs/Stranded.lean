import Mathlib.Data.List.Induction
import StoreGateway.Proofs.Batches
import StoreGateway.Proofs.Launching

/-!
# Tables that go away with a caller

What a flush or a shutdown has taken is launched table by table for its caller. If the caller goes
away in between, the tables behind the one whose launch is awaited are dropped with it, and they are
marked no more. Here stands that a table is lost in this way, and in no other.

* `Scheduler.upcoming`: the tables whose launch is still to come;
* `Gateway.Unlaunched`: a table was marked, and not launched since it was taken, if it was;
* `Gateway.Strands`: a caller takes the last launch of a table that was to come with it;
* `Gateway.quiet_step`: a table of which nothing is to come stays so until it is marked;
* `Gateway.stranded_of_lost`, `Gateway.lost_of_stranded`: a table is lost exactly when such a caller
  has gone.
-/

namespace StoreGateway

open Catalog Command Digest Query

namespace Digest.Scheduler

/-- The tables whose launch is still to come. -/
def upcoming (s : Scheduler) : List String :=
  s.batches.flatMap fun b => b.tail.left

theorem mem_upcoming {s : Scheduler} {table : String} :
    table ∈ s.upcoming ↔ ∃ b ∈ s.batches, table ∈ b.tail.left :=
  List.mem_flatMap

theorem owed_eq_zero_iff {s : Scheduler} {table : String} :
    s.owed table = 0 ↔ table ∉ s.upcoming :=
  List.count_eq_zero

/-- What is still to come when a caller has gone is what comes for others. -/
theorem mem_upcoming_drop {s : Scheduler} {caller : Ticket} {table : String} :
    table ∈ (s.drop caller).upcoming ↔
      ∃ b ∈ s.batches, b.owner.caller? ≠ some caller ∧ table ∈ b.tail.left := by
  rw [mem_upcoming]
  constructor
  · rintro ⟨b, hb, htable⟩
    obtain ⟨hmem, howner⟩ := List.mem_filter.1 hb
    exact ⟨b, hmem, of_decide_eq_true howner, htable⟩
  · rintro ⟨b, hb, howner, htable⟩
    exact ⟨b, List.mem_filter.2 ⟨hb, decide_eq_true howner⟩, htable⟩

end Digest.Scheduler

namespace Gateway

/-- The digest calls for a table that an event makes. -/
def launchesOf (table : String) (g : Gateway) (now : Nat) (e : Event) : List Effect :=
  (g.step now e).2.filter (Effect.digests table)

/-- A table was taken in a run, and from then on no digest of it was launched. -/
def TakenSince (g : Gateway) (run : Run) (table : String) : Prop :=
  ∃ a now e b, run = a ++ (now, e) :: b ∧ (∃ tables ∈ (g.after a).takes now e, table ∈ tables) ∧
    (g.after a).digestCalls table ((now, e) :: b) = 0

/-- A table was marked, and no digest of it was launched since it was taken, if it was. -/
def Unlaunched (g : Gateway) (run : Run) (table : String) : Prop :=
  g.MarkedSince run table ∨ g.TakenSince run table

/-- A table was marked and is not launched, but it is not marked now, and no launch is to come. -/
structure Lost (g : Gateway) (run : Run) (table : String) : Prop where
  unlaunched : g.Unlaunched run table
  unmarked : table ∉ (g.after run).digests.pending
  idle : table ∉ (g.after run).digests.upcoming

/-- The launches of a table that are to come are all for a caller, and it is not marked again. -/
structure Strands (g : Gateway) (caller : Ticket) (table : String) : Prop where
  unmarked : table ∉ g.digests.pending
  upcoming : table ∈ g.digests.upcoming
  owned : ∀ b ∈ g.digests.batches, table ∈ b.tail.left → b.owner.caller? = some caller

/-- A caller has gone with the last launch of a table, and the table was not marked since. -/
def Stranded (g : Gateway) (run : Run) (table : String) : Prop :=
  ∃ pre now caller post, run = pre ++ (now, .drop caller) :: post ∧ g.Unlaunched pre table ∧
    (g.after pre).Strands caller table ∧
    table ∉ (g.after (pre ++ [(now, .drop caller)])).gather marks post

/-! ## Launches since a table was taken -/

theorem launchesOf_eq_nil_iff {table : String} {g : Gateway} {now : Nat} {e : Event} :
    launchesOf table g now e = [] ↔ (g.step now e).2.countP (Effect.digests table) = 0 := by
  unfold launchesOf
  rw [List.countP_eq_length_filter, List.length_eq_zero_iff]

theorem digestCalls_eq_zero_iff {table : String} {g : Gateway} {run : Run} :
    g.digestCalls table run = 0 ↔ g.gather (launchesOf table) run = [] := by
  induction run generalizing g with
  | nil => exact iff_of_true rfl rfl
  | cons e run ih =>
    obtain ⟨now, e⟩ := e
    have hcalls : g.digestCalls table ((now, e) :: run) =
        (g.step now e).2.countP (Effect.digests table) +
          (g.step now e).1.digestCalls table run := by
      unfold digestCalls
      rw [effects_cons, List.countP_append]
    rw [hcalls, gather_cons, List.append_eq_nil_iff, Nat.add_eq_zero_iff, launchesOf_eq_nil_iff, ih]

theorem takenSince_concat {g : Gateway} {run : Run} {now : Nat} {e : Event} {table : String} :
    g.TakenSince (run ++ [(now, e)]) table ↔
      ((∃ tables ∈ (g.after run).takes now e, table ∈ tables) ∨ g.TakenSince run table) ∧
        ((g.after run).step now e).2.countP (Effect.digests table) = 0 := by
  have hsince : ∀ run, g.TakenSince run table ↔ ∃ a t d b, run = a ++ (t, d) :: b ∧
      ((∃ tables ∈ (g.after a).takes t d, table ∈ tables) ∧
        launchesOf table (g.after a) t d = []) ∧
      (g.after (a ++ [(t, d)])).gather (launchesOf table) b = [] := by
    intro run
    simp only [TakenSince, digestCalls_eq_zero_iff, gather_cons, List.append_eq_nil_iff,
      after_concat, and_assoc]
  rw [hsince, exists_since_concat, ← hsince, ← launchesOf_eq_nil_iff]
  exact or_and_right.symm

/-! ## One event -/

section
variable {g : Gateway} {table : String}

/-- A table that is not marked is not taken. -/
theorem countP_takes_of_not_mem (h : table ∉ g.digests.pending) (now : Nat) (e : Event) :
    (g.takes now e).countP (fun tables => table ∈ tables) = 0 := by
  rw [List.countP_eq_zero]
  intro tables htables hmem
  have htakes : g.takes now e ≠ [] := List.ne_nil_of_mem htables
  obtain ⟨taken, htaken⟩ := exists_of_takes htakes
  rw [htaken, List.mem_singleton] at htables
  rw [htables, eq_pending_of_takes htaken] at hmem
  exact h (of_decide_eq_true hmem)

/-- A table of which nothing is to come stays so, and is not launched, until it is marked. -/
theorem quiet_step (hnumbered : g.digests.BatchesNumbered) (hnodup : g.digests.pending.Nodup)
    (hpending : table ∉ g.digests.pending) (hupcoming : table ∉ g.digests.upcoming) {now : Nat}
    {e : Event} (hmarks : table ∉ g.marks now e) :
    table ∉ (g.step now e).1.digests.pending ∧ table ∉ (g.step now e).1.digests.upcoming ∧
      (g.step now e).2.countP (Effect.digests table) = 0 := by
  refine ⟨?_, ?_⟩
  · rw [mem_pending_step]
    exact fun h => h.elim hmarks fun h => hpending h.1
  · by_cases hdrop : ∃ caller, e = .drop caller
    · obtain ⟨caller, rfl⟩ := hdrop
      refine ⟨?_, rfl⟩
      show table ∉ (g.digests.drop caller).upcoming
      rw [Scheduler.mem_upcoming_drop]
      rintro ⟨b, hb, -, htable⟩
      exact hupcoming (Scheduler.mem_upcoming.2 ⟨b, hb, htable⟩)
    · have hbalance := owed_step hnumbered hnodup (fun caller he => absurd ⟨caller, he⟩ hdrop)
        now table
      rw [Scheduler.owed_eq_zero_iff.2 hupcoming, countP_takes_of_not_mem hpending] at hbalance
      obtain ⟨howed, hlaunches⟩ := Nat.add_eq_zero_iff.1 hbalance
      exact ⟨Scheduler.owed_eq_zero_iff.1 howed, hlaunches⟩

/-- If after an event nothing of a table is to come, then there was not before, or it launched it. -/
theorem quiet_before (hnumbered : g.digests.BatchesNumbered) (hnodup : g.digests.pending.Nodup)
    {now : Nat} {e : Event} (hdrop : ∀ caller, e ≠ .drop caller)
    (hpending : table ∉ (g.step now e).1.digests.pending)
    (hupcoming : table ∉ (g.step now e).1.digests.upcoming)
    (hlaunches : (g.step now e).2.countP (Effect.digests table) = 0) :
    table ∉ g.digests.pending ∧ table ∉ g.digests.upcoming := by
  have hbalance := owed_step hnumbered hnodup (fun caller he => absurd he (hdrop caller)) now table
  rw [Scheduler.owed_eq_zero_iff.2 hupcoming, hlaunches] at hbalance
  obtain ⟨howed, htakes⟩ := Nat.add_eq_zero_iff.1 hbalance.symm
  refine ⟨fun hmem => ?_, Scheduler.owed_eq_zero_iff.1 howed⟩
  rw [mem_pending_step] at hpending
  have htaken : g.takes now e ≠ [] := fun hnil => hpending (Or.inr ⟨hmem, hnil⟩)
  obtain ⟨tables, htables⟩ := exists_of_takes htaken
  rw [htables, List.countP_singleton, eq_pending_of_takes htables] at htakes
  simp [hmem] at htakes

end

/-! ## Runs -/

theorem takenSince_of_unlaunched {ttl cooldown : Nat} {run : Run} {table : String}
    (h : (empty ttl cooldown).Unlaunched run table)
    (hpending : table ∉ ((empty ttl cooldown).after run).digests.pending) :
    (empty ttl cooldown).TakenSince run table :=
  h.resolve_left fun hmarked => hpending ((mem_pending_iff ttl cooldown run table).2 hmarked)

theorem Stranded.concat {g : Gateway} {run : Run} {table : String} (h : g.Stranded run table)
    {now : Nat} {e : Event} (hmarks : table ∉ (g.after run).marks now e) :
    g.Stranded (run ++ [(now, e)]) table := by
  obtain ⟨pre, t, caller, post, rfl, hunlaunched, hstrands, hpost⟩ := h
  refine ⟨pre, t, caller, post ++ [(now, e)], by simp, hunlaunched, hstrands, ?_⟩
  rw [gather_concat, List.mem_append, ← after_append, List.append_assoc]
  exact fun hmem => hmem.elim hpost hmarks

/-- The caller of a table that is lost has gone, and the table was not marked after that. -/
theorem stranded_of_lost {ttl cooldown : Nat} {run : Run} {table : String}
    (h : (empty ttl cooldown).Lost run table) : (empty ttl cooldown).Stranded run table := by
  induction run using List.reverseRecOn with
  | nil =>
    have hempty : (empty ttl cooldown).TakenSince [] table :=
      takenSince_of_unlaunched h.unlaunched h.unmarked
    obtain ⟨a, now, e, b, hsplit, -⟩ := hempty
    simp at hsplit
  | append_singleton run e ih =>
    obtain ⟨now, e⟩ := e
    obtain ⟨htaken, hlaunches⟩ :=
      takenSince_concat.1 (takenSince_of_unlaunched h.unlaunched h.unmarked)
    have hunmarked := h.unmarked
    have hidle := h.idle
    rw [after_concat] at hunmarked hidle
    have hmarks : table ∉ ((empty ttl cooldown).after run).marks now e := fun hmark =>
      hunmarked ((mem_pending_step now e table).2 (Or.inl hmark))
    by_cases hdrop : ∃ caller, e = .drop caller
    · obtain ⟨caller, rfl⟩ := hdrop
      have hbefore : (empty ttl cooldown).TakenSince run table := by
        refine htaken.resolve_left ?_
        rintro ⟨tables, htables, -⟩
        cases htables
      have hpending : table ∉ ((empty ttl cooldown).after run).digests.pending := hunmarked
      by_cases hupcoming : table ∈ ((empty ttl cooldown).after run).digests.upcoming
      · refine ⟨run, now, caller, [], rfl, Or.inr hbefore, ⟨hpending, hupcoming, ?_⟩,
          List.not_mem_nil⟩
        intro b hb htable
        by_contra howner
        exact hidle (Scheduler.mem_upcoming_drop.2 ⟨b, hb, howner, htable⟩)
      · exact (ih ⟨Or.inr hbefore, hpending, hupcoming⟩).concat hmarks
    · have hnumbered := batchesNumbered_after ttl cooldown run
      have hnodup := pending_nodup ttl cooldown run
      obtain ⟨hpending, hupcoming⟩ := quiet_before hnumbered hnodup
        (fun caller he => hdrop ⟨caller, he⟩) hunmarked hidle hlaunches
      refine (ih ⟨Or.inr (htaken.resolve_left ?_), hpending, hupcoming⟩).concat hmarks
      rintro ⟨tables, htables, hmem⟩
      exact List.countP_eq_zero.1 (countP_takes_of_not_mem hpending now e) tables htables
        (decide_eq_true hmem)

/-- What a caller has taken with it is lost until it is marked again. -/
theorem lost_of_stranded {ttl cooldown : Nat} {run : Run} {table : String}
    (h : (empty ttl cooldown).Stranded run table) : (empty ttl cooldown).Lost run table := by
  obtain ⟨pre, now, caller, post, rfl, hunlaunched, hstrands, hpost⟩ := h
  induction post using List.reverseRecOn with
  | nil =>
    have htaken := takenSince_of_unlaunched hunlaunched hstrands.unmarked
    refine ⟨Or.inr (takenSince_concat.2 ⟨Or.inr htaken, rfl⟩), ?_, ?_⟩
    · rw [after_concat]
      exact hstrands.unmarked
    · rw [after_concat]
      show table ∉ (((empty ttl cooldown).after pre).digests.drop caller).upcoming
      rw [Scheduler.mem_upcoming_drop]
      rintro ⟨b, hb, howner, htable⟩
      exact howner (hstrands.owned b hb htable)
  | append_singleton post e ih =>
    obtain ⟨t, e⟩ := e
    rw [gather_concat, List.mem_append, ← after_append, List.append_assoc] at hpost
    have hlost := ih fun hmem => hpost (Or.inl hmem)
    obtain ⟨hpending, hupcoming, hlaunches⟩ := quiet_step (batchesNumbered_after ttl cooldown _)
      (pending_nodup ttl cooldown _) hlost.unmarked hlost.idle fun hmem => hpost (Or.inr hmem)
    have htaken := takenSince_of_unlaunched hlost.unlaunched hlost.unmarked
    rw [← List.cons_append, ← List.append_assoc]
    refine ⟨Or.inr (takenSince_concat.2 ⟨Or.inr htaken, hlaunches⟩), ?_, ?_⟩
    · rw [after_concat]
      exact hpending
    · rw [after_concat]
      exact hupcoming

/--
**Only a caller who goes away takes tables with it.** A table was marked in a run, and since it was
taken, if it was, no digest of it was launched. Then it is still marked, or its launch is still to
come, in a batch that waits for a call. Otherwise it is lost; and it is lost exactly if a caller has
gone away for whom alone it was going to be launched, and it was not marked again since.
-/
theorem lost_iff (ttl cooldown : Nat) (run : Run) (table : String) :
    let start := empty ttl cooldown
    (start.Lost run table ↔ start.Stranded run table) ∧
    ∀ b ∈ (start.after run).digests.batches,
      ∃ call, (call, .digest b.number b.owner) ∈ (start.after run).calls :=
  ⟨⟨stranded_of_lost, lost_of_stranded⟩, launchesCalled_after ttl cooldown run⟩

/--
Two tables are marked and flushed, and the caller goes away while the launch of the first is awaited.
The second was never launched; it is not marked, in no batch and awaited by no call, and the timer of
its window comes too late.
-/
theorem dropped_flush_loses_table :
    let start := empty 600000 1000
    let run : Run :=
      [(0, .request 0 (.mark "a")), (0, .request 1 (.mark "b")), (0, .request 2 .flush),
        (0, .drop 2), (1000, .expire 0)]
    let g := start.after run
    start.Unlaunched run "b" ∧ start.digestCalls "b" run = 0 ∧ "b" ∉ g.digests.pending ∧
      g.digests.batches = [] ∧ g.digests.timers = [] ∧ g.calls = [] := by
  refine ⟨Or.inr ?_, by decide, by decide, by decide, by decide, by decide⟩
  refine ⟨[(0, .request 0 (.mark "a")), (0, .request 1 (.mark "b"))], 0, .request 2 .flush,
    [(0, .drop 2), (1000, .expire 0)], rfl, ⟨["a", "b"], by decide, by decide⟩, by decide⟩

end Gateway

end StoreGateway
