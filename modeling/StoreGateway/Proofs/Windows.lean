import Mathlib.Data.List.Induction
import StoreGateway.Proofs.SchedulerMoves

/-!
# Windows and their timers

A window is open exactly while tables are marked, and then one timer will close it. Timers of
windows that were flushed may still be there; they are cancelled, and whatever happens to them first
they end without a trace.

* `Scheduler.WellTimed`: the open window has the only timer that is not cancelled;
* `Scheduler.wellTimed_move`: every move of the scheduler keeps that;
* `Scheduler.passed_move`: a window that was closed is never open again;
* `Gateway.expire_other`, `Gateway.notice_other`: the two ways in which the timer of a window that
  is not open ends are the same.
-/

namespace StoreGateway

open Catalog Command Digest Query

namespace Digest.Scheduler

/-- The generations of the timers that are not cancelled. -/
def running (s : Scheduler) : List Nat :=
  (s.timers.filter fun t => !t.cancelled).map Timer.generation

/-- A window is open while tables are marked, and it has the only timer that is not cancelled. -/
structure WellTimed (s : Scheduler) : Prop where
  marked : s.window.isSome ↔ s.dirty ≠ []
  numbered : Numbered Timer.generation s.nextGeneration s.timers
  running : s.running = s.window.toList

theorem wellTimed_empty (cooldown : Nat) : (empty cooldown).WellTimed :=
  ⟨by simp [empty], .nil, rfl⟩

/-! ## Marks -/

/-- The timer that is set when a window is opened. -/
def newTimer (s : Scheduler) (now : Nat) : Timer :=
  ⟨s.nextGeneration, now + s.cooldown, false⟩

theorem mark_open {s : Scheduler} {w : Nat} (h : s.window = some w) (now : Nat) (table : String) :
    s.mark now table = (none, { s with dirty := s.dirty.insert table () }) := by
  unfold mark
  dsimp only
  rw [h]

theorem mark_closed {s : Scheduler} (h : s.window = none) (now : Nat) (table : String) :
    s.mark now table = (some (s.newTimer now),
      { s with
        dirty := s.dirty.insert table ()
        window := some s.nextGeneration
        nextGeneration := s.nextGeneration + 1
        timers := s.timers ++ [s.newTimer now] }) := by
  unfold mark
  dsimp only
  rw [h]
  rfl

theorem wellTimed_mark {s : Scheduler} (h : s.WellTimed) (now : Nat) (table : String) :
    (s.mark now table).2.WellTimed := by
  have hdirty : s.dirty.insert table () ≠ [] := Fields.insert_ne_nil s.dirty table ()
  cases hwindow : s.window with
  | some w =>
    rw [mark_open hwindow]
    refine ⟨?_, h.numbered, h.running⟩
    show s.window.isSome ↔ s.dirty.insert table () ≠ []
    rw [hwindow]
    exact iff_of_true rfl hdirty
  | none =>
    rw [mark_closed hwindow]
    refine ⟨iff_of_true rfl hdirty, h.numbered.concat rfl, ?_⟩
    have hnone : s.running = [] := by
      rw [h.running, hwindow]
      rfl
    show ((s.timers ++ [s.newTimer now]).filter fun t => !t.cancelled).map Timer.generation =
      [s.nextGeneration]
    rw [List.filter_append, List.map_append]
    show s.running ++ [s.nextGeneration] = _
    rw [hnone]
    rfl

/-! ## Closing -/

theorem generation_cancel (w : Nat) (t : Timer) :
    (if t.generation = w then { t with cancelled := true } else t).generation = t.generation := by
  split <;> rfl

/-- Who runs on when the timers of a window are cancelled. -/
theorem running_cancel (w : Nat) (timers : List Timer) :
    ((cancel w timers).filter fun t => !t.cancelled).map Timer.generation =
      ((timers.filter fun t => !t.cancelled).map Timer.generation).filter fun n => n ≠ w := by
  induction timers with
  | nil => rfl
  | cons t timers ih =>
    unfold cancel at ih ⊢
    rw [List.map_cons]
    by_cases hw : t.generation = w <;> cases hc : t.cancelled <;> simp [hw, hc, ih]

theorem wellTimed_close {s : Scheduler} (h : s.WellTimed) : s.close.WellTimed := by
  refine ⟨by simp [close], ?_, ?_⟩
  · unfold close
    cases s.window with
    | none => exact h.numbered
    | some w => exact h.numbered.map fun t _ => generation_cancel w t
  · have hrunning := h.running
    unfold close Scheduler.running
    cases hwindow : s.window with
    | none =>
      rw [hwindow] at hrunning
      exact hrunning
    | some w =>
      rw [hwindow] at hrunning
      show ((cancel w s.timers).filter fun t => !t.cancelled).map Timer.generation = []
      rw [running_cancel]
      show s.running.filter (fun n => n ≠ w) = []
      rw [hrunning]
      simp

/-! ## Timers that end -/

/-- The timer of a window that is not open may end. -/
theorem wellTimed_endTimer {s : Scheduler} (h : s.WellTimed) {w : Nat} (hw : s.window ≠ some w) :
    (s.endTimer w).WellTimed := by
  refine ⟨h.marked, h.numbered.filter _, ?_⟩
  have hrunning : (s.endTimer w).running = s.running.filter fun n => n ≠ w := by
    unfold Scheduler.running endTimer
    rw [List.filter_map, List.filter_filter, List.filter_filter]
    congr 1
    refine List.filter_congr fun t _ => ?_
    exact Bool.and_comm _ _
  rw [hrunning, h.running]
  show s.window.toList.filter (fun n => n ≠ w) = s.window.toList
  rw [List.filter_eq_self]
  intro n hn
  refine decide_eq_true ?_
  rintro rfl
  exact hw (Option.mem_toList.1 hn)

theorem wellTimed_notice {s : Scheduler} (h : s.WellTimed) (w : Nat) : (s.notice w).WellTimed := by
  refine ⟨h.marked, h.numbered.filter _, ?_⟩
  show (s.notice w).running = s.window.toList
  rw [← h.running]
  unfold Scheduler.running notice
  rw [List.filter_filter]
  congr 1
  refine List.filter_congr fun t _ => ?_
  cases t.cancelled <;> simp

/-- A timer that is not cancelled is the open window's. -/
theorem WellTimed.window_of_mem {s : Scheduler} (h : s.WellTimed) {t : Timer} (ht : t ∈ s.timers)
    (hc : t.cancelled = false) : s.window = some t.generation := by
  refine Option.mem_toList.1 ?_
  rw [← h.running]
  exact List.mem_map_of_mem (List.mem_filter.2 ⟨ht, by rw [hc]; rfl⟩)

/-! ## Moves -/

theorem wellTimed_launch {s : Scheduler} (h : s.WellTimed) (owner : Owner) (tables : List String) :
    (s.launch owner tables).2.WellTimed := by
  by_cases htables : tables = []
  · rw [htables, launch_nil]
    exact h
  · rw [launch_of_ne_nil htables]
    exact ⟨h.marked, h.numbered, h.running⟩

/-- The open window has a timer, which is not cancelled. -/
theorem WellTimed.exists_timer {s : Scheduler} (h : s.WellTimed) {w : Nat}
    (hw : s.window = some w) : ∃ t ∈ s.timers, t.generation = w ∧ t.cancelled = false := by
  have hmem : w ∈ s.running := by
    rw [h.running, hw]
    exact List.mem_singleton_self w
  obtain ⟨t, ht, hgeneration⟩ := List.mem_map.1 hmem
  obtain ⟨ht, hc⟩ := List.mem_filter.1 ht
  exact ⟨t, ht, hgeneration, by simpa using hc⟩

theorem wellTimed_expire {s : Scheduler} (h : s.WellTimed) (w : Nat) :
    (s.expire w).2.WellTimed := by
  by_cases hw : s.window = some w
  · obtain ⟨t, ht, rfl, -⟩ := h.exists_timer hw
    rw [expire_own ht hw]
    exact wellTimed_launch (wellTimed_endTimer (wellTimed_close h) (by simp [close])) _ _
  · rw [expire_other hw]
    exact wellTimed_endTimer h hw

/-- **Every move of the scheduler keeps the windows and their timers in order.** -/
theorem wellTimed_move {s : Scheduler} (h : s.WellTimed) (now : Nat) (m : Move) :
    (s.move now m).WellTimed := by
  cases m with
  | mark table => exact wellTimed_mark h now table
  | expire w => exact wellTimed_expire h w
  | notice w => exact wellTimed_notice h w
  | flush owner => exact wellTimed_launch (wellTimed_close h) owner s.pending
  | launched batch =>
    show (s.launched batch).2.WellTimed
    unfold launched
    split
    · exact h
    · exact ⟨h.marked, h.numbered, h.running⟩
  | drop caller => exact ⟨h.marked, h.numbered, h.running⟩

/-! ## Windows that were closed -/

/-- How a move changes the window: it leaves it, or closes it, or opens the next one. -/
theorem window_move (s : Scheduler) (now : Nat) (m : Move) :
    ((s.move now m).window = s.window ∧ (s.move now m).nextGeneration = s.nextGeneration) ∨
      ((s.move now m).window = none ∧ (s.move now m).nextGeneration = s.nextGeneration) ∨
      (s.window = none ∧ (s.move now m).window = some s.nextGeneration ∧
        (s.move now m).nextGeneration = s.nextGeneration + 1) := by
  cases m with
  | mark table =>
    cases hwindow : s.window with
    | some w =>
      left
      show (s.mark now table).2.window = some w ∧ (s.mark now table).2.nextGeneration = _
      rw [mark_open hwindow]
      exact ⟨hwindow, rfl⟩
    | none =>
      right; right
      show _ ∧ (s.mark now table).2.window = _ ∧ (s.mark now table).2.nextGeneration = _
      rw [mark_closed hwindow]
      exact ⟨rfl, rfl, rfl⟩
  | expire w =>
    show ((s.expire w).2.window = _ ∧ (s.expire w).2.nextGeneration = _) ∨
      ((s.expire w).2.window = _ ∧ (s.expire w).2.nextGeneration = _) ∨ _
    rcases expire_cases s w with ⟨-, h⟩ | h
    · rw [h, launch_window, launch_nextGeneration]
      exact Or.inr (Or.inl ⟨rfl, rfl⟩)
    · rw [h]
      exact Or.inl ⟨rfl, rfl⟩
  | notice w => exact Or.inl ⟨rfl, rfl⟩
  | flush owner =>
    right; left
    exact ⟨launch_window s.close owner s.pending, launch_nextGeneration s.close owner s.pending⟩
  | launched batch =>
    left
    show (s.launched batch).2.window = _ ∧ (s.launched batch).2.nextGeneration = _
    unfold launched
    split <;> exact ⟨rfl, rfl⟩
  | drop caller => exact Or.inl ⟨rfl, rfl⟩

/-- The window of a generation is over. -/
def Passed (w : Nat) (s : Scheduler) : Prop :=
  w < s.nextGeneration ∧ s.window ≠ some w

/-- A window that is over is never open again. -/
theorem passed_move {s : Scheduler} {w : Nat} (h : s.Passed w) (now : Nat) (m : Move) :
    (s.move now m).Passed w := by
  obtain ⟨hlt, hne⟩ := h
  unfold Passed
  rcases window_move s now m with ⟨hwindow, hnext⟩ | ⟨hwindow, hnext⟩ | ⟨-, hwindow, hnext⟩
  · rw [hwindow, hnext]
    exact ⟨hlt, hne⟩
  · rw [hwindow, hnext]
    exact ⟨hlt, by simp⟩
  · rw [hwindow, hnext]
    refine ⟨by omega, ?_⟩
    rintro ⟨⟩
    omega

theorem WellTimed.lt_of_window {s : Scheduler} (h : s.WellTimed) {w : Nat}
    (hw : s.window = some w) : w < s.nextGeneration := by
  obtain ⟨t, ht, rfl, -⟩ := h.exists_timer hw
  exact h.numbered.below t ht

/-- A flush is the end of the open window. -/
theorem passed_flush {s : Scheduler} (h : s.WellTimed) {w : Nat} (hw : s.window = some w)
    (now : Nat) (owner : Owner) : (s.move now (.flush owner)).Passed w := by
  constructor
  · show w < (s.close.launch owner s.pending).2.nextGeneration
    rw [launch_nextGeneration]
    exact h.lt_of_window hw
  · show (s.close.launch owner s.pending).2.window ≠ some w
    rw [launch_window]
    simp [close]

/-! ## Timers that are cancelled -/

theorem mem_timers_close {s : Scheduler} {t : Timer} (h : t ∈ s.close.timers) :
    t ∈ s.timers ∨ s.window = some t.generation := by
  unfold close at h
  cases hwindow : s.window with
  | none =>
    rw [hwindow] at h
    exact Or.inl h
  | some w =>
    rw [hwindow] at h
    obtain ⟨u, hu, rfl⟩ := List.mem_map.1 h
    by_cases hw : u.generation = w
    · rw [generation_cancel, hw]
      exact Or.inr rfl
    · rw [if_neg hw]
      exact Or.inl hu

/-- A timer was cancelled before, or it is now, by a flush of its window. -/
theorem cancelled_move {s : Scheduler} {now : Nat} {m : Move} {t : Timer}
    (ht : t ∈ (s.move now m).timers) (hc : t.cancelled = true) :
    t ∈ s.timers ∨ ∃ owner, m = .flush owner ∧ s.window = some t.generation := by
  cases m with
  | mark table =>
    change t ∈ (s.mark now table).2.timers at ht
    cases hwindow : s.window with
    | some w =>
      rw [mark_open hwindow] at ht
      exact Or.inl ht
    | none =>
      rw [mark_closed hwindow] at ht
      rcases List.mem_append.1 ht with ht | ht
      · exact Or.inl ht
      · rw [List.mem_singleton.1 ht] at hc
        cases hc
  | expire w =>
    change t ∈ (s.expire w).2.timers at ht
    left
    rcases expire_cases s w with ⟨hwindow, h⟩ | h
    · -- The window was the timer's own, and that timer is gone.
      rw [h, launch_timers] at ht
      obtain ⟨ht, hne⟩ := List.mem_filter.1 ht
      refine (mem_timers_close ht).resolve_right fun hw => ?_
      rw [hwindow] at hw
      exact of_decide_eq_true hne (Option.some.inj hw).symm
    · rw [h] at ht
      exact List.mem_of_mem_filter ht
  | notice w => exact Or.inl (List.mem_of_mem_filter ht)
  | flush owner =>
    change t ∈ (s.close.launch owner s.pending).2.timers at ht
    rw [launch_timers] at ht
    rcases mem_timers_close ht with ht | hwindow
    · exact Or.inl ht
    · exact Or.inr ⟨owner, rfl, hwindow⟩
  | launched batch =>
    change t ∈ (s.launched batch).2.timers at ht
    unfold launched at ht
    split at ht <;> exact Or.inl ht
  | drop caller => exact Or.inl ht

/-- The timer of a window that is not open ends by noticing that it was cancelled. -/
theorem notice_other {s : Scheduler} (h : s.WellTimed) {w : Nat} (hw : s.window ≠ some w) :
    s.notice w = s.endTimer w := by
  unfold notice endTimer
  congr 1
  refine List.filter_congr fun t ht => ?_
  by_cases hgen : t.generation = w
  · have hc : t.cancelled = true := by
      by_contra hc
      exact hw (hgen ▸ h.window_of_mem ht (eq_false_of_ne_true hc))
    simp [hgen, hc]
  · simp [hgen]

end Digest.Scheduler

namespace Gateway

/-- The generation of the window that an event opens. -/
def opening (g : Gateway) (now : Nat) (e : Event) : List Nat :=
  if g.digests.window = none then (g.step now e).1.digests.window.toList else []

/-- The generations of the windows that a run opens, in order. -/
def openings (g : Gateway) (run : Run) : List Nat :=
  g.gather opening run

/-- An event of a flush or a shutdown, which closes the window of a generation. -/
def Closes (g : Gateway) (w : Nat) (e : Event) : Prop :=
  g.digests.window = some w ∧ ∃ caller, e.Flushes caller

theorem wellTimed_after (ttl cooldown : Nat) (run : Run) :
    ((empty ttl cooldown).after run).digests.WellTimed :=
  digests_after (P := Scheduler.WellTimed) (Scheduler.wellTimed_empty cooldown)
    (fun _ now m h => Scheduler.wellTimed_move h now m) run

section
variable {g : Gateway}

/-- The window that a flush or a shutdown closes is over. -/
theorem Closes.passed {w : Nat} {e : Event} (h : g.Closes w e) (hg : g.digests.WellTimed)
    (now : Nat) : (g.step now e).1.digests.Passed w := by
  obtain ⟨hwindow, caller, rfl | rfl⟩ := h
  · rw [step_digests]
    exact Scheduler.passed_flush hg hwindow now _
  · rw [step_digests]
    exact Scheduler.passed_flush hg hwindow now _

/-- A timer was cancelled before, or it is now, with its window. -/
theorem cancelled_step {now : Nat} {e : Event} {t : Timer}
    (ht : t ∈ (g.step now e).1.digests.timers) (hc : t.cancelled = true) :
    t ∈ g.digests.timers ∨ g.Closes t.generation e := by
  rw [step_digests] at ht
  cases hm : g.schedulerMove? e with
  | none =>
    rw [hm] at ht
    exact Or.inl ht
  | some m =>
    rw [hm] at ht
    rcases Scheduler.cancelled_move ht hc with ht | ⟨owner, rfl, hwindow⟩
    · exact Or.inl ht
    · obtain ⟨caller, -, he⟩ := request_of_schedulerMove? hm
      exact Or.inr ⟨hwindow, caller, he⟩

/-- A step opens no window, or the next one. -/
theorem range_step (now : Nat) (e : Event) :
    List.range g.digests.nextGeneration ++ g.opening now e =
      List.range (g.step now e).1.digests.nextGeneration := by
  unfold opening
  rw [step_digests]
  cases g.schedulerMove? e with
  | none =>
    show List.range g.digests.nextGeneration ++
      (if g.digests.window = none then g.digests.window.toList else []) = _
    by_cases hnone : g.digests.window = none
    · simp [hnone]
    · simp [hnone]
  | some m =>
    show List.range g.digests.nextGeneration ++ (if g.digests.window = none then
      (g.digests.move now m).window.toList else []) =
        List.range (g.digests.move now m).nextGeneration
    rcases Scheduler.window_move g.digests now m with
      ⟨hwindow, hnext⟩ | ⟨hwindow, hnext⟩ | ⟨hnone, hwindow, hnext⟩
    · rw [hwindow, hnext]
      by_cases hnone : g.digests.window = none <;> simp [hnone]
    · rw [hwindow, hnext]
      simp
    · rw [hwindow, hnext, if_pos hnone, List.range_succ]
      rfl

end

/-! ## Runs -/

theorem openings_eq_range (ttl cooldown : Nat) (run : Run) :
    (empty ttl cooldown).openings run =
      List.range ((empty ttl cooldown).after run).digests.nextGeneration := by
  induction run using List.reverseRecOn with
  | nil => rfl
  | append_singleton run e ih =>
    obtain ⟨now, e⟩ := e
    unfold openings at ih ⊢
    rw [gather_concat, after_concat, ih]
    exact range_step now e

/-- Every timer that is cancelled was cancelled by a flush or a shutdown that closed its window. -/
theorem exists_closes (ttl cooldown : Nat) (run : Run) {t : Timer}
    (ht : t ∈ ((empty ttl cooldown).after run).digests.timers) (hc : t.cancelled = true) :
    ∃ pre now e post, run = pre ++ (now, e) :: post ∧
      ((empty ttl cooldown).after pre).Closes t.generation e := by
  induction run using List.reverseRecOn with
  | nil => cases ht
  | append_singleton run e ih =>
    obtain ⟨now, e⟩ := e
    rw [after_concat] at ht
    rcases cancelled_step ht hc with ht | hcloses
    · obtain ⟨pre, now', e', post, rfl, hcloses⟩ := ih ht
      exact ⟨pre, now', e', post ++ [(now, e)], by simp, hcloses⟩
    · exact ⟨run, now, e, [], rfl, hcloses⟩

/--
**Windows and their timers.** In every run and for every cooldown, a window is open exactly while
tables are marked. It has the only timer that is not cancelled, and when no window is open there is
no such timer. Generations are counted up, and none is used twice.

Every other timer is one whose window a flush or a shutdown closed. That window is never open again,
and whether its timer fires or notices that it was cancelled, the timer is gone and nothing else
changes.
-/
theorem windows_and_timers (ttl cooldown : Nat) (run : Run) :
    let start := empty ttl cooldown
    let g := start.after run
    (g.digests.armed = true ↔ g.digests.pending ≠ []) ∧
    g.digests.running = g.digests.window.toList ∧
    (g.digests.timers.map Timer.generation).Nodup ∧
    start.openings run = List.range g.digests.nextGeneration ∧
    (∀ t ∈ g.digests.timers, g.digests.window ≠ some t.generation →
      ∃ pre now e post, run = pre ++ (now, e) :: post ∧
        (start.after pre).Closes t.generation e) ∧
    (∀ pre now e post w, run = pre ++ (now, e) :: post → (start.after pre).Closes w e →
      g.digests.window ≠ some w) ∧
    ∀ now w, g.digests.window ≠ some w →
      let g' := { g with digests := g.digests.endTimer w }
      g.step now (.expire w) = (g', []) ∧ g.step now (.notice w) = (g', []) := by
  intro start g
  have hg : g.digests.WellTimed := wellTimed_after ttl cooldown run
  have harmed : g.digests.armed = true ↔ g.digests.pending ≠ [] := by
    unfold Scheduler.armed Scheduler.pending Fields.names
    rw [hg.marked, ne_eq, ne_eq, List.map_eq_nil_iff]
  refine ⟨harmed, hg.running, hg.numbered.nodup, openings_eq_range ttl cooldown run, ?_, ?_, ?_⟩
  · intro t ht hother
    have hc : t.cancelled = true := by
      by_contra hc
      exact hother (hg.window_of_mem ht (eq_false_of_ne_true hc))
    exact exists_closes ttl cooldown run ht hc
  · rintro pre now e post w rfl hcloses
    have hpassed := hcloses.passed (wellTimed_after ttl cooldown pre) now
    have hafter : g = ((start.after pre).step now e).1.after post := by
      show start.after (pre ++ (now, e) :: post) = _
      rw [after_append]
      rfl
    rw [hafter]
    exact (digests_after (P := Scheduler.Passed w) hpassed
      (fun _ now m h => Scheduler.passed_move h now m) post).2
  · intro now w hw g'
    constructor
    · show g.expire w = _
      unfold expire
      rw [Scheduler.expire_other hw]
    · show ({ g with digests := g.digests.notice w }, []) = _
      rw [Scheduler.notice_other hg hw]

-- A flush leaves the cancelled timer of its window behind, next to that of the window after it.
example :
    let g := (empty 0 5).after
      [(0, .request 0 (.mark "a")), (1, .request 1 .flush), (2, .request 2 (.mark "b"))]
    g.digests.timers = [⟨0, 5, true⟩, ⟨1, 7, false⟩] ∧ g.digests.window = some 1 := by
  decide

end Gateway

end StoreGateway
