import Mathlib.Data.List.Induction
import StoreGateway.Proofs.Batches

/-!
# The deadline of a window

The timer of a window is set by the mark that opens it, and nothing puts it off. So what was marked
is taken no later than the cooldown after its mark, and by a timer no sooner than the cooldown after
anything was taken before, provided that timers fire when they are due.

* `Scheduler.deadline?`: when the timer of the open window is due;
* `Scheduler.deadline?_move_iff`: what a move makes of it;
* `Gateway.FirstMark`: when the first mark was made since tables were last taken;
* `Gateway.Punctual`: timers fire when they are due;
* `Gateway.deadline_le_mark`, `Gateway.le_deadline`: the deadline is no more than the cooldown after
  any mark in its window, and not before anything that has happened.
-/

namespace StoreGateway

open Catalog Command Digest Query

namespace Digest.Scheduler

/-- When the timer of the open window is due. -/
def deadline? (s : Scheduler) : Option Nat :=
  s.window.bind fun w => (s.timers.find? fun t => t.generation = w).map Timer.deadline

theorem deadline?_of_closed {s : Scheduler} (h : s.window = none) : s.deadline? = none := by
  unfold deadline?
  rw [h]
  rfl

/-- The timer of the open window is the only one that is not cancelled. -/
theorem WellTimed.deadline?_eq_some_iff {s : Scheduler} (h : s.WellTimed) {d : Nat} :
    s.deadline? = some d ↔ ∃ t ∈ s.timers, t.cancelled = false ∧ t.deadline = d := by
  constructor
  · intro hd
    obtain ⟨w, hw, hd⟩ := Option.bind_eq_some_iff.1 hd
    obtain ⟨t, ht, rfl, hc⟩ := h.exists_timer hw
    rw [h.numbered.find?_of_mem ht] at hd
    exact ⟨t, ht, hc, Option.some.inj hd⟩
  · rintro ⟨t, ht, hc, rfl⟩
    unfold deadline?
    rw [h.window_of_mem ht hc, Option.bind_some, h.numbered.find?_of_mem ht]
    rfl

theorem WellTimed.isSome_deadline? {s : Scheduler} (h : s.WellTimed) :
    s.deadline?.isSome = s.window.isSome := by
  cases hw : s.window with
  | none => rw [deadline?_of_closed hw, Option.isSome_none]
  | some w =>
    obtain ⟨t, ht, -, hc⟩ := h.exists_timer hw
    rw [h.deadline?_eq_some_iff.2 ⟨t, ht, hc, rfl⟩, Option.isSome_some, Option.isSome_some]

theorem WellTimed.deadline?_eq_none_iff {s : Scheduler} (h : s.WellTimed) :
    s.deadline? = none ↔ s.pending = [] := by
  unfold pending Fields.names
  rw [← Option.isNone_iff_eq_none, ← Option.not_isSome, Bool.not_eq_true', h.isSome_deadline?,
    List.map_eq_nil_iff, ← not_iff_not, Bool.not_eq_false, h.marked]

theorem cooldown_move (s : Scheduler) (now : Nat) (m : Move) :
    (s.move now m).cooldown = s.cooldown := by
  cases m with
  | mark table =>
    show (s.mark now table).2.cooldown = s.cooldown
    unfold mark
    dsimp only
    split <;> rfl
  | expire w =>
    show (s.expire w).2.cooldown = s.cooldown
    rcases expire_cases s w with ⟨-, h⟩ | h
    · rw [h, launch_cooldown]
      rfl
    · rw [h]
      rfl
  | flush owner => exact launch_cooldown s.close owner s.pending
  | launched batch =>
    show (s.launched batch).2.cooldown = s.cooldown
    unfold launched
    split <;> rfl
  | notice _ | drop _ => rfl

theorem deadline?_mark {s : Scheduler} (h : s.WellTimed) (now : Nat) (table : String) :
    (s.mark now table).2.deadline? = some (s.deadline?.getD (now + s.cooldown)) := by
  cases hw : s.window with
  | none =>
    have hmark := wellTimed_mark h now table
    rw [deadline?_of_closed hw, hmark.deadline?_eq_some_iff, mark_closed hw]
    exact ⟨s.newTimer now, List.mem_append_right _ (List.mem_singleton_self _), rfl, rfl⟩
  | some w =>
    obtain ⟨d, hd⟩ := Option.isSome_iff_exists.1 (h.isSome_deadline?.trans (by rw [hw]; rfl))
    rw [mark_open hw, hd]
    exact hd

theorem deadline?_endTimer {s : Scheduler} (h : s.WellTimed) {w : Nat} (hw : s.window ≠ some w) :
    (s.endTimer w).deadline? = s.deadline? := by
  refine Option.ext fun d => ?_
  rw [(wellTimed_endTimer h hw).deadline?_eq_some_iff, h.deadline?_eq_some_iff]
  constructor
  · rintro ⟨t, ht, hc, hd⟩
    exact ⟨t, List.mem_of_mem_filter ht, hc, hd⟩
  · rintro ⟨t, ht, hc, hd⟩
    refine ⟨t, List.mem_filter.2 ⟨ht, decide_eq_true ?_⟩, hc, hd⟩
    rintro rfl
    exact hw (h.window_of_mem ht hc)

theorem deadline?_notice {s : Scheduler} (h : s.WellTimed) (w : Nat) :
    (s.notice w).deadline? = s.deadline? := by
  refine Option.ext fun d => ?_
  rw [(wellTimed_notice h w).deadline?_eq_some_iff, h.deadline?_eq_some_iff]
  constructor
  · rintro ⟨t, ht, hc, hd⟩
    exact ⟨t, List.mem_of_mem_filter ht, hc, hd⟩
  · rintro ⟨t, ht, hc, hd⟩
    exact ⟨t, List.mem_filter.2 ⟨ht, by simp [hc]⟩, hc, hd⟩

/-- A move that is no mark leaves the deadline alone, or it takes what is marked. -/
theorem deadline?_move {s : Scheduler} (h : s.WellTimed) (now : Nat) {m : Move}
    (hm : ∀ table, m ≠ .mark table) :
    (s.move now m).deadline? = if s.taken m = [] then s.deadline? else none := by
  cases m with
  | mark table => exact absurd rfl (hm table)
  | expire w =>
    show (s.expire w).2.deadline? = _
    by_cases hw : s.window = some w
    · have hsome : s.window.isSome = true := by
        rw [hw]
        rfl
      have hpending : s.pending ≠ [] := by
        rw [Ne, ← h.deadline?_eq_none_iff, ← Option.isNone_iff_eq_none, ← Option.not_isSome,
          h.isSome_deadline?, hsome]
        exact Bool.noConfusion
      rw [taken_own h hw, if_neg hpending]
      obtain ⟨t, ht, rfl, -⟩ := h.exists_timer hw
      rw [expire_own ht hw]
      exact deadline?_of_closed (launch_window _ _ _)
    · rw [taken_other hw, if_pos rfl, expire_other hw]
      exact deadline?_endTimer h hw
  | notice w => exact deadline?_notice h w
  | flush owner =>
    have hnone : (s.flush owner).2.deadline? = none :=
      deadline?_of_closed (launch_window s.close owner s.pending)
    show (s.flush owner).2.deadline? = if s.pending = [] then s.deadline? else none
    rw [hnone]
    split
    · next hpending => exact (h.deadline?_eq_none_iff.2 hpending).symm
    · rfl
  | launched batch =>
    show (s.launched batch).2.deadline? = s.deadline?
    unfold launched
    split <;> rfl
  | drop caller => rfl

/-- **The deadline is set by the mark that opens the window, and stays until tables are taken.** -/
theorem deadline?_move_iff {s : Scheduler} (h : s.WellTimed) {now d : Nat} {m : Move} :
    (s.move now m).deadline? = some d ↔
      (marked m ≠ [] ∧ s.deadline? = none ∧ d = now + s.cooldown) ∨
        s.deadline? = some d ∧ s.taken m = [] := by
  by_cases hm : ∃ table, m = .mark table
  · obtain ⟨table, rfl⟩ := hm
    show (s.mark now table).2.deadline? = some d ↔ ([table] ≠ [] ∧ _) ∨ _ ∧ [] = []
    rw [deadline?_mark h]
    cases hd : s.deadline? with
    | none => simp [eq_comm]
    | some d' => simp
  · have hmarked : marked m = [] := by
      cases m with
      | mark t => exact absurd ⟨t, rfl⟩ hm
      | expire _ | notice _ | flush _ | launched _ | drop _ => rfl
    rw [deadline?_move h now fun t e => hm ⟨t, e⟩, hmarked]
    split
    · next htaken => simp [htaken]
    · next htaken => simp [htaken]

end Digest.Scheduler

namespace Gateway

/-- When the first mark was made since tables were last taken. -/
def FirstMark (g : Gateway) (run : Run) (first : Nat) : Prop :=
  ∃ a e b, run = a ++ (first, e) :: b ∧ (g.after a).marks first e ≠ [] ∧
    (∀ table, ¬g.MarkedSince a table) ∧ (g.after (a ++ [(first, e)])).taken b = []

/--
Time goes on, and timers fire when they are due: one that is not cancelled fires at its deadline,
and as long as it has not fired nothing else happens later than that.
-/
structure Punctual (g : Gateway) (run : Run) : Prop where
  ordered : run.Pairwise fun d e => d.1 ≤ e.1
  due : ∀ pre now e post, run = pre ++ (now, e) :: post →
    ∀ t ∈ (g.after pre).digests.timers, t.cancelled = false →
      now ≤ t.deadline ∧ (e = .expire t.generation → now = t.deadline)

/-! ## One event -/

section
variable {g : Gateway} {now d : Nat} {e : Event}

theorem takes_of_marks (h : g.marks now e ≠ []) : g.takes now e = [] := by
  rw [takes_eq_nil_iff]
  unfold marks at h
  cases hm : g.schedulerMove? e with
  | none => rfl
  | some m =>
    rw [hm] at h
    cases m with
    | mark table => rfl
    | expire _ | notice _ | flush _ | launched _ | drop _ => exact absurd rfl h

theorem deadline?_step_iff (hg : g.digests.WellTimed) :
    (g.step now e).1.digests.deadline? = some d ↔
      (g.marks now e ≠ [] ∧ g.digests.deadline? = none ∧ d = now + g.digests.cooldown) ∨
        g.digests.deadline? = some d ∧ g.takes now e = [] := by
  rw [takes_eq_nil_iff, step_digests]
  unfold marks
  cases g.schedulerMove? e with
  | none => simp
  | some m => exact Scheduler.deadline?_move_iff hg

/-- Whoever takes or flushes leaves no deadline behind. -/
theorem deadline?_of_take (hg : g.digests.WellTimed)
    (h : g.takes now e ≠ [] ∨ ∃ caller, e.Flushes caller) :
    (g.step now e).1.digests.deadline? = none := by
  have htakes : g.takes now e = [] → g.digests.deadline? = none ∧ g.marks now e = [] := by
    intro hnil
    obtain ⟨caller, hflushes⟩ := h.resolve_left fun hne => hne hnil
    refine ⟨hg.deadline?_eq_none_iff.2 ?_, ?_⟩
    · by_contra hpending
      rw [takes_eq_pending hg (Or.inl ⟨caller, hflushes⟩) hpending] at hnil
      cases hnil
    · rcases hflushes with rfl | rfl <;> rfl
  rw [Option.eq_none_iff_forall_ne_some]
  intro d hd
  rcases (deadline?_step_iff hg).1 hd with ⟨hmarks, -, -⟩ | ⟨hsome, hnil⟩
  · exact hmarks (htakes (takes_of_marks hmarks)).2
  · rw [(htakes hnil).1] at hsome
    cases hsome

/-- A timer that takes something is that of the open window. -/
theorem window_of_takes {w : Nat} (h : g.takes now (.expire w) ≠ []) :
    g.digests.window = some w := by
  by_contra hw
  exact h (takes_eq_nil_iff.2 (Scheduler.taken_other hw))

end

/-! ## Runs -/

section
variable {g : Gateway} {run : Run} {d : Nat}

theorem wellTimed_of_after (hg : g.digests.WellTimed) (run : Run) :
    (g.after run).digests.WellTimed :=
  digests_after hg (fun _ now m h => Scheduler.wellTimed_move h now m) run

theorem cooldown_after (g : Gateway) (run : Run) :
    (g.after run).digests.cooldown = g.digests.cooldown :=
  digests_after (P := fun s => s.cooldown = g.digests.cooldown) rfl
    (fun s now m h => (Scheduler.cooldown_move s now m).trans h) run

/-- The deadline was set by a mark that opened the window, and nothing was taken after that. -/
theorem deadline?_after_iff (hg : g.digests.WellTimed) (hnone : g.digests.deadline? = none) :
    (g.after run).digests.deadline? = some d ↔
      ∃ a first e b, run = a ++ (first, e) :: b ∧
        ((g.after a).marks first e ≠ [] ∧ (g.after a).digests.deadline? = none ∧
          d = first + g.digests.cooldown) ∧
        (g.after (a ++ [(first, e)])).taken b = [] := by
  induction run using List.reverseRecOn with
  | nil =>
    refine iff_of_false (by simp [after, hnone]) ?_
    rintro ⟨a, first, e, b, hsplit, -⟩
    simp at hsplit
  | append_singleton run e ih =>
    obtain ⟨now, e⟩ := e
    rw [after_concat, deadline?_step_iff (wellTimed_of_after hg run), ih, cooldown_after]
    exact (exists_since_concat (P := fun a t e => (g.after a).marks t e ≠ [] ∧
      (g.after a).digests.deadline? = none ∧ d = t + g.digests.cooldown)).symm

theorem deadline?_after_of_taken (hg : g.digests.WellTimed) (hd : g.digests.deadline? = some d)
    (h : g.taken run = []) : (g.after run).digests.deadline? = some d := by
  induction run generalizing g with
  | nil => exact hd
  | cons e run ih =>
    obtain ⟨now, e⟩ := e
    obtain ⟨hhead, htail⟩ := List.append_eq_nil_iff.1 h
    have hstep := (deadline?_step_iff hg).2 (Or.inr ⟨hd, hhead⟩)
    exact ih (wellTimed_of_after hg [(now, e)]) hstep htail

/-- The deadline is no more than the cooldown after any mark since tables were last taken. -/
theorem deadline_le_mark (hg : g.digests.WellTimed) (hnone : g.digests.deadline? = none)
    {a b : Run} {m : Nat} {e : Event} (hbefore : ∀ f ∈ a, f.1 ≤ m)
    (hmark : (g.after a).marks m e ≠ []) (htaken : (g.after (a ++ [(m, e)])).taken b = [])
    (hd : (g.after (a ++ (m, e) :: b)).digests.deadline? = some d) :
    d ≤ m + g.digests.cooldown := by
  have ha : (g.after a).digests.WellTimed := wellTimed_of_after hg a
  obtain ⟨d', hd', hle⟩ : ∃ d', (g.after (a ++ [(m, e)])).digests.deadline? = some d' ∧
      d' ≤ m + g.digests.cooldown := by
    rw [after_concat]
    cases hopen : (g.after a).digests.deadline? with
    | none =>
      refine ⟨m + g.digests.cooldown, (deadline?_step_iff ha).2 (Or.inl ⟨hmark, hopen, ?_⟩),
        Nat.le_refl _⟩
      rw [cooldown_after]
    | some d' =>
      refine ⟨d', (deadline?_step_iff ha).2 (Or.inr ⟨hopen, takes_of_marks hmark⟩), ?_⟩
      obtain ⟨a', first, f, b', rfl, ⟨-, -, rfl⟩, -⟩ := (deadline?_after_iff hg hnone).1 hopen
      have hfirst : first ≤ m := hbefore (first, f) (by simp)
      omega
  have hlast := deadline?_after_of_taken (wellTimed_of_after hg _) hd' htaken
  rw [← after_append_cons, hd] at hlast
  cases hlast
  exact hle

end

/-! ## Punctual timers -/

section
variable {g : Gateway} {pre post : Run} {now d : Nat} {e : Event}

theorem Punctual.of_append (h : g.Punctual (pre ++ post)) : g.Punctual pre := by
  refine ⟨(List.pairwise_append.1 h.ordered).1, ?_⟩
  rintro a t f b rfl
  exact h.due a t f (b ++ post) (by rw [List.append_assoc, List.cons_append])

theorem Punctual.nil : g.Punctual [] :=
  ⟨List.Pairwise.nil, by simp⟩

theorem Punctual.cons {run : Run} (hnow : ∀ f ∈ run, now ≤ f.1)
    (hdue : ∀ t ∈ g.digests.timers, t.cancelled = false →
      now ≤ t.deadline ∧ (e = .expire t.generation → now = t.deadline))
    (h : (g.step now e).1.Punctual run) : g.Punctual ((now, e) :: run) := by
  refine ⟨List.pairwise_cons.2 ⟨hnow, h.ordered⟩, ?_⟩
  rintro (_ | ⟨f, pre⟩) t d post hsplit
  · cases hsplit
    exact hdue
  · cases hsplit
    exact h.due pre t d post rfl

theorem Punctual.le_now (h : g.Punctual (pre ++ (now, e) :: post)) : ∀ f ∈ pre, f.1 ≤ now :=
  fun f hf => (List.pairwise_append.1 h.ordered).2.2 f hf (now, e) List.mem_cons_self

theorem Punctual.now_le (h : g.Punctual (pre ++ (now, e) :: post)) : ∀ f ∈ post, now ≤ f.1 :=
  (List.pairwise_cons.1 (List.pairwise_append.1 h.ordered).2.1).1

theorem Punctual.now_le_deadline (h : g.Punctual (pre ++ (now, e) :: post))
    (hg : g.digests.WellTimed) (hd : (g.after pre).digests.deadline? = some d) : now ≤ d := by
  obtain ⟨t, ht, hc, rfl⟩ := (wellTimed_of_after hg pre).deadline?_eq_some_iff.1 hd
  exact (h.due pre now e post rfl t ht hc).1

theorem Punctual.deadline?_of_expire {w : Nat}
    (h : g.Punctual (pre ++ (now, .expire w) :: post)) (hg : g.digests.WellTimed)
    (htakes : (g.after pre).takes now (.expire w) ≠ []) :
    (g.after pre).digests.deadline? = some now := by
  have hpre := wellTimed_of_after hg pre
  obtain ⟨t, ht, rfl, hc⟩ := hpre.exists_timer (window_of_takes htakes)
  exact hpre.deadline?_eq_some_iff.2 ⟨t, ht, hc, ((h.due pre now _ post rfl t ht hc).2 rfl).symm⟩

/-- Nothing has happened later than the deadline. -/
theorem Punctual.le_deadline {run : Run} (h : g.Punctual run) (hg : g.digests.WellTimed)
    (hd : (g.after run).digests.deadline? = some d) : ∀ f ∈ run, f.1 ≤ d := by
  rcases List.eq_nil_or_concat run with rfl | ⟨pre, ⟨now, e⟩, rfl⟩
  · simp
  · rw [List.concat_eq_append] at h hd ⊢
    have hnow : now ≤ d := by
      rw [after_concat] at hd
      rcases (deadline?_step_iff (wellTimed_of_after hg pre)).1 hd with ⟨-, -, rfl⟩ | ⟨hd, -⟩
      · exact Nat.le_add_right now _
      · exact h.now_le_deadline hg hd
    intro f hf
    rcases List.mem_append.1 hf with hf | hf
    · exact Nat.le_trans (h.le_now f hf) hnow
    · rw [List.mem_singleton.1 hf]
      exact hnow

/-- What was marked is taken within the cooldown, or it is still marked and no time has passed. -/
theorem Punctual.taken_in_time {table : String} (h : g.Punctual (pre ++ (now, e) :: post))
    (hg : g.digests.WellTimed) (hnone : g.digests.deadline? = none)
    (htable : table ∈ (g.after pre).marks now e) :
    let g₀ := g.after (pre ++ [(now, e)])
    (g₀.taken post = [] ∧ table ∈ (g₀.after post).digests.pending ∧
        ∀ f ∈ post, f.1 ≤ now + g.digests.cooldown) ∨
      ∃ a t f b tables, post = a ++ (t, f) :: b ∧ g₀.taken a = [] ∧
        (g₀.after a).takes t f = [tables] ∧ table ∈ tables ∧ t ≤ now + g.digests.cooldown := by
  intro g₀
  have hmark : (g.after pre).marks now e ≠ [] := List.ne_nil_of_mem htable
  have hfirst : table ∈ g₀.digests.pending := by
    show table ∈ (g.after (pre ++ [(now, e)])).digests.pending
    rw [after_concat]
    exact (mem_pending_step now e table).2 (Or.inl htable)
  -- Until it is taken the table is marked, and the deadline is at most the cooldown away.
  have hpending : ∀ a, g₀.taken a = [] → table ∈ (g₀.after a).digests.pending := by
    intro a ha
    have hcases : (g₀.taken a = [] ∧ table ∈ (g₀.after a).digests.pending) ∨
        ∃ tables rest, g₀.taken a = tables :: rest ∧ table ∈ tables := taken_of_mem_pending hfirst
    rcases hcases with ⟨-, hmem⟩ | ⟨tables, rest, hcons, -⟩
    · exact hmem
    · rw [ha] at hcons
      cases hcons
  have hdeadline : ∀ a, g₀.taken a = [] →
      ∃ d, (g.after (pre ++ (now, e) :: a)).digests.deadline? = some d ∧
        d ≤ now + g.digests.cooldown := by
    intro a ha
    have hopen : (g.after (pre ++ (now, e) :: a)).digests.deadline? ≠ none := by
      rw [Ne, (wellTimed_of_after hg _).deadline?_eq_none_iff, after_append_cons]
      exact List.ne_nil_of_mem (hpending a ha)
    obtain ⟨d, hd⟩ := Option.ne_none_iff_exists'.1 hopen
    exact ⟨d, hd, deadline_le_mark hg hnone h.le_now hmark ha hd⟩
  rcases gather_cases takes g₀ post with hsilent | ⟨a, t, f, b, rfl, ha, htakes⟩
  · obtain ⟨d, hd, hle⟩ := hdeadline post hsilent
    refine Or.inl ⟨hsilent, hpending post hsilent, fun f hf => ?_⟩
    exact Nat.le_trans (h.le_deadline hg hd f (by simp [hf])) hle
  · obtain ⟨tables, htables⟩ := exists_of_takes htakes
    obtain ⟨d, hd, hle⟩ := hdeadline a ha
    have hsplit : pre ++ (now, e) :: (a ++ (t, f) :: b) =
        (pre ++ (now, e) :: a) ++ (t, f) :: b := by
      rw [List.append_assoc, List.cons_append]
    rw [hsplit] at h
    have htime : t ≤ now + g.digests.cooldown := Nat.le_trans (h.now_le_deadline hg hd) hle
    refine Or.inr ⟨a, t, f, b, tables, rfl, ha, htables, ?_, htime⟩
    rw [eq_pending_of_takes htables]
    exact hpending a ha

/-- A timer that takes something does so no sooner than the cooldown after the last take. -/
theorem Punctual.cooldown_le {mid : Run} {w later : Nat}
    (h : g.Punctual (pre ++ (now, e) :: (mid ++ (later, .expire w) :: post)))
    (hg : g.digests.WellTimed)
    (htake : (g.after pre).takes now e ≠ [] ∨ ∃ caller, e.Flushes caller)
    (htakes : (g.after (pre ++ (now, e) :: mid)).takes later (.expire w) ≠ []) :
    now + g.digests.cooldown ≤ later := by
  have hnow := h.now_le
  have hsplit : pre ++ (now, e) :: (mid ++ (later, .expire w) :: post) =
      (pre ++ (now, e) :: mid) ++ (later, .expire w) :: post := by
    rw [List.append_assoc, List.cons_append]
  rw [hsplit] at h
  have hlater := h.deadline?_of_expire hg htakes
  have hnone : (g.after (pre ++ [(now, e)])).digests.deadline? = none := by
    rw [after_concat]
    exact deadline?_of_take (wellTimed_of_after hg pre) htake
  rw [after_append_cons] at hlater
  obtain ⟨a, first, f, b, rfl, ⟨-, -, rfl⟩, -⟩ :=
    (deadline?_after_iff (wellTimed_of_after hg _) hnone).1 hlater
  have hfirst : now ≤ first := hnow (first, f) (by simp)
  rw [cooldown_after]
  omega

end

/-- The deadline is the cooldown after the first mark since tables were last taken. -/
theorem deadline?_iff_firstMark (ttl cooldown : Nat) (run : Run) (d : Nat) :
    ((empty ttl cooldown).after run).digests.deadline? = some d ↔
      ∃ first, (empty ttl cooldown).FirstMark run first ∧ d = first + cooldown := by
  have hidle : ∀ a, ((empty ttl cooldown).after a).digests.deadline? = none ↔
      ∀ table, ¬(empty ttl cooldown).MarkedSince a table := by
    intro a
    rw [(wellTimed_after ttl cooldown a).deadline?_eq_none_iff, List.eq_nil_iff_forall_not_mem]
    exact forall_congr' fun table => not_congr (mem_pending_iff ttl cooldown a table)
  rw [deadline?_after_iff (Scheduler.wellTimed_empty cooldown) rfl]
  constructor
  · rintro ⟨a, first, e, b, hsplit, ⟨hmark, hopen, hd⟩, htaken⟩
    exact ⟨first, ⟨a, e, b, hsplit, hmark, (hidle a).1 hopen, htaken⟩, hd⟩
  · rintro ⟨first, ⟨a, e, b, hsplit, hmark, hopen, htaken⟩, hd⟩
    exact ⟨a, first, e, b, hsplit, ⟨hmark, (hidle a).2 hopen, hd⟩, htaken⟩

/--
**A window ends the cooldown after its first mark, and no other mark puts it off.** In every run in
which timers fire when they are due, and for every cooldown:

* a window is open exactly while there is a deadline, and that is the cooldown after the first mark
  since tables were last taken;
* nothing has happened later than the deadline; it is at most the cooldown after any mark in its
  window; and nothing moves it, least of all a mark, until tables are taken;
* a table is taken within the cooldown after its mark, or it is still marked and nothing has
  happened later than that;
* a timer takes tables exactly the cooldown after the first mark since they were last taken;
* and that is no less than the cooldown after a timer, a flush or a shutdown before it, even if that
  flush or shutdown found nothing to take.
-/
theorem deadlines (ttl cooldown : Nat) (run : Run) (h : (empty ttl cooldown).Punctual run) :
    let start := empty ttl cooldown
    let g := start.after run
    (g.digests.armed = g.digests.deadline?.isSome ∧
      ∀ d, g.digests.deadline? = some d ↔
        ∃ first, start.FirstMark run first ∧ d = first + cooldown) ∧
    (∀ d, g.digests.deadline? = some d →
      (∀ e ∈ run, e.1 ≤ d) ∧
      (∀ pre m e post, run = pre ++ (m, e) :: post → (start.after pre).marks m e ≠ [] →
        (start.after (pre ++ [(m, e)])).taken post = [] → d ≤ m + cooldown) ∧
      ∀ now e, g.marks now e ≠ [] ∨ g.takes now e = [] →
        (g.step now e).1.digests.deadline? = some d) ∧
    (∀ pre m e post table, run = pre ++ (m, e) :: post → table ∈ (start.after pre).marks m e →
      let g₀ := start.after (pre ++ [(m, e)])
      (g₀.taken post = [] ∧ table ∈ g.digests.pending ∧ ∀ f ∈ post, f.1 ≤ m + cooldown) ∨
        ∃ a t f b tables, post = a ++ (t, f) :: b ∧ g₀.taken a = [] ∧
          (g₀.after a).takes t f = [tables] ∧ table ∈ tables ∧ t ≤ m + cooldown) ∧
    (∀ pre t w post, run = pre ++ (t, .expire w) :: post →
      (start.after pre).takes t (.expire w) ≠ [] →
      ∃ first, start.FirstMark pre first ∧ t = first + cooldown) ∧
    ∀ pre t e mid later w post, run = pre ++ (t, e) :: (mid ++ (later, .expire w) :: post) →
      ((start.after pre).takes t e ≠ [] ∨ ∃ caller, e.Flushes caller) →
      (start.after (pre ++ (t, e) :: mid)).takes later (.expire w) ≠ [] → t + cooldown ≤ later := by
  intro start g
  have hstart : start.digests.WellTimed := Scheduler.wellTimed_empty cooldown
  have hg : g.digests.WellTimed := wellTimed_after ttl cooldown run
  refine ⟨⟨hg.isSome_deadline?.symm, deadline?_iff_firstMark ttl cooldown run⟩, ?_, ?_, ?_, ?_⟩
  · intro d hd
    refine ⟨h.le_deadline hstart hd, ?_, ?_⟩
    · rintro pre m e post rfl hmark htaken
      exact deadline_le_mark hstart rfl h.le_now hmark htaken hd
    · intro now e he
      have htakes : g.takes now e = [] := he.elim takes_of_marks id
      exact (deadline?_step_iff hg).2 (Or.inr ⟨hd, htakes⟩)
  · rintro pre m e post table rfl htable g₀
    have hafter : g = g₀.after post := after_append_cons start pre post m e
    rw [hafter]
    exact h.taken_in_time hstart rfl htable
  · rintro pre t w post rfl htakes
    exact (deadline?_iff_firstMark ttl cooldown pre t).1 (h.deadline?_of_expire hstart htakes)
  · rintro pre t e mid later w post rfl htake htakes
    exact h.cooldown_le hstart htake htakes

/--
A flush ends the first window early. The timer of the second takes the tables that were marked since
then, the cooldown after the first of these marks.
-/
theorem deadline_of_second_window :
    let pre : Run := [(0, .request 0 (.mark "a")), (3, .request 1 .flush),
      (4, .request 2 (.mark "b")), (6, .request 3 (.mark "a"))]
    (empty 0 5).Punctual (pre ++ [(9, .expire 1)]) ∧
      ∃ first, (empty 0 5).FirstMark pre first ∧ 9 = first + 5 := by
  intro pre
  have hpunctual : (empty 0 5).Punctual (pre ++ [(9, .expire 1)]) := by
    refine .cons (by decide) nofun (.cons (by decide) ?_ (.cons (by decide) ?_
      (.cons (by decide) ?_ (.cons (by decide) ?_ .nil))))
    · exact List.forall_mem_singleton.2 fun _ => ⟨by decide, nofun⟩
    · exact List.forall_mem_singleton.2 nofun
    · exact List.forall_mem_cons.2
        ⟨nofun, List.forall_mem_singleton.2 fun _ => ⟨by decide, nofun⟩⟩
    · exact List.forall_mem_cons.2
        ⟨nofun, List.forall_mem_singleton.2 fun _ => ⟨by decide, fun _ => rfl⟩⟩
  exact ⟨hpunctual, (deadlines 0 5 _ hpunctual).2.2.2.1 pre 9 1 [] rfl (by decide)⟩

end Gateway

end StoreGateway
