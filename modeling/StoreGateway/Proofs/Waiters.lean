import Mathlib.Data.List.Induction
import StoreGateway.Proofs.Engaged
import StoreGateway.Proofs.SingleFlight

/-!
# Every waiting caller is told once

A caller who finds no columns waits for the refresh that is in flight, and that refresh answers all
who wait for it, in the order in which they came.

* `Gateway.told`: what a refresh tells those who have waited for it;
* `Gateway.waits`: the caller who begins to wait with an event;
* `Gateway.WaitsFor`, `Gateway.Gone`: a caller waits for a refresh, and for nothing else; a caller
  waits for nothing;
* `Gateway.answersTo_of_waitsFor`: one who waits is told once, by the first refresh that ends;
* `Gateway.effects_since_idle`: the end of a refresh tells all who came since the table was idle.
-/

namespace StoreGateway

open Catalog Command Digest Query

namespace Catalog.ColumnCache

/-- The callers who wait for the columns of a table, in order. -/
def waiters (c : ColumnCache) (table : String) : List Ticket :=
  (c.waiting.get? table).getD []

theorem waiters_of_idle {c : ColumnCache} {table : String} (h : c.isRefreshing table = false) :
    c.waiters table = [] := by
  unfold isRefreshing Fields.contains at h
  unfold waiters
  rw [Option.isSome_eq_false_iff, Option.isNone_iff_eq_none] at h
  rw [h]
  rfl

theorem waiters_congr {c d : ColumnCache} (h : d.waiting = c.waiting) (table : String) :
    d.waiters table = c.waiters table := by
  unfold waiters
  rw [h]

theorem waiters_insert {c d : ColumnCache} {table : String} {callers : List Ticket}
    (h : d.waiting = c.waiting.insert table callers) (other : String) :
    d.waiters other = if table = other then callers else c.waiters other := by
  unfold waiters
  rw [h, Fields.get?_insert]
  split <;> rfl

/-- A look-up makes its caller wait when there are no columns, and changes nothing for others. -/
theorem waiters_lookup (c : ColumnCache) (now : Nat) (table other : String) (caller : Ticket) :
    (c.lookup now table caller).2.waiters other =
      c.waiters other ++
        if c.entries.get? table = none ∧ table = other then [caller] else [] := by
  unfold lookup
  split
  · next e hentry =>
    have hnone : ¬(c.entries.get? table = none ∧ table = other) := by simp [hentry]
    rw [if_neg hnone, List.append_nil]
    split
    · exact waiters_congr rfl other
    · dsimp only
      split
      · exact waiters_congr rfl other
      · next hidle =>
        rw [waiters_insert rfl other]
        split
        · next hother =>
          rw [← hother]
          exact (waiters_of_idle (eq_false_of_ne_true hidle)).symm
        · exact waiters_congr rfl other
  · next hentry =>
    split
    · next callers hwaiting =>
      rw [waiters_insert rfl other]
      by_cases hother : table = other
      · rw [if_pos hother, if_pos ⟨hentry, hother⟩, ← hother]
        unfold waiters
        rw [hwaiting]
        rfl
      · rw [if_neg hother, if_neg (fun h => hother h.2), List.append_nil]
    · next hidle =>
      rw [waiters_insert rfl other]
      by_cases hother : table = other
      · rw [if_pos hother, if_pos ⟨hentry, hother⟩, ← hother]
        unfold waiters
        rw [hidle]
        rfl
      · rw [if_neg hother, if_neg (fun h => hother h.2), List.append_nil]
        exact waiters_congr rfl other

theorem lookup_columns_of_miss {c : ColumnCache} {table : String}
    (h : c.entries.get? table = none) (now : Nat) (caller : Ticket) :
    (c.lookup now table caller).1.columns = none := by
  unfold lookup
  rw [h]
  dsimp only
  split <;> rfl

theorem waiters_begin (c : ColumnCache) (table other : String) :
    (c.begin table).waiters other = c.waiters other := by
  unfold begin
  split <;> rfl

theorem waiters_finish {c : ColumnCache} {table : String} (h : table ∈ c.loading) (now : Nat)
    (other : String) (reply : Except Error Json) :
    (c.finish now table reply).2.waiters other =
      if table = other then [] else c.waiters other := by
  rw [finish_of_mem h]
  unfold waiters
  rw [Fields.get?_erase]
  split <;> rfl

end Catalog.ColumnCache

namespace Gateway

/-- What a refresh tells those who have waited for it: the columns in the reply, or what failed. -/
def told (table : String) (reply : Except Error Json) : Except Error Answer :=
  match reply.bind columnsOfInfo with
  | .ok columns => .ok (.columns columns)
  | .error e => .error (.metadata ("failed to load columns for " ++ table ++ ": " ++ e.message))

theorem outcome_eq_told (table : String) (reply : Except Error Json) :
    (ColumnCache.outcome table reply).map .columns = told table reply := by
  unfold ColumnCache.outcome ColumnCache.loaded told
  cases reply.bind columnsOfInfo <;> rfl

theorem told_ne_internal (table : String) (reply : Except Error Json) (cause : String) :
    told table reply ≠ .error (.internal cause) := by
  unfold told
  split <;> simp

/-- The caller who begins to wait for the columns of a table with an event. -/
def waits (table : String) (g : Gateway) (_ : Nat) : Event → List Ticket
  | .request caller (.columns t) =>
    if t.name ≠ "" ∧ g.columns.entries.get? t.name = none ∧ t.name = table then [caller] else []
  | _ => []

/-! ## The end of a refresh -/

theorem Refreshes.mem_loading {g : Gateway} (h : g.Refreshes) {call : Nat} {table : String}
    (hp : g.purpose? call = some (.refresh table)) : table ∈ g.columns.loading := by
  rw [← List.count_pos_iff, ← h.called table]
  exact List.countP_pos_iff.2 ⟨_, mem_of_purpose? hp, by simp⟩

theorem ending_eq_nil_iff {g : Gateway} {table : String} {now : Nat} {e : Event} :
    ending table g now e = [] ↔
      ∀ call outcome, e = .reply call outcome → g.purpose? call ≠ some (.refresh table) := by
  cases e with
  | reply call outcome => simp [ending]
  | request _ _ | begin _ | expire _ | notice _ | drop _ => simp [ending]

theorem exists_of_ending {g : Gateway} {table : String} {now : Nat} {e : Event}
    (h : ending table g now e ≠ []) :
    ∃ call outcome, e = .reply call outcome ∧ g.purpose? call = some (.refresh table) := by
  by_contra hnone
  exact h (ending_eq_nil_iff.2 fun call outcome he hp => hnone ⟨call, outcome, he, hp⟩)

/-- All who wait for a refresh are told when it ends, in the order in which they came. -/
theorem effects_of_ending {g : Gateway} (h : g.Refreshes) {call : Nat} {table : String}
    (hp : g.purpose? call = some (.refresh table)) (now : Nat) (outcome : Except Error Json) :
    (g.step now (.reply call outcome)).2 =
      (g.columns.waiters table).map fun caller => .answer caller (told table outcome) := by
  rw [step_reply hp]
  show ((g.columns.finish now table outcome).1.map fun caller =>
    Effect.answer caller ((ColumnCache.outcome table outcome).map .columns)) = _
  rw [outcome_eq_told, ColumnCache.finish_of_mem (h.mem_loading hp)]
  rfl

theorem columns_of_ending {g : Gateway} {call : Nat} {table : String}
    (hp : g.purpose? call = some (.refresh table)) (now : Nat) (outcome : Except Error Json) :
    (g.step now (.reply call outcome)).1.columns =
      (g.columns.finish now table outcome).2 := by
  rw [step_columns]
  simp [cacheMove?, hp, replyMove?, ColumnCache.move]

theorem isRefreshing_ending {g : Gateway} (h : g.Refreshes) {call : Nat} {table : String}
    (hp : g.purpose? call = some (.refresh table)) (now : Nat) (outcome : Except Error Json) :
    (g.step now (.reply call outcome)).1.columns.isRefreshing table = false := by
  rw [columns_of_ending hp, ColumnCache.finish_of_mem (h.mem_loading hp)]
  show (g.columns.waiting.erase table).contains table = false
  simp

/-- Those who wait stay, and others join them behind, until the refresh ends and nobody is left. -/
theorem waiters_step {g : Gateway} (h : g.Refreshes) (now : Nat) (e : Event) (table : String) :
    (g.step now e).1.columns.waiters table =
      if ending table g now e = [] then g.columns.waiters table ++ waits table g now e else [] := by
  cases e with
  | request caller r =>
    rw [if_pos (show ending table g now (.request caller r) = [] from rfl)]
    cases r with
    | columns t =>
      by_cases hname : t.name = ""
      · rw [step_look_of_empty hname]
        simp [waits, hname]
      · rw [step_look hname, lookup_columns, ColumnCache.waiters_lookup]
        simp [waits, hname]
    | run _ _ _ | stats _ | tables | add _ _ _ | clear _ | mark _ | flush | shutdown =>
      rw [step_columns]
      exact (List.append_nil _).symm
  | begin t =>
    rw [if_pos (show ending table g now (.begin t) = [] from rfl), step_columns]
    exact (ColumnCache.waiters_begin g.columns t table).trans (List.append_nil _).symm
  | reply call outcome =>
    cases hp : g.purpose? call with
    | none =>
      rw [step_reply_of_none hp, if_pos (by simp [ending, hp])]
      exact (List.append_nil _).symm
    | some p =>
      by_cases hrefresh : ∃ t, p = .refresh t
      · obtain ⟨t, rfl⟩ := hrefresh
        rw [columns_of_ending hp, ColumnCache.waiters_finish (h.mem_loading hp)]
        by_cases ht : t = table <;> simp [ending, hp, ht, waits]
      · rw [step_columns, if_pos (by
          rw [ending_eq_nil_iff]
          rintro call' outcome' ⟨⟩ hp'
          rw [hp] at hp'
          exact hrefresh ⟨table, Option.some.inj hp'⟩)]
        cases p with
        | refresh t => exact absurd ⟨t, rfl⟩ hrefresh
        | run _ _ | stats _ | tables _ | add _ _ | digest _ _ =>
          simp [cacheMove?, hp, replyMove?, waits]
  | expire _ | notice _ | drop _ =>
    rw [if_pos (show ending table g now _ = [] from rfl), step_columns]
    exact (List.append_nil _).symm

/-! ## Callers who wait, and callers who do not -/

/-- Whoever is not engaged is told about look-ups only. -/
theorem answer_cases {g : Gateway} {now : Nat} {e : Event} {caller : Ticket}
    {result : Except Error Answer} (h : ¬g.Engaged caller) (he : ¬e.AsksElse caller)
    (hmem : Effect.answer caller result ∈ (g.step now e).2) :
    (e.requester? = some caller ∧ ∀ cause, result ≠ .error (.internal cause)) ∨
      ∃ table call outcome, e = .reply call outcome ∧
        g.purpose? call = some (.refresh table) ∧ caller ∈ g.columns.waiters table ∧
        result = told table outcome := by
  cases causes_of_mem hmem with
  | looked c table columns => exact Or.inl ⟨rfl, by simp⟩
  | unnamed c table => exact Or.inl ⟨rfl, by simp⟩
  | asked hr c r => exact absurd ⟨_, rfl, hr⟩ he
  | replied hc hcaller outcome r => exact absurd (Or.inl ⟨_, hc, hcaller⟩) h
  | launched hb hcaller call outcome r => exact absurd (Or.inr ⟨_, hb, hcaller⟩) h
  | refreshed hp hwaiting hcaller outcome =>
    refine Or.inr ⟨_, _, outcome, rfl, hp, ?_, outcome_eq_told _ outcome⟩
    unfold ColumnCache.waiters
    rw [hwaiting]
    exact hcaller

/-- A caller waits for the columns of a table, and for nothing else. -/
structure WaitsFor (g : Gateway) (caller : Ticket) (table : String) : Prop where
  free : ¬g.Engaged caller
  once : (g.columns.waiters table).count caller = 1
  only : ∀ other, other ≠ table → caller ∉ g.columns.waiters other

/-- A caller waits for nothing. -/
structure Gone (g : Gateway) (caller : Ticket) : Prop where
  free : ¬g.Engaged caller
  nowhere : ∀ table, caller ∉ g.columns.waiters table

theorem gone_empty (ttl cooldown : Nat) (caller : Ticket) : (empty ttl cooldown).Gone caller := by
  constructor
  · rintro (⟨c, hc, -⟩ | ⟨b, hb, -⟩)
    · cases hc
    · cases hb
  · intro table h
    cases h

/-- What is told to all of some callers is told to one as often as it is among them. -/
theorem answerTo_map (caller : Ticket) (result : Except Error Answer) (callers : List Ticket) :
    (callers.map fun c => Effect.answer c result).filterMap (Effect.answerTo caller) =
      List.replicate (callers.count caller) result := by
  induction callers with
  | nil => rfl
  | cons c callers ih =>
    rw [List.map_cons, List.filterMap_cons, ih, List.count_cons]
    by_cases hc : c = caller <;> simp [Effect.answerTo, hc, List.replicate_succ]

section
variable {g : Gateway} {e : Event} {caller : Ticket}

theorem not_mem_waits (he : e.requester? ≠ some caller) (now : Nat) (table : String) :
    caller ∉ waits table g now e := by
  intro h
  cases e with
  | request c r =>
    cases r with
    | columns t =>
      obtain ⟨-, h⟩ := List.mem_ite_nil_right.1 h
      obtain rfl := List.mem_singleton.1 h
      exact he rfl
    | run _ _ _ | stats _ | tables | add _ _ _ | clear _ | mark _ | flush | shutdown => cases h
  | begin _ | reply _ _ | expire _ | notice _ | drop _ => cases h

theorem not_mem_waiters_step (hg : g.Refreshes) (he : e.requester? ≠ some caller) (now : Nat)
    {table : String} (h : caller ∉ g.columns.waiters table) :
    caller ∉ (g.step now e).1.columns.waiters table := by
  rw [waiters_step hg]
  split
  · rw [List.mem_append]
    exact fun h' => h'.elim h (not_mem_waits he now table)
  · exact List.not_mem_nil

/-- Nothing is told to a caller whom no refresh that ends concerns. -/
theorem answersTo_step_eq_nil (hfree : ¬g.Engaged caller) (he : e.requester? ≠ some caller)
    {now : Nat} (hwaiters : ∀ table, caller ∈ g.columns.waiters table → ending table g now e = []) :
    (g.step now e).2.filterMap (Effect.answerTo caller) = [] := by
  rw [List.eq_nil_iff_forall_not_mem]
  intro result hmem
  rw [Effect.mem_filterMap_answerTo] at hmem
  rcases answer_cases hfree (Event.not_asksElse he) hmem with
    ⟨hreq, -⟩ | ⟨t, call, outcome, rfl, hp, hmem, -⟩
  · exact absurd hreq he
  · exact absurd hp (ending_eq_nil_iff.1 (hwaiters t hmem) call outcome rfl)

theorem gone_step (hg : g.Refreshes) (h : g.Gone caller) (he : e.requester? ≠ some caller)
    (now : Nat) :
    (g.step now e).1.Gone caller ∧ (g.step now e).2.filterMap (Effect.answerTo caller) = [] :=
  ⟨⟨not_engaged_step h.free (Event.not_asksElse he) now,
      fun table => not_mem_waiters_step hg he now (h.nowhere table)⟩,
    answersTo_step_eq_nil h.free he fun table hmem => absurd hmem (h.nowhere table)⟩

theorem waitsFor_step (hg : g.Refreshes) {table : String} (h : g.WaitsFor caller table)
    (he : e.requester? ≠ some caller) {now : Nat} (hending : ending table g now e = []) :
    (g.step now e).1.WaitsFor caller table ∧
      (g.step now e).2.filterMap (Effect.answerTo caller) = [] := by
  refine ⟨⟨not_engaged_step h.free (Event.not_asksElse he) now, ?_, fun other hother =>
    not_mem_waiters_step hg he now (h.only other hother)⟩, ?_⟩
  · rw [waiters_step hg, if_pos hending, List.count_append, h.once,
      List.count_eq_zero.2 (not_mem_waits he now table)]
  · refine answersTo_step_eq_nil h.free he fun t hmem => ?_
    by_cases ht : t = table
    · rw [ht]
      exact hending
    · exact absurd hmem (h.only t ht)

/-- The end of the refresh tells a caller who waits for it, once, and lets it go. -/
theorem waitsFor_ending (hg : g.Refreshes) {table : String} (h : g.WaitsFor caller table)
    {call : Nat} (hp : g.purpose? call = some (.refresh table)) (now : Nat)
    (outcome : Except Error Json) :
    (g.step now (.reply call outcome)).1.Gone caller ∧
      (g.step now (.reply call outcome)).2.filterMap (Effect.answerTo caller) =
        [told table outcome] := by
  have he : (Event.reply call outcome).requester? ≠ some caller := by simp [Event.requester?]
  refine ⟨⟨not_engaged_step h.free (Event.not_asksElse he) now, fun t => ?_⟩, ?_⟩
  · by_cases ht : t = table
    · rw [ht, waiters_step hg, if_neg (by simp [ending, hp])]
      exact List.not_mem_nil
    · exact not_mem_waiters_step hg he now (h.only t ht)
  · rw [effects_of_ending hg hp, answerTo_map, h.once]
    rfl

end

/-! ## Runs -/

section
variable {g : Gateway} {caller : Ticket} {run : Run}

theorem answersTo_of_gone (hg : g.Refreshes) (h : g.Gone caller)
    (hrun : ∀ e ∈ run, e.2.requester? ≠ some caller) :
    g.answersTo caller run = [] ∧ (g.after run).Gone caller := by
  induction run generalizing g with
  | nil => exact ⟨rfl, h⟩
  | cons e run ih =>
    obtain ⟨now, e⟩ := e
    obtain ⟨hstep, hnone⟩ := gone_step hg h (hrun _ List.mem_cons_self) now
    obtain ⟨hrest, hgone⟩ :=
      ih (refreshes_step hg now e) hstep fun d hd => hrun d (List.mem_cons_of_mem _ hd)
    refine ⟨?_, hgone⟩
    rw [answersTo_cons, hnone, hrest]
    rfl

/-- One who waits for a refresh is told once, by the first one that ends, or it still waits. -/
theorem answersTo_of_waitsFor (hg : g.Refreshes) {table : String} (h : g.WaitsFor caller table)
    (hrun : ∀ e ∈ run, e.2.requester? ≠ some caller) :
    (g.endings table run = [] ∧ g.answersTo caller run = [] ∧
        (g.after run).WaitsFor caller table) ∨
      ∃ a now call outcome b, run = a ++ (now, .reply call outcome) :: b ∧
        g.endings table a = [] ∧ (g.after a).purpose? call = some (.refresh table) ∧
        g.answersTo caller run = [told table outcome] ∧ (g.after run).Gone caller := by
  induction run generalizing g with
  | nil => exact Or.inl ⟨rfl, rfl, h⟩
  | cons e run ih =>
    obtain ⟨now, e⟩ := e
    have hhead := hrun _ List.mem_cons_self
    have htail : ∀ d ∈ run, d.2.requester? ≠ some caller :=
      fun d hd => hrun d (List.mem_cons_of_mem _ hd)
    have hg' := refreshes_step hg now e
    by_cases hending : ending table g now e = []
    · obtain ⟨hstep, hnone⟩ := waitsFor_step hg h hhead hending
      have hendings : ∀ more, g.endings table ((now, e) :: more) =
          (g.step now e).1.endings table more := by
        intro more
        unfold endings
        rw [gather_cons, hending]
        rfl
      have hanswers : g.answersTo caller ((now, e) :: run) =
          (g.step now e).1.answersTo caller run := by
        rw [answersTo_cons, hnone]
        rfl
      rw [hendings, hanswers]
      rcases ih hg' hstep htail with
        hwaits | ⟨a, now', call, outcome, b, rfl, hidle, hp, htold, hgone⟩
      · exact Or.inl hwaits
      · refine Or.inr ⟨(now, e) :: a, now', call, outcome, b, rfl, ?_, hp, htold, hgone⟩
        rw [hendings]
        exact hidle
    · -- The refresh ends with the first event, and after that the caller waits for nothing.
      obtain ⟨call, outcome, rfl, hp⟩ := exists_of_ending hending
      obtain ⟨hgone, htold⟩ := waitsFor_ending hg h hp now outcome
      obtain ⟨hrest, hgone'⟩ := answersTo_of_gone hg' hgone htail
      refine Or.inr ⟨[], now, call, outcome, run, rfl, rfl, hp, ?_, hgone'⟩
      rw [answersTo_cons, htold, hrest]
      rfl

/-- Until the refresh ends, those who come wait behind those who were there. -/
theorem waiters_after (hg : g.Refreshes) {table : String} (h : g.endings table run = []) :
    (g.after run).columns.waiters table =
      g.columns.waiters table ++ g.gather (waits table) run := by
  induction run generalizing g with
  | nil => exact (List.append_nil _).symm
  | cons e run ih =>
    obtain ⟨now, e⟩ := e
    obtain ⟨hending, hrest⟩ : ending table g now e = [] ∧
        (g.step now e).1.endings table run = [] := List.append_eq_nil_iff.1 h
    rw [after_cons, ih (refreshes_step hg now e) hrest, waiters_step hg, if_pos hending,
      gather_cons, List.append_assoc]

/-- In a run there is a time when the table was idle and from which on no refresh has ended. -/
theorem exists_idle (hg : g.Refreshes) {table : String}
    (hidle : g.columns.isRefreshing table = false) (run : Run) :
    ∃ a b, run = a ++ b ∧ (g.after a).columns.isRefreshing table = false ∧
      (g.after a).endings table b = [] := by
  induction run using List.reverseRecOn with
  | nil => exact ⟨[], [], rfl, hidle, rfl⟩
  | append_singleton run e ih =>
    obtain ⟨now, e⟩ := e
    by_cases hending : ending table (g.after run) now e = []
    · obtain ⟨a, b, rfl, hidle', hendings⟩ := ih
      refine ⟨a, b ++ [(now, e)], List.append_assoc a b _, hidle', ?_⟩
      rw [after_append] at hending
      unfold endings at hendings ⊢
      rw [gather_concat, hendings, hending]
      rfl
    · -- With the end of a refresh the table is idle.
      obtain ⟨call, outcome, rfl, hp⟩ := exists_of_ending hending
      refine ⟨run ++ [(now, .reply call outcome)], [], (List.append_nil _).symm, ?_, rfl⟩
      rw [after_concat]
      exact isRefreshing_ending (hg.after run) hp now outcome

end

/-! ## Look-ups that find no columns -/

theorem isRefreshing_of_mem_waiters {c : ColumnCache} {table : String} {caller : Ticket}
    (h : caller ∈ c.waiters table) : c.isRefreshing table = true := by
  by_contra hidle
  rw [ColumnCache.waiters_of_idle (eq_false_of_ne_true hidle)] at h
  cases h

theorem WaitsFor.mem {g : Gateway} {caller : Ticket} {table : String}
    (h : g.WaitsFor caller table) : caller ∈ g.columns.waiters table := by
  rw [← List.count_pos_iff, h.once]
  exact Nat.one_pos

/-- A caller who waits waits for a refresh that is in flight. -/
theorem WaitsFor.inFlight {g : Gateway} (hg : g.Refreshes) {caller : Ticket} {table : String}
    (h : g.WaitsFor caller table) : g.inFlight table = 1 := by
  rw [hg.inFlight_eq, if_pos (isRefreshing_of_mem_waiters h.mem)]

/-- While a refresh is in flight none is started. -/
theorem started_eq_zero {g : Gateway} (hg : g.Refreshes) {table : String} {run : Run}
    (hflight : g.inFlight table = 1) (hend : g.endings table run = []) :
    g.started table run = 0 := by
  have hbalance := refreshes_balance hg table run
  have hbefore := hg.inFlight_eq_underWay table
  have hafter := (hg.after run).single table
  rw [hend, List.length_nil] at hbalance
  split at hafter <;> omega

/-- A caller who finds no columns waits from then on. -/
theorem waitsFor_look {g : Gateway} (hg : g.Refreshes) {caller : Ticket} (h : g.Gone caller)
    {t : TableRef} (hname : t.name ≠ "") (hmiss : g.columns.entries.get? t.name = none)
    (now : Nat) :
    (g.step now (.request caller (.columns t))).1.WaitsFor caller t.name ∧
      (g.step now (.request caller (.columns t))).2.filterMap (Effect.answerTo caller) = [] := by
  have hwaiters : ∀ table, (g.step now (.request caller (.columns t))).1.columns.waiters table =
      g.columns.waiters table ++ if t.name = table then [caller] else [] := by
    intro table
    have hending : ending table g now (.request caller (.columns t)) = [] := rfl
    rw [waiters_step hg, if_pos hending]
    simp [waits, hname, hmiss]
  refine ⟨⟨?_, ?_, fun other hother => ?_⟩, ?_⟩
  · exact not_engaged_step h.free (by simp [Event.AsksElse]) now
  · rw [hwaiters, if_pos rfl, List.count_append, List.count_eq_zero.2 (h.nowhere t.name)]
    simp
  · rw [hwaiters, if_neg (Ne.symm hother), List.append_nil]
    exact h.nowhere other
  · rw [step_look hname, lookup_effects, ColumnCache.lookup_columns_of_miss hmiss]
    split <;> rfl

/-- One who waits is told what the refresh in flight brings, or that refresh goes on. -/
theorem WaitsFor.told_or_inFlight {g : Gateway} (hg : g.Refreshes) {caller : Ticket} {table : String}
    (h : g.WaitsFor caller table) {run : Run} (hrun : ∀ e ∈ run, e.2.requester? ≠ some caller) :
    g.inFlight table = 1 ∧
      ((g.endings table run = [] ∧ g.started table run = 0 ∧ (g.after run).inFlight table = 1 ∧
          g.answersTo caller run = [] ∧ caller ∈ (g.after run).columns.waiters table) ∨
        ∃ a later call outcome b, run = a ++ (later, .reply call outcome) :: b ∧
          g.endings table a = [] ∧ g.started table a = 0 ∧
          (g.after a).purpose? call = some (.refresh table) ∧
          g.answersTo caller run = [told table outcome] ∧
          ∀ other, caller ∉ (g.after run).columns.waiters other) := by
  have hflight := h.inFlight hg
  refine ⟨hflight, ?_⟩
  rcases answersTo_of_waitsFor hg h hrun with
    ⟨hend, hnone, hstill⟩ | ⟨a, later, call, outcome, b, rfl, hend, hp, htold, hgone⟩
  · exact Or.inl ⟨hend, started_eq_zero hg hflight hend, hstill.inFlight (hg.after run), hnone,
      hstill.mem⟩
  · exact Or.inr ⟨a, later, call, outcome, b, rfl, hend, started_eq_zero hg hflight hend, hp,
      htold, hgone.nowhere⟩

/-- The end of a refresh tells all who have come since the table was idle, in their order. -/
theorem effects_since_idle {g : Gateway} (hg : g.Refreshes) {table : String}
    (hidle : g.columns.isRefreshing table = false) {run : Run} {call : Nat}
    (hp : (g.after run).purpose? call = some (.refresh table)) (now : Nat)
    (outcome : Except Error Json) :
    ∃ a b, run = a ++ b ∧ (g.after a).columns.isRefreshing table = false ∧
      (g.after a).endings table b = [] ∧
      ((g.after run).step now (.reply call outcome)).2 =
        ((g.after a).gather (waits table) b).map
          fun caller => .answer caller (told table outcome) := by
  obtain ⟨a, b, rfl, hidle', hend⟩ := exists_idle hg hidle run
  refine ⟨a, b, rfl, hidle', hend, ?_⟩
  rw [effects_of_ending (hg.after _) hp, after_append, waiters_after (hg.after a) hend,
    ColumnCache.waiters_of_idle hidle']
  rfl

/-- Nobody is told of an internal error who asks for columns only. -/
theorem not_internal {g : Gateway} {caller : Ticket} {run : Run} (h : ¬g.Engaged caller)
    (hrun : ∀ e ∈ run, ¬e.2.AsksElse caller) (cause : String) :
    .error (.internal cause) ∉ g.answersTo caller run := by
  induction run generalizing g with
  | nil => exact List.not_mem_nil
  | cons e run ih =>
    obtain ⟨now, e⟩ := e
    have hhead := hrun _ List.mem_cons_self
    have hrest := ih (not_engaged_step h hhead now) fun d hd => hrun d (List.mem_cons_of_mem _ hd)
    rw [answersTo_cons, List.mem_append, Effect.mem_filterMap_answerTo]
    rintro (hmem | hmem)
    · rcases answer_cases h hhead hmem with ⟨-, hcause⟩ | ⟨t, call, outcome, -, -, -, htold⟩
      · exact hcause cause rfl
      · exact told_ne_internal t outcome cause htold.symm
    · exact hrest hmem

/--
**Every waiting caller is told once, and all alike.**

* One who finds no columns, whose ticket names no other request, is told what the refresh that is
  then in flight brings, once and when it ends, and as long as it was not told that refresh goes on;
* the end of a refresh tells all who have come since the table was idle, in the order in which they
  came, and nobody is left waiting;
* the drops of any callers who ask for columns only are without effect;
* no such caller is told of an internal error. This one holds by construction: a refresh always ends
  with a reply, and there is no way for it to be lost while callers wait.
-/
theorem told_once (ttl cooldown : Nat) (run : Run) :
    let start := empty ttl cooldown
    (∀ pre now caller t post, run = pre ++ (now, .request caller (.columns t)) :: post →
      t.name ≠ "" → (start.after pre).columns.entries.get? t.name = none →
      (∀ e ∈ pre ++ post, e.2.requester? ≠ some caller) →
      let g := start.after (pre ++ [(now, .request caller (.columns t))])
      g.inFlight t.name = 1 ∧
        ((g.endings t.name post = [] ∧ g.started t.name post = 0 ∧
            (start.after run).inFlight t.name = 1 ∧ start.answersTo caller run = [] ∧
            caller ∈ (start.after run).columns.waiters t.name) ∨
          ∃ a later call outcome b, post = a ++ (later, .reply call outcome) :: b ∧
            g.endings t.name a = [] ∧ g.started t.name a = 0 ∧
            (g.after a).purpose? call = some (.refresh t.name) ∧
            start.answersTo caller run = [told t.name outcome] ∧
            ∀ table, caller ∉ (start.after run).columns.waiters table)) ∧
    (∀ pre now call outcome post table, run = pre ++ (now, .reply call outcome) :: post →
      (start.after pre).purpose? call = some (.refresh table) →
      let next := (start.after pre).step now (.reply call outcome)
      next.1.columns.isRefreshing table = false ∧ next.1.columns.waiters table = [] ∧
        ∃ a b, pre = a ++ b ∧ (start.after a).columns.isRefreshing table = false ∧
          (start.after a).endings table b = [] ∧
          next.2 = ((start.after a).gather (waits table) b).map
            fun caller => .answer caller (told table outcome)) ∧
    (∀ callers : List Ticket, (∀ caller ∈ callers, ∀ e ∈ run, ¬e.2.AsksElse caller) →
      start.after (run.filter fun e => !e.2.drops callers) = start.after run ∧
        start.effects (run.filter fun e => !e.2.drops callers) = start.effects run) ∧
    ∀ caller, (∀ e ∈ run, ¬e.2.AsksElse caller) →
      ∀ cause, .error (.internal cause) ∉ start.answersTo caller run := by
  intro start
  have hstart : start.Refreshes := refreshes_empty ttl cooldown
  refine ⟨?_, ?_, ?_, ?_⟩
  · rintro pre now caller t post rfl hname hmiss honly g
    have hpre := answersTo_of_gone hstart (gone_empty ttl cooldown caller) fun e he =>
      honly e (List.mem_append_left post he)
    have hlook := waitsFor_look (hstart.after pre) hpre.2 hname hmiss now
    have hg : g.Refreshes := hstart.after _
    have hwaits : g.WaitsFor caller t.name := by
      show (start.after (pre ++ [(now, _)])).WaitsFor caller t.name
      rw [after_concat]
      exact hlook.1
    have hafter : start.after (pre ++ (now, .request caller (.columns t)) :: post) =
        g.after post := by
      show _ = (start.after (pre ++ [_])).after post
      rw [← after_append, List.append_assoc]
      rfl
    have hanswers : start.answersTo caller (pre ++ (now, .request caller (.columns t)) :: post) =
        g.answersTo caller post := by
      show _ = (start.after (pre ++ [(now, _)])).answersTo caller post
      rw [answersTo_append, hpre.1, answersTo_cons, hlook.2, after_concat]
      rfl
    rw [hafter, hanswers]
    exact hwaits.told_or_inFlight hg fun e he => honly e (List.mem_append_right pre he)
  · rintro pre now call outcome post table rfl hp
    have hpre := hstart.after pre
    have hidle := isRefreshing_ending hpre hp now outcome
    refine ⟨hidle, ColumnCache.waiters_of_idle hidle, ?_⟩
    exact effects_since_idle hstart rfl hp now outcome
  · intro callers hcallers
    exact effects_without_drops (fun caller _ => (gone_empty ttl cooldown caller).free) hcallers
  · intro caller hcaller cause
    exact not_internal (gone_empty ttl cooldown caller).free hcaller cause

-- The caller who came second is told, although the one who came first has gone away.
example :
    (empty 0 5).answersTo 1
        [(0, .request 0 (.columns (.bare "t"))), (1, .request 1 (.columns (.bare "t"))),
          (2, .begin "t"), (3, .drop 0), (4, .reply 0 (.error .missingTable))] =
      [told "t" (.error .missingTable)] := by
  rfl

end Gateway

end StoreGateway
