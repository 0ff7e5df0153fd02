import StoreGateway.Proofs.Marks
import StoreGateway.Proofs.Windows

/-!
# Each batch is launched table by table

What is taken is launched: for each table in a batch the digest tool is called once, unless the
caller who launches the batch goes away before all of it was launched.

* `Batch.launches`, `Scheduler.owed`: the calls for a table that a batch makes next, and those that
  are to come;
* `Scheduler.owed_move`: every move balances what is owed, what is launched and what is taken;
* `Gateway.digestCalls`: the digest calls for a table that a run makes;
* `Gateway.digestCalls_balance`: they are what was taken without what is owed.
-/

namespace StoreGateway

open Catalog Command Digest Query

namespace Digest

/-- How many times the next call for a batch is one for a table. -/
def Batch.launches (table : String) (b : Batch) : Nat :=
  (b.left.take 1).count table

theorem Batch.launches_add_tail (table : String) (b : Batch) :
    b.launches table + b.tail.left.count table = b.left.count table := by
  unfold Batch.launches Batch.tail
  rw [← List.count_append, List.take_append_drop]

namespace Scheduler

/-- How many calls for a table are to come when the next call of each batch was answered. -/
def owed (s : Scheduler) (table : String) : Nat :=
  (s.batches.flatMap fun b => b.tail.left).count table

def BatchesNumbered (s : Scheduler) : Prop :=
  Numbered Batch.number s.nextBatch s.batches

theorem batchesNumbered_empty (cooldown : Nat) : (empty cooldown).BatchesNumbered :=
  .nil

theorem owed_of_nil {s : Scheduler} (h : s.batches = []) (table : String) : s.owed table = 0 := by
  unfold owed
  rw [h]
  rfl

theorem batchesNumbered_launch {s : Scheduler} (h : s.BatchesNumbered) (owner : Owner)
    (tables : List String) : (s.launch owner tables).2.BatchesNumbered := by
  by_cases htables : tables = []
  · rw [htables, launch_nil]
    exact h
  · rw [launch_of_ne_nil htables]
    exact h.concat rfl

theorem batchesNumbered_move {s : Scheduler} (h : s.BatchesNumbered) (now : Nat) (m : Move) :
    (s.move now m).BatchesNumbered := by
  cases m with
  | mark table =>
    show (s.mark now table).2.BatchesNumbered
    unfold mark
    dsimp only
    split <;> exact h
  | expire w =>
    show (s.expire w).2.BatchesNumbered
    rcases expire_cases s w with ⟨-, hexpire⟩ | hexpire
    · have hclose : (s.close.endTimer w).BatchesNumbered := h
      rw [hexpire]
      exact batchesNumbered_launch hclose .timer s.pending
    · rw [hexpire]
      exact h
  | notice w => exact h
  | flush owner =>
    have hclose : s.close.BatchesNumbered := h
    exact batchesNumbered_launch hclose owner s.pending
  | launched batch =>
    show (s.launched batch).2.BatchesNumbered
    unfold launched
    split
    · exact h
    · next b hfind =>
      have hb : b.number = batch := by simpa using List.find?_some hfind
      dsimp only
      split
      · exact h.filter _
      · refine h.map fun c _ => ?_
        split
        · next hc => exact hb.trans hc.symm
        · rfl
  | drop caller => exact h.filter _

/-! ## Batches that begin -/

/-- A batch begins with all the tables that it is launched for. -/
theorem left_launch (s : Scheduler) (owner : Owner) (tables : List String) :
    (s.launch owner tables).1.elim [] Batch.left = tables := by
  by_cases h : tables = []
  · rw [h, launch_nil]
    rfl
  · rw [launch_of_ne_nil h]
    rfl

theorem left_expire (s : Scheduler) (w : Nat) :
    (s.expire w).1.elim [] Batch.left = s.taken (.expire w) := by
  rw [taken_expire]
  unfold expire
  split
  · exact left_launch _ .timer _
  · rfl

theorem owed_append {s t : Scheduler} {b : Option Batch}
    (h : t.batches = s.batches ++ b.toList) (table : String) :
    t.owed table + b.elim 0 (Batch.launches table) =
      s.owed table + (b.elim [] Batch.left).count table := by
  unfold owed
  rw [h, List.flatMap_append, List.count_append]
  cases b with
  | none => rfl
  | some b =>
    have hb := b.launches_add_tail table
    simp
    omega

/-! ## Batches that go on -/

theorem owed_launched {s : Scheduler} (h : s.BatchesNumbered) (batch : Nat) (table : String) :
    (s.launched batch).2.owed table +
        (s.launched batch).1.elim 0 (Batch.launches table) = s.owed table := by
  by_cases hmem : ∃ b ∈ s.batches, b.number = batch
  · obtain ⟨b, hb, rfl⟩ := hmem
    obtain ⟨before, behind, hsplit, hbefore, hbehind⟩ := h.split hb
    have htail := b.tail.launches_add_tail table
    rw [launched_split hsplit hbefore hbehind]
    unfold owed
    rw [hsplit]
    by_cases hleft : b.tail.left = []
    · simp [hleft, Batch.launches]
    · simp [hleft]
      omega
  · rw [launched_none fun b hb e => hmem ⟨b, hb, e⟩]
    rfl

/-- **A move balances what is owed, what is launched and what is taken.** -/
theorem owed_move {s : Scheduler} (h : s.BatchesNumbered) (now : Nat) {m : Move}
    (hdrop : ∀ caller, m = .drop caller → ∀ b ∈ s.batches, b.owner.caller? ≠ some caller)
    (table : String) :
    (s.move now m).owed table + (s.batch? m).elim 0 (Batch.launches table) =
      s.owed table + (s.taken m).count table := by
  cases m with
  | mark t =>
    show (s.mark now t).2.owed table = s.owed table
    unfold owed
    rw [mark_batches]
  | expire w =>
    rw [← left_expire]
    exact owed_append (expire_batches s w) table
  | notice w => rfl
  | flush owner =>
    have hleft : (s.flush owner).1.elim [] Batch.left = s.taken (.flush owner) :=
      left_launch s.close owner s.pending
    rw [← hleft]
    exact owed_append (flush_batches s owner) table
  | launched batch => exact owed_launched h batch table
  | drop caller =>
    have hkeep : s.batches.filter (fun b => b.owner.caller? ≠ some caller) = s.batches :=
      List.filter_eq_self.2 fun b hb => decide_eq_true (hdrop caller rfl b hb)
    show (s.drop caller).owed table = s.owed table
    unfold owed drop
    rw [hkeep]

/-- The timer of the open window takes all that is marked, and other timers nothing. -/
theorem taken_own {s : Scheduler} (h : s.WellTimed) {w : Nat} (hw : s.window = some w) :
    s.taken (.expire w) = s.pending := by
  obtain ⟨t, ht, rfl, -⟩ := h.exists_timer hw
  rw [taken_expire, if_pos (List.any_eq_true.2 ⟨t, ht, decide_eq_true rfl⟩), take_own hw]

theorem taken_other {s : Scheduler} {w : Nat} (hw : s.window ≠ some w) :
    s.taken (.expire w) = [] := by
  rw [taken_expire, take_other hw]
  split <;> rfl

end Scheduler

end Digest

/-- An effect that calls the digest tool for a table. -/
def Effect.digests (table : String) : Effect → Bool
  | .call _ c => decide (c = ⟨.digest, tableArguments table, []⟩)
  | _ => false

namespace Gateway

/-- How many digest calls for a table a run makes. -/
def digestCalls (table : String) (g : Gateway) (run : Run) : Nat :=
  (g.effects run).countP (Effect.digests table)

/-! ## Calls of the digest tool -/

theorem tableArguments_inj {t u : String} : tableArguments t = tableArguments u ↔ t = u := by
  simp [tableArguments]

theorem countP_digests_callTool {tool : Tool} (h : tool ≠ .digest) (g : Gateway) (p : Purpose)
    (arguments : Arguments) (records : List Json) (table : String) :
    (g.callTool p tool arguments records).2.countP (Effect.digests table) = 0 := by
  simp [Effect.digests, h]

theorem countP_digests_batchDone (owner : Owner) (size : Nat) (table : String) :
    (batchDone owner size).countP (Effect.digests table) = 0 := by
  cases owner <;> rfl

theorem countP_digests_goOn (g : Gateway) (b : Batch) (table : String) :
    (g.goOn b).2.countP (Effect.digests table) = b.launches table := by
  unfold Batch.launches
  cases hleft : b.left with
  | nil =>
    rw [goOn_of_nil hleft]
    exact countP_digests_batchDone b.owner b.size table
  | cons t rest =>
    rw [goOn_of_left hleft]
    by_cases ht : t = table <;> simp [Effect.digests, tableArguments_inj, ht]

theorem countP_digests_mark (g : Gateway) (now : Nat) (t table : String) :
    (g.mark now t).2.countP (Effect.digests table) = 0 := by
  rw [mark_effects]
  cases (g.digests.mark now t).1 <;> rfl

theorem countP_digests_flush (g : Gateway) (owner : Owner) (table : String) :
    (g.flush owner).2.countP (Effect.digests table) =
      (g.digests.flush owner).1.elim 0 (Batch.launches table) := by
  unfold flush
  split
  · next b s h =>
    rw [countP_digests_goOn, h]
    rfl
  · next s h =>
    rw [countP_digests_batchDone, h]
    rfl

theorem countP_digests_request (g : Gateway) (now : Nat) (caller : Ticket) (r : Request)
    (table : String) :
    (g.request now caller r).2.countP (Effect.digests table) =
      ((g.schedulerMove? (.request caller r)).bind g.digests.batch?).elim 0
        (Batch.launches table) := by
  cases r with
  | run t spec unweight =>
    unfold request
    dsimp only
    split
    · exact countP_digests_callTool (by simp) ..
    · rfl
  | columns t =>
    unfold request
    dsimp only
    split
    · rw [lookup_effects]
      cases (g.columns.lookup now _ caller).1.queues <;>
        cases (g.columns.lookup now _ caller).1.columns <;> rfl
    · rfl
  | stats t =>
    unfold request
    dsimp only
    split
    · exact countP_digests_callTool (by simp) ..
    · rfl
  | tables => exact countP_digests_callTool (by simp) ..
  | add dataset subset samples =>
    unfold request
    dsimp only
    split
    · rfl
    · exact countP_digests_callTool (by simp) ..
  | clear t => rfl
  | mark t =>
    show ((g.mark now t).2 ++ [_]).countP (Effect.digests table) = 0
    rw [List.countP_append, countP_digests_mark]
    rfl
  | flush => exact countP_digests_flush g (.flush caller) table
  | shutdown => exact countP_digests_flush g (.shutdown caller) table

theorem countP_digests_resume (g : Gateway) (now : Nat) (outcome : Except Error Json) (p : Purpose)
    (table : String) :
    (g.resume now outcome p).2.countP (Effect.digests table) =
      ((replyMark? outcome p).bind g.digests.batch?).elim 0 (Batch.launches table) := by
  cases p with
  | add caller t =>
    cases outcome with
    | error e => rfl
    | ok v =>
      show ((g.mark now t).2 ++ [_]).countP (Effect.digests table) = 0
      rw [List.countP_append, countP_digests_mark]
      rfl
  | refresh t =>
    show ((g.columns.finish now t outcome).1.map _).countP (Effect.digests table) = 0
    rw [List.countP_map, List.countP_eq_zero]
    intro caller _ h
    cases h
  | digest batch owner =>
    show _ = (g.digests.launched batch).1.elim 0 (Batch.launches table)
    unfold resume
    dsimp only
    split
    · next b s h =>
      rw [countP_digests_goOn, h]
      rfl
    · next s h =>
      rw [h]
      rfl
  | run _ _ | stats _ | tables _ => rfl

/-- A step calls the digest tool for the first table of the batch that it begins or goes on with. -/
theorem countP_digests_step (g : Gateway) (now : Nat) (e : Event) (table : String) :
    (g.step now e).2.countP (Effect.digests table) =
      ((g.schedulerMove? e).bind g.digests.batch?).elim 0 (Batch.launches table) := by
  cases e with
  | request caller r => exact countP_digests_request g now caller r table
  | begin t =>
    show (g.beginRefresh t).2.countP (Effect.digests table) = 0
    unfold beginRefresh
    split
    · exact countP_digests_callTool (by simp) ..
    · rfl
  | reply call outcome =>
    cases h : g.purpose? call with
    | none =>
      rw [step_reply_of_none h]
      simp [schedulerMove?, h]
    | some p =>
      rw [step_reply h, countP_digests_resume]
      simp [schedulerMove?, h, close]
  | expire w =>
    show (g.expire w).2.countP (Effect.digests table) =
      (g.digests.expire w).1.elim 0 (Batch.launches table)
    unfold expire
    split
    · next b s h =>
      rw [countP_digests_goOn, h]
      rfl
    · next s h =>
      rw [h]
      rfl
  | notice w => rfl
  | drop caller => rfl

/-! ## Runs -/

theorem eq_drop_of_schedulerMove? {g : Gateway} {e : Event} {caller : Ticket}
    (h : g.schedulerMove? e = some (.drop caller)) : e = .drop caller := by
  cases e with
  | drop c =>
    cases h
    rfl
  | request c r =>
    cases r with
    | run _ _ _ | columns _ | stats _ | tables | add _ _ _ | clear _ | mark _ | flush | shutdown =>
      cases h
  | reply call outcome =>
    obtain ⟨p, -, hp⟩ := Option.bind_eq_some_iff.1 h
    cases p with
    | add c t =>
      obtain ⟨v, -, hv⟩ := Option.map_eq_some_iff.1 hp
      cases hv
    | run _ _ | stats _ | tables _ | refresh _ | digest _ _ => cases hp
  | begin _ | expire _ | notice _ => cases h

theorem batchesNumbered_after (ttl cooldown : Nat) (run : Run) :
    ((empty ttl cooldown).after run).digests.BatchesNumbered :=
  digests_after (P := Scheduler.BatchesNumbered) (Scheduler.batchesNumbered_empty cooldown)
    (fun _ now m h => Scheduler.batchesNumbered_move h now m) run

/-- The caller of a batch has flushed before, in this run. -/
theorem exists_flushes_of_mem_batches {ttl cooldown : Nat} {run : Run} {b : Batch} {caller : Ticket}
    (hb : b ∈ ((empty ttl cooldown).after run).digests.batches)
    (hcaller : b.owner.caller? = some caller) : ∃ d ∈ run, d.2.Flushes caller := by
  induction run using List.reverseRecOn generalizing b with
  | nil => cases hb
  | append_singleton run e ih =>
    obtain ⟨now, e⟩ := e
    have hbefore : ∀ c ∈ ((empty ttl cooldown).after run).digests.batches,
        c.owner = b.owner → ∃ d ∈ run ++ [(now, e)], d.2.Flushes caller := by
      intro c hc howner
      obtain ⟨d, hd, hflushes⟩ := ih hc (howner ▸ hcaller)
      exact ⟨d, List.mem_append_left _ hd, hflushes⟩
    rw [after_concat, step_digests] at hb
    cases hm : ((empty ttl cooldown).after run).schedulerMove? e with
    | none =>
      rw [hm] at hb
      exact hbefore b hb rfl
    | some m =>
      rw [hm] at hb
      rcases Scheduler.owner_of_mem_move hb with ⟨c, hc, howner⟩ | howner | rfl
      · exact hbefore c hc howner
      · rw [howner] at hcaller
        cases hcaller
      · obtain ⟨c, hc, hflushes⟩ := request_of_schedulerMove? hm
        obtain rfl : c = caller := Option.some.inj (hc.symm.trans hcaller)
        exact ⟨(now, e), List.mem_append_right _ (List.mem_singleton_self _), hflushes⟩

/-- A set of tables that is taken counts once for each table in it. -/
theorem countP_takes {g : Gateway} (h : g.digests.pending.Nodup) (now : Nat) (e : Event)
    (table : String) :
    (g.takes now e).countP (fun tables => table ∈ tables) =
      ((g.schedulerMove? e).elim [] g.digests.taken).count table := by
  by_cases hnil : (g.schedulerMove? e).elim [] g.digests.taken = []
  · rw [takes_eq_nil_iff.2 hnil, hnil]
    rfl
  · have htakes : g.takes now e = [(g.schedulerMove? e).elim [] g.digests.taken] :=
      takes_eq_singleton_iff.2 ⟨hnil, rfl⟩
    have hnodup := h
    rw [← eq_pending_of_takes htakes] at hnodup
    rw [htakes, hnodup.count, List.countP_singleton]
    simp

/-- No caller of a flush or of a shutdown goes away. -/
def FlushersStay (run : Run) : Prop :=
  ∀ caller, (∃ d ∈ run, d.2.Flushes caller) → ∀ now, (now, Event.drop caller) ∉ run

theorem FlushersStay.of_append {run more : Run} (h : FlushersStay (run ++ more)) :
    FlushersStay run := by
  rintro caller ⟨d, hd, hflushes⟩ now hmem
  exact h caller ⟨d, List.mem_append_left _ hd, hflushes⟩ now (List.mem_append_left _ hmem)

/-- A step balances what is owed, what it launches and what it takes. -/
theorem owed_step {g : Gateway} (hnumbered : g.digests.BatchesNumbered)
    (hnodup : g.digests.pending.Nodup) {e : Event}
    (hdrop : ∀ caller, e = .drop caller → ∀ b ∈ g.digests.batches, b.owner.caller? ≠ some caller)
    (now : Nat) (table : String) :
    (g.step now e).1.digests.owed table + (g.step now e).2.countP (Effect.digests table) =
      g.digests.owed table + (g.takes now e).countP fun tables => table ∈ tables := by
  rw [countP_digests_step, countP_takes hnodup, step_digests]
  cases hm : g.schedulerMove? e with
  | none => rfl
  | some m =>
    refine Scheduler.owed_move hnumbered now ?_ table
    rintro caller rfl
    exact hdrop caller (eq_drop_of_schedulerMove? hm)

/-- The digest calls for a table are as many as the taken sets with it, without what is owed. -/
theorem digestCalls_balance (ttl cooldown : Nat) {run : Run} (h : FlushersStay run)
    (table : String) :
    (empty ttl cooldown).digestCalls table run +
        ((empty ttl cooldown).after run).digests.owed table =
      ((empty ttl cooldown).taken run).countP fun tables => table ∈ tables := by
  induction run using List.reverseRecOn with
  | nil => rfl
  | append_singleton run e ih =>
    obtain ⟨now, e⟩ := e
    have hbalance := ih h.of_append
    have hdrop : ∀ caller, e = .drop caller →
        ∀ b ∈ ((empty ttl cooldown).after run).digests.batches,
          b.owner.caller? ≠ some caller := by
      rintro caller rfl b hb hcaller
      obtain ⟨d, hd, hflushes⟩ := exists_flushes_of_mem_batches hb hcaller
      exact h caller ⟨d, List.mem_append_left _ hd, hflushes⟩ now
        (List.mem_append_right _ (List.mem_singleton_self _))
    have hstep := owed_step (batchesNumbered_after ttl cooldown run)
      (pending_nodup ttl cooldown run) hdrop now table
    unfold digestCalls at hbalance ⊢
    rw [effects_concat, List.countP_append, taken_concat, List.countP_append, after_concat]
    omega

/-- A mark is in the first set that is taken after it, or it is there at the end. -/
theorem taken_of_mem_pending {g : Gateway} {table : String} {run : Run}
    (h : table ∈ g.digests.pending) :
    (g.taken run = [] ∧ table ∈ (g.after run).digests.pending) ∨
      ∃ tables rest, g.taken run = tables :: rest ∧ table ∈ tables := by
  induction run generalizing g with
  | nil => exact Or.inl ⟨rfl, h⟩
  | cons e run ih =>
    obtain ⟨now, e⟩ := e
    have htaken : g.taken ((now, e) :: run) = g.takes now e ++ (g.step now e).1.taken run := rfl
    rw [htaken, after_cons]
    by_cases htakes : g.takes now e = []
    · rw [htakes]
      exact ih ((mem_pending_step now e table).2 (Or.inr ⟨h, htakes⟩))
    · right
      obtain ⟨tables, htables⟩ := exists_of_takes htakes
      rw [htables]
      exact ⟨tables, _, rfl, eq_pending_of_takes htables ▸ h⟩

/-- Whoever flushes takes all that is marked, and so does the timer of the open window. -/
theorem takes_eq_pending {g : Gateway} (hg : g.digests.WellTimed) {e : Event}
    (he : (∃ caller, e.Flushes caller) ∨ ∃ w, e = .expire w ∧ g.digests.window = some w)
    (hpending : g.digests.pending ≠ []) (now : Nat) : g.takes now e = [g.digests.pending] := by
  refine takes_eq_singleton_iff.2 ⟨hpending, ?_⟩
  rcases he with ⟨caller, rfl | rfl⟩ | ⟨w, rfl, hwindow⟩
  · rfl
  · rfl
  · exact Scheduler.taken_own hg hwindow

/--
**No mark is lost, and none counts twice.** The sets of tables that are taken in a run, by timers,
flushes and shutdowns, are its batches.

* A flush, a shutdown and the timer of the open window take all that is marked;
* a batch has the tables that were marked since the batch before it, each once, and no others;
* the tables that are marked at the end are those that were marked since the last batch;
* so each mark is in the first batch after it, or its table is still marked;
* if no caller of a flush or a shutdown goes away, then the digest calls for a table and those that
  are to come are as many as the batches with it, and when all were launched none are to come.
-/
theorem marks_and_batches (ttl cooldown : Nat) (run : Run) :
    let start := empty ttl cooldown
    let g := start.after run
    (∀ now e, ((∃ caller, e.Flushes caller) ∨ ∃ w, e = .expire w ∧ g.digests.window = some w) →
      g.digests.pending ≠ [] → g.takes now e = [g.digests.pending]) ∧
    (∀ pre now e post tables, run = pre ++ (now, e) :: post →
      (start.after pre).takes now e = [tables] →
        tables.Nodup ∧ ∀ table, table ∈ tables ↔ start.MarkedSince pre table) ∧
    (∀ table, table ∈ g.digests.pending ↔ start.MarkedSince run table) ∧
    (∀ pre now e post table, run = pre ++ (now, e) :: post →
      table ∈ (start.after pre).marks now e →
      let g₀ := start.after (pre ++ [(now, e)])
      (g₀.taken post = [] ∧ table ∈ g.digests.pending) ∨
        ∃ tables rest, g₀.taken post = tables :: rest ∧ table ∈ tables) ∧
    (FlushersStay run → ∀ table,
      start.digestCalls table run + g.digests.owed table =
          (start.taken run).countP (fun tables => table ∈ tables) ∧
        (g.digests.batches = [] → start.digestCalls table run =
          (start.taken run).countP fun tables => table ∈ tables)) := by
  intro start g
  refine ⟨?_, ?_, mem_pending_iff ttl cooldown run, ?_, ?_⟩
  · intro now e he hpending
    exact takes_eq_pending (wellTimed_after ttl cooldown run) he hpending now
  · rintro pre now e post tables rfl htakes
    obtain rfl := eq_pending_of_takes htakes
    exact ⟨pending_nodup ttl cooldown pre, mem_pending_iff ttl cooldown pre⟩
  · rintro pre now e post table rfl hmark g₀
    have hafter : g = g₀.after post := by
      show start.after (pre ++ (now, e) :: post) = (start.after (pre ++ [(now, e)])).after post
      rw [← after_append, List.append_assoc]
      rfl
    have hpending : table ∈ g₀.digests.pending := by
      show table ∈ (start.after (pre ++ [(now, e)])).digests.pending
      rw [after_concat]
      exact (mem_pending_step now e table).2 (Or.inl hmark)
    rw [hafter]
    exact taken_of_mem_pending hpending
  · intro hstay table
    have hbalance := digestCalls_balance ttl cooldown hstay table
    refine ⟨hbalance, fun hnone => ?_⟩
    have howed : g.digests.owed table = 0 := Scheduler.owed_of_nil hnone table
    rw [← hbalance, howed]
    rfl

-- Two marks in a window count once; what is flushed when nothing is marked is no batch.
example :
    (empty 0 5).taken
        [(0, .request 0 (.mark "a")), (1, .request 1 (.mark "a")), (5, .expire 0),
          (6, .request 2 (.mark "b")), (7, .request 3 .flush), (8, .request 4 .flush)] =
      [["a"], ["b"]] := by
  decide

end Gateway

end StoreGateway
