import StoreGateway.Proofs.BatchMoves
import StoreGateway.Proofs.CallAccounts

/-!
# Batches are launched to the end

A batch goes on with every reply of the digest tool, whether or not the launch has failed. So how
far it has come is told by the number of its launches that were answered, and by nothing else.

* `Gateway.launchesFor`, `Gateway.answered`, `Gateway.toldFor`: the launches that are made for a
  batch, the batches whose launches are answered, and what is told when those of a batch are;
* `Gateway.begins_of_takes`, `Gateway.launchedTo_of_answers`, `Gateway.launchedTo_of_other`: what
  one event makes of a batch;
* `Gateway.launchedTo_after`: one more launch for each answer, and the receipt at the end;
* `Gateway.Alike`: runs that differ only in what the digest tool replies;
* `Gateway.batches_launched_whole`: a batch is launched completely whatever fails.
-/

namespace StoreGateway

open Catalog Command Digest Query

/-- The batch that a call launches a table of. -/
def Purpose.batch? : Purpose → Option Nat
  | .digest n _ => some n
  | _ => none

/-- The call, if it launches a table of a batch. -/
def Effect.launchFor? (g : Gateway) (n : Nat) : Effect → Option Call
  | .call number c =>
    if c.tool = .digest ∧ (g.purpose? number).bind Purpose.batch? = some n then some c else none
  | _ => none

/-- Who launches what an event takes. -/
def Event.owner : Event → Owner
  | .request caller .flush => .flush caller
  | .request caller .shutdown => .shutdown caller
  | _ => .timer

/-- What is told when all is launched that an event has taken: a flush gives its size back. -/
def Event.receipt (size : Nat) : Event → List (Ticket × Except Error Answer)
  | .request caller .flush => [(caller, .ok (.count size))]
  | .request caller .shutdown => [(caller, .ok .done)]
  | _ => []

theorem Event.caller?_owner {e : Event} {caller : Ticket} :
    e.owner.caller? = some caller ↔ e.Flushes caller := by
  unfold Event.Flushes
  cases e with
  | request c r => cases r <;> simp [Event.owner, Owner.caller?]
  | begin _ | reply _ _ | expire _ | notice _ | drop _ => simp [Event.owner, Owner.caller?]

namespace Gateway

/-- The launches that an event makes for a batch. -/
def launchFor (n : Nat) (g : Gateway) (now : Nat) (e : Event) : List Call :=
  (g.step now e).2.filterMap (Effect.launchFor? (g.step now e).1 n)

/-- The launches that a run makes for a batch, in order. -/
def launchesFor (n : Nat) (g : Gateway) (run : Run) : List Call :=
  g.gather (launchFor n) run

/-- The batch whose launch an event answers. -/
def answers (g : Gateway) (_ : Nat) : Event → List Nat
  | .reply call _ => ((g.purpose? call).bind Purpose.batch?).toList
  | _ => []

/-- The batches whose launches are answered in a run, once for each answer. -/
def answered (g : Gateway) (run : Run) : List Nat :=
  g.gather answers run

/-- What is told when a launch of a batch is answered. -/
def tellsFor (n : Nat) (g : Gateway) (now : Nat) (e : Event) :
    List (Ticket × Except Error Answer) :=
  if n ∈ g.answers now e then (g.step now e).2.filterMap Effect.answer? else []

/-- What a run tells when the launches of a batch are answered, in order. -/
def toldFor (n : Nat) (g : Gateway) (run : Run) : List (Ticket × Except Error Answer) :=
  g.gather (tellsFor n) run

/-- Two runs that do not differ but in the digest tool's replies to launches. -/
inductive Alike : Gateway → Run → Run → Prop
  | nil (g : Gateway) : Alike g [] []
  | same {g : Gateway} {run other : Run} (now : Nat) (e : Event)
    (h : Alike (g.step now e).1 run other) : Alike g ((now, e) :: run) ((now, e) :: other)
  | launch {g : Gateway} {run other : Run} {call n : Nat} {owner : Owner} (now : Nat)
    (hcall : g.purpose? call = some (.digest n owner)) (outcome outcome' : Except Error Json)
    (h : Alike (g.step now (.reply call outcome)).1 run other) :
    Alike g ((now, .reply call outcome) :: run) ((now, .reply call outcome') :: other)

/-! ## One event -/

section
variable {g : Gateway} {now n : Nat} {e : Event}

theorem receipt_eq (e : Event) (size : Nat) :
    (batchDone e.owner size).filterMap Effect.answer? = e.receipt size := by
  cases e with
  | request c r => cases r <;> rfl
  | begin _ | reply _ _ | expire _ | notice _ | drop _ => rfl

theorem answers_goOn (g : Gateway) (b : Batch) :
    (g.goOn b).2.filterMap Effect.answer? =
      if b.left = [] then (batchDone b.owner b.size).filterMap Effect.answer? else [] := by
  cases hleft : b.left with
  | nil =>
    rw [goOn_of_nil hleft]
    rfl
  | cons table rest =>
    rw [goOn_of_left hleft]
    rfl

/-- An event answers a launch of a batch if its move is to go on with the batch. -/
theorem mem_answers_iff : n ∈ g.answers now e ↔ g.schedulerMove? e = some (.launched n) := by
  cases e with
  | reply call outcome =>
    show n ∈ ((g.purpose? call).bind Purpose.batch?).toList ↔
      (g.purpose? call).bind (replyMark? outcome) = _
    cases g.purpose? call with
    | none => simp
    | some p =>
      cases p with
      | digest m owner => simp [Purpose.batch?, replyMark?, eq_comm]
      | add caller table => cases outcome <;> simp [Purpose.batch?, replyMark?, Except.toOption]
      | run _ _ | stats _ | tables _ | refresh _ => simp [Purpose.batch?, replyMark?]
  | request caller r => cases r <;> simp [answers, schedulerMove?]
  | begin _ | expire _ | notice _ | drop _ => simp [answers, schedulerMove?]

/-- An event answers one launch at most. -/
theorem count_answers : (g.answers now e).count n = if n ∈ g.answers now e then 1 else 0 := by
  cases e with
  | reply call outcome =>
    show ((g.purpose? call).bind Purpose.batch?).toList.count n =
      if n ∈ ((g.purpose? call).bind Purpose.batch?).toList then 1 else 0
    cases (g.purpose? call).bind Purpose.batch? with
    | none => rfl
    | some m => simp [List.count_singleton, @eq_comm _ m]
  | request _ _ | begin _ | expire _ | notice _ | drop _ => rfl

theorem launches_goOn {g : Gateway} {b : Batch} (hcalls : (g.goOn b).1.CallsNumbered) (n : Nat) :
    (g.goOn b).2.filterMap (Effect.launchFor? (g.goOn b).1 n) =
      if b.number = n then (b.left.take 1).map digestCall else [] := by
  cases hleft : b.left with
  | nil =>
    rw [goOn_of_nil hleft]
    cases b.owner <;> simp [batchDone, Effect.launchFor?, List.filterMap_cons]
  | cons table rest =>
    rw [goOn_of_left hleft] at hcalls ⊢
    have hpurpose := purpose?_of_mem hcalls (List.mem_append_right _ (List.mem_singleton_self _))
    rcases eq_or_ne n b.number with rfl | hn
    · simp [Effect.launchFor?, hpurpose, Purpose.batch?, digestCall]
    · simp [Effect.launchFor?, hpurpose, Purpose.batch?, hn.symm]

/-- A step that goes on with no batch makes no launch. -/
theorem tool_ne_digest {call : Nat} {c : Call} (hmem : .call call c ∈ (g.step now e).2)
    (h : g.launches now e = []) : c.tool ≠ .digest := by
  have hc : c ∈ (g.step now e).2.filterMap Effect.call? := List.mem_filterMap.2 ⟨_, hmem, rfl⟩
  rw [calls_of_step, h, List.map_nil, List.append_nil] at hc
  rcases List.mem_append.1 hc with hc | hc
  · cases e with
    | request caller r =>
      rcases tool_of_call? (r := r) (Option.mem_toList.1 hc) with htool | ⟨htool, -⟩
      · simp [htool]
      · simp [htool]
    | begin _ | reply _ _ | expire _ | notice _ | drop _ => cases hc
  · obtain ⟨table, -, rfl⟩ := List.mem_map.1 hc
    exact Tool.noConfusion

/-- A step launches for a batch what that goes on with. -/
theorem launchFor_eq (hcalls : g.CallsNumbered) (n now : Nat) (e : Event) :
    g.launchFor n now e = ((g.schedulerMove? e).bind g.digests.batch?).elim []
      fun b => if b.number = n then (b.left.take 1).map digestCall else [] := by
  have hnumbered := callsNumbered_step now e hcalls
  unfold launchFor
  cases hb : (g.schedulerMove? e).bind g.digests.batch? with
  | none =>
    have hlaunches : g.launches now e = [] := by
      unfold launches
      rw [hb]
      rfl
    refine List.filterMap_eq_nil_iff.2 fun effect heffect => ?_
    cases effect with
    | call number c => exact if_neg fun h => tool_ne_digest heffect hlaunches h.1
    | queue _ | arm _ | answer _ _ => rfl
  | some b =>
    obtain ⟨g', hgo⟩ := exists_goOn hb now
    rw [hgo] at hnumbered ⊢
    exact launches_goOn hnumbered n

/-- What the reply to a launch does does not depend on what is replied. -/
theorem step_launch {call : Nat} {owner : Owner} (h : g.purpose? call = some (.digest n owner))
    (now : Nat) (outcome other : Except Error Json) :
    g.step now (.reply call outcome) = g.step now (.reply call other) := by
  rw [step_reply h, step_reply h]
  rfl

theorem exists_reply_of_mem_answers (h : n ∈ g.answers now e) :
    ∃ call outcome owner, e = .reply call outcome ∧ g.purpose? call = some (.digest n owner) := by
  cases e with
  | reply call outcome =>
    obtain ⟨p, hp, hbatch⟩ := Option.bind_eq_some_iff.1 (Option.mem_toList.1 h)
    cases p with
    | digest m owner =>
      cases hbatch
      exact ⟨call, outcome, owner, rfl, hp⟩
    | run _ _ | stats _ | tables _ | add _ _ | refresh _ => cases hbatch
  | request _ _ | begin _ | expire _ | notice _ | drop _ => cases h

/-- The answer to a launch moves the batches on, and leaves all else of the scheduler alone. -/
theorem digests_of_mem_answers (h : n ∈ g.answers now e) :
    (g.step now e).1.digests =
      { g.digests with batches := (g.step now e).1.digests.batches } := by
  rw [step_digests, mem_answers_iff.1 h]
  show (g.digests.launched n).2 = { g.digests with batches := (g.digests.launched n).2.batches }
  unfold Scheduler.launched
  split <;> rfl

theorem tells_of_mem_answers (h : n ∈ g.answers now e) :
    g.tellsFor n now e = (g.digests.launched n).1.elim [] fun b =>
      if b.left = [] then (batchDone b.owner b.size).filterMap Effect.answer? else [] := by
  unfold tellsFor
  rw [if_pos h]
  obtain ⟨call, outcome, owner, rfl, hp⟩ := exists_reply_of_mem_answers h
  rw [step_reply hp]
  unfold resume
  dsimp only
  split
  · next b s hlaunched =>
    have hbatch : g.digests.launched n = (some b, s) := hlaunched
    rw [answers_goOn, hbatch]
    rfl
  · next s hlaunched =>
    have hbatch : g.digests.launched n = (none, s) := hlaunched
    rw [hbatch]
    rfl

/-- Only flushes, shutdowns and timers take tables, each for its owner. -/
theorem owner_of_taken {m : Scheduler.Move} (hm : g.schedulerMove? e = some m)
    (h : g.digests.taken m ≠ []) : m.owner = e.owner := by
  cases e with
  | request c r =>
    cases r with
    | flush | shutdown =>
      cases hm
      rfl
    | mark _ =>
      cases hm
      exact absurd rfl h
    | run _ _ _ | columns _ | stats _ | tables | add _ _ _ | clear _ => cases hm
  | expire w =>
    cases hm
    rfl
  | reply call outcome =>
    obtain ⟨p, -, hp⟩ := Option.bind_eq_some_iff.1 hm
    cases p with
    | add c t =>
      obtain ⟨v, -, rfl⟩ := Option.map_eq_some_iff.1 hp
      exact absurd rfl h
    | digest _ _ =>
      cases hp
      exact absurd rfl h
    | run _ _ | stats _ | tables _ | refresh _ => cases hp
  | notice _ | drop _ =>
    cases hm
    exact absurd rfl h
  | begin _ => cases hm

/-- The tables that are taken begin as a batch with the next number, and the first is launched. -/
theorem begins_of_takes (hcalls : g.CallsNumbered) {tables : List String}
    (h : g.takes now e = [tables]) :
    (g.step now e).1.digests.LaunchedTo g.digests.nextBatch e.owner tables 0 ∧
      g.launchFor g.digests.nextBatch now e = (tables.take 1).map digestCall ∧
      ∃ call first, tables.head? = some first ∧
        (g.step now e).2 = [.call call (digestCall first)] := by
  obtain ⟨hne, htables⟩ := takes_eq_singleton_iff.1 h
  cases hm : g.schedulerMove? e with
  | none =>
    rw [hm] at htables
    exact absurd htables.symm hne
  | some m =>
    rw [hm] at htables
    obtain rfl : g.digests.taken m = tables := htables
    obtain ⟨hbatch, hbatches, hnext, -⟩ := Scheduler.move_of_taken hne now
    rw [owner_of_taken hm hne] at hbatch hbatches
    have hgoes : (g.schedulerMove? e).bind g.digests.batch? =
        some (g.digests.newBatch e.owner (g.digests.taken m)) := by
      rw [hm]
      exact hbatch
    refine ⟨?_, ?_, ?_⟩
    · rw [step_digests, hm]
      refine ⟨?_, fun _ => ?_, fun hlength => ?_⟩
      · show _ < (g.digests.move now m).nextBatch
        rw [hnext]
        exact Nat.lt_succ_self _
      · show _ ∈ (g.digests.move now m).batches
        rw [hbatches]
        exact List.mem_append_right _ (List.mem_singleton_self _)
      · exact absurd (List.length_eq_zero_iff.1 (Nat.le_zero.1 hlength)) hne
    · rw [launchFor_eq hcalls, hgoes]
      exact if_pos rfl
    · obtain ⟨g', hgo⟩ := exists_goOn hgoes now
      obtain ⟨first, rest, htaken⟩ := List.exists_cons_of_ne_nil hne
      refine ⟨g'.nextCall, first, by rw [htaken]; rfl, ?_⟩
      rw [hgo, goOn_of_left htaken]
      rfl

/-- Nothing was launched for a batch whose number is not yet in use. -/
theorem launchFor_eq_nil (hcalls : g.CallsNumbered) (hnumbered : g.digests.BatchesNumbered)
    (h : (g.step now e).1.digests.nextBatch ≤ n) : g.launchFor n now e = [] := by
  rw [launchFor_eq hcalls]
  rw [step_digests] at h
  cases hm : g.schedulerMove? e with
  | none => rfl
  | some m =>
    rw [hm] at h
    show (g.digests.batch? m).elim [] _ = []
    cases hb : g.digests.batch? m with
    | none => rfl
    | some b =>
      refine if_neg fun hn => ?_
      have hlt : b.number < n :=
        Nat.lt_of_lt_of_le (Scheduler.number_lt_of_batch? hnumbered hb now) h
      exact Nat.ne_of_lt hlt hn

section
variable {owner : Owner} {tables : List String} {k : Nat}

/-- The answer to a launch of a batch: the next table is launched, or it was the last. -/
theorem launchedTo_of_answers (hcalls : g.CallsNumbered) (hnumbered : g.digests.BatchesNumbered)
    (h : g.digests.LaunchedTo n owner tables k) (he : n ∈ g.answers now e) :
    (g.step now e).1.digests.LaunchedTo n owner tables (k + 1) ∧
      g.launchFor n now e = ((tables.drop (k + 1)).take 1).map digestCall ∧
      g.tellsFor n now e = if k + 1 = tables.length then
        (batchDone owner tables.length).filterMap Effect.answer? else [] := by
  have hm := mem_answers_iff.1 he
  rw [launchFor_eq hcalls, tells_of_mem_answers he, step_digests, hm]
  rcases Nat.lt_or_ge k tables.length with hk | hk
  · obtain ⟨hbatch, hmove⟩ := h.launched hk hnumbered now
    have hlaunched : (g.digests.launched n).1 = _ := hbatch
    rw [Option.bind_some, hbatch, hlaunched]
    refine ⟨hmove, if_pos rfl, ?_⟩
    have hleft : tables.drop (k + 1) = [] ↔ k + 1 = tables.length := by
      rw [List.drop_eq_nil_iff]
      omega
    exact if_congr hleft rfl rfl
  · have hover := h.launched_over hk
    have hbatch : g.digests.batch? (.launched n) = none := congrArg Prod.fst hover
    have hmove : g.digests.move now (.launched n) = g.digests := congrArg Prod.snd hover
    rw [Option.bind_some, hbatch, hover, List.drop_of_length_le (Nat.le_succ_of_le hk),
      if_neg (by omega)]
    refine ⟨?_, rfl, rfl⟩
    show (g.digests.move now (.launched n)).LaunchedTo n owner tables (k + 1)
    rw [hmove]
    exact ⟨h.begun, fun hlt => absurd hlt (by omega), fun _ => h.ended hk⟩

/-- Whatever else happens leaves a batch alone, unless its caller goes away. -/
theorem launchedTo_of_other (hcalls : g.CallsNumbered) (hnumbered : g.digests.BatchesNumbered)
    (h : g.digests.LaunchedTo n owner tables k) (he : n ∉ g.answers now e)
    (hdrop : ∀ caller, owner.caller? = some caller → e ≠ .drop caller) :
    (g.step now e).1.digests.LaunchedTo n owner tables k ∧ g.launchFor n now e = [] ∧
      g.tellsFor n now e = [] := by
  have hanswers : g.schedulerMove? e ≠ some (.launched n) := fun hm => he (mem_answers_iff.2 hm)
  rw [launchFor_eq hcalls, step_digests]
  cases hm : g.schedulerMove? e with
  | none => exact ⟨h, rfl, if_neg he⟩
  | some m =>
    have hgone : ∀ caller, m = .drop caller → owner.caller? ≠ some caller := by
      rintro caller rfl hcaller
      exact hdrop caller hcaller (eq_drop_of_schedulerMove? hm)
    obtain ⟨hmove, hother⟩ :=
      h.move hnumbered (fun hlaunched => hanswers (hlaunched ▸ hm)) hgone now
    refine ⟨hmove, ?_, if_neg he⟩
    show (g.digests.batch? m).elim [] _ = []
    cases hb : g.digests.batch? m with
    | none => rfl
    | some b => exact if_neg (hother b hb)

end

/-- A flush that finds nothing marked changes nothing. -/
theorem flush_of_nil (h : g.digests.WellTimed) (hpending : g.digests.pending = [])
    (owner : Owner) : g.flush owner = (g, batchDone owner 0) := by
  unfold flush
  rw [Scheduler.flush_eq, hpending, Scheduler.launch_nil, h.close_eq_self hpending]

theorem nextBatch_le_step (g : Gateway) (now : Nat) (e : Event) :
    g.digests.nextBatch ≤ (g.step now e).1.digests.nextBatch := by
  rw [step_digests]
  cases g.schedulerMove? e with
  | none => exact Nat.le_refl _
  | some m => exact Scheduler.nextBatch_le_move g.digests now m

/-- The batches are counted as they are taken. -/
theorem flushes_step (g : Gateway) (now : Nat) (e : Event) :
    (g.step now e).1.digests.flushes = g.digests.flushes + (g.takes now e).length := by
  rw [step_digests]
  unfold takes
  cases g.schedulerMove? e with
  | none => rfl
  | some m =>
    show (g.digests.move now m).flushes =
      g.digests.flushes + ([g.digests.taken m].filter fun tables => tables ≠ []).length
    by_cases h : g.digests.taken m = []
    · rw [(Scheduler.move_of_not_taken h now).2.1]
      simp [h]
    · rw [(Scheduler.move_of_taken h now).2.2.2]
      simp [h]

end

/-! ## Runs -/

theorem Alike.same_end {g : Gateway} {run other : Run} (h : g.Alike run other) :
    g.after other = g.after run ∧ g.effects other = g.effects run := by
  induction h with
  | nil g => exact ⟨rfl, rfl⟩
  | same now e _ ih =>
    rw [after_cons, after_cons, effects_cons, effects_cons, ih.1, ih.2]
    exact ⟨rfl, rfl⟩
  | launch now hcall outcome outcome' _ ih =>
    rw [after_cons, after_cons, effects_cons, effects_cons,
      step_launch hcall now outcome' outcome, ih.1, ih.2]
    exact ⟨rfl, rfl⟩

theorem flushes_after (ttl cooldown : Nat) (run : Run) :
    ((empty ttl cooldown).after run).digests.flushes = ((empty ttl cooldown).taken run).length := by
  induction run using List.reverseRecOn with
  | nil => rfl
  | append_singleton run e ih =>
    obtain ⟨now, e⟩ := e
    rw [after_concat, flushes_step, taken_concat, List.length_append, ih]

/-- Nothing is launched for a batch before it is begun. -/
theorem launchesFor_eq_nil {ttl cooldown : Nat} {run : Run} {n : Nat}
    (h : ((empty ttl cooldown).after run).digests.nextBatch ≤ n) :
    (empty ttl cooldown).launchesFor n run = [] := by
  induction run using List.reverseRecOn with
  | nil => rfl
  | append_singleton run e ih =>
    obtain ⟨now, e⟩ := e
    rw [after_concat] at h
    have hbefore := ih (Nat.le_trans (nextBatch_le_step _ now e) h)
    have hlast := launchFor_eq_nil (callsNumbered_after ttl cooldown run)
      (batchesNumbered_after ttl cooldown run) h
    unfold launchesFor at hbefore ⊢
    rw [gather_concat, hbefore, hlast]
    rfl

/-- **For each answer to a launch of a batch there is one launch more, and then a receipt.** -/
theorem launchedTo_after {g : Gateway} (hcalls : g.CallsNumbered)
    (hnumbered : g.digests.BatchesNumbered) {n : Nat} {owner : Owner} {tables : List String}
    (hbegun : g.digests.LaunchedTo n owner tables 0) (hne : tables ≠ []) {run : Run}
    (hstays : ∀ caller, owner.caller? = some caller → ∀ d ∈ run, d.2 ≠ .drop caller) :
    (g.after run).digests.LaunchedTo n owner tables ((g.answered run).count n) ∧
      (tables.take 1).map digestCall ++ g.launchesFor n run =
        (tables.take ((g.answered run).count n + 1)).map digestCall ∧
      g.toldFor n run = if tables.length ≤ (g.answered run).count n then
        (batchDone owner tables.length).filterMap Effect.answer? else [] := by
  -- By the last event: the batch is as far as the events before it have brought it.
  induction run using List.reverseRecOn with
  | nil =>
    have hlength : ¬tables.length ≤ 0 :=
      fun hle => hne (List.length_eq_zero_iff.1 (Nat.le_zero.1 hle))
    exact ⟨hbegun, List.append_nil _, (if_neg hlength).symm⟩
  | append_singleton run e ih =>
    obtain ⟨now, e⟩ := e
    obtain ⟨hafter, hlaunches, htold⟩ := ih fun caller hcaller d hd =>
      hstays caller hcaller d (List.mem_append_left _ hd)
    have hcalls' : (g.after run).CallsNumbered :=
      after_induction hcalls (fun _ now e h => callsNumbered_step now e h) run
    have hnumbered' : (g.after run).digests.BatchesNumbered :=
      digests_after hnumbered (fun _ now m h => Scheduler.batchesNumbered_move h now m) run
    unfold launchesFor toldFor answered at *
    rw [after_concat, gather_concat, gather_concat, gather_concat, List.count_append,
      count_answers, ← List.append_assoc, hlaunches, htold]
    by_cases he : n ∈ (g.after run).answers now e
    · obtain ⟨hstep, hlaunch, htells⟩ := launchedTo_of_answers hcalls' hnumbered' hafter he
      rw [if_pos he, hlaunch, htells]
      refine ⟨hstep, ?_, ?_⟩
      · rw [← List.map_append, ← List.take_add]
      · -- The receipt was told before, or it is told now, or it is not yet due.
        grind
    · have hdrop : ∀ caller, owner.caller? = some caller → e ≠ .drop caller := fun caller hcaller =>
        hstays caller hcaller (now, e) (List.mem_append_right _ (List.mem_singleton_self _))
      obtain ⟨hstep, hlaunch, htells⟩ := launchedTo_of_other hcalls' hnumbered' hafter he hdrop
      rw [if_neg he, hlaunch, htells, List.append_nil, List.append_nil, Nat.add_zero]
      exact ⟨hstep, rfl, rfl⟩

/--
**A batch is launched completely whatever fails.** In every run, whatever overlaps in it:

* what a flush, a shutdown or a timer takes ascends by code point, and is launched table by table in
  that order: the first at once, and with each answer the next. Unless the caller of the flush goes
  away, there is one launch for each table as soon as no call for the batch is open, and the flush
  is told how many they were;
* an answer to a launch does the same whether or not the launch has failed, and no table is marked
  or taken by it;
* so runs that differ only in the answers to launches do the same throughout;
* as many batches are counted as sets of tables were taken;
* a flush that finds nothing marked is told so, and changes nothing.
-/
theorem batches_launched_whole (ttl cooldown : Nat) (run : Run) :
    let start := empty ttl cooldown
    let g := start.after run
    (∀ pre now e post tables, run = pre ++ (now, e) :: post →
      (start.after pre).takes now e = [tables] →
      let n := (start.after pre).digests.nextBatch
      let g₁ := start.after (pre ++ [(now, e)])
      let k := (g₁.answered post).count n
      tables.Pairwise (· < ·) ∧
      (∃ call first, tables.head? = some first ∧
        ((start.after pre).step now e).2 = [.call call (digestCall first)]) ∧
      ((∀ caller, e.Flushes caller → ∀ d ∈ post, d.2 ≠ .drop caller) →
        start.launchesFor n run = (tables.take (k + 1)).map digestCall ∧
        g₁.toldFor n post = (if tables.length ≤ k then e.receipt tables.length else []) ∧
        ((∀ call owner, (call, .digest n owner) ∉ g.calls) →
          start.launchesFor n run = tables.map digestCall ∧
          g₁.toldFor n post = e.receipt tables.length))) ∧
    (∀ now call outcome n, n ∈ g.answers now (.reply call outcome) →
      let g' := (g.step now (.reply call outcome)).1
      g'.digests = { g.digests with batches := g'.digests.batches } ∧
        ∀ other, g.step now (.reply call other) = g.step now (.reply call outcome)) ∧
    (∀ other, start.Alike run other →
      start.after other = g ∧ start.effects other = start.effects run) ∧
    g.digests.flushes = (start.taken run).length ∧
    (g.digests.pending = [] → ∀ now caller,
      g.step now (.request caller .flush) = (g, [.answer caller (.ok (.count 0))]) ∧
        g.step now (.request caller .shutdown) = (g, [.answer caller (.ok .done)])) := by
  intro start g
  refine ⟨?_, ?_, fun other h => h.same_end, flushes_after ttl cooldown run, ?_⟩
  · rintro pre now e post tables rfl htakes n g₁ k
    have hcalls := callsNumbered_after ttl cooldown pre
    obtain ⟨hbegun, hfirst, heffects⟩ := begins_of_takes hcalls htakes
    refine ⟨?_, heffects, fun hstays => ?_⟩
    · rw [eq_pending_of_takes htakes]
      exact List.pairwise_map.2 (ascending_dirty ttl cooldown pre)
    · have hg₁ : g₁ = ((start.after pre).step now e).1 := after_concat start pre now e
      rw [← hg₁] at hbegun
      obtain ⟨hafter, hlaunches, htold⟩ := launchedTo_after (callsNumbered_after ttl cooldown _)
        (batchesNumbered_after ttl cooldown _) hbegun (takes_eq_singleton_iff.1 htakes).1
        fun caller hcaller => hstays caller (Event.caller?_owner.1 hcaller)
      have hall : start.launchesFor n (pre ++ (now, e) :: post) =
          (tables.take (k + 1)).map digestCall := by
        show start.launchesFor (start.after pre).digests.nextBatch (pre ++ (now, e) :: post) = _
        have hpre := launchesFor_eq_nil (Nat.le_refl (start.after pre).digests.nextBatch)
        unfold launchesFor at hpre hlaunches ⊢
        rw [gather_append, gather_cons, hpre, hfirst, ← hg₁]
        exact hlaunches
      rw [receipt_eq] at htold
      refine ⟨hall, htold, fun hclosed => ?_⟩
      -- A batch that is not over waits for a call, and none is open.
      have hover : tables.length ≤ k := by
        by_contra hk
        have hmem := hafter.going (Nat.lt_of_not_le hk)
        rw [← after_append_cons] at hmem
        obtain ⟨call, hcall⟩ := launchesCalled_after ttl cooldown _ _ hmem
        exact hclosed call _ hcall
      refine ⟨?_, htold.trans (if_pos hover)⟩
      rw [hall, List.take_of_length_le (Nat.le_succ_of_le hover)]
  · intro now call outcome n hanswers g'
    refine ⟨digests_of_mem_answers hanswers, fun other => ?_⟩
    obtain ⟨_, _, owner, ⟨⟩, hpurpose⟩ := exists_reply_of_mem_answers hanswers
    exact step_launch hpurpose now other outcome
  · intro hpending now caller
    have htimed : g.digests.WellTimed := wellTimed_after ttl cooldown run
    exact ⟨flush_of_nil htimed hpending (.flush caller),
      flush_of_nil htimed hpending (.shutdown caller)⟩

-- The first of the two launches fails, and still the other is made; the batch counts once.
example :
    let start := (empty 0 5).after [(0, .request 0 (.mark "b")), (1, .request 1 (.mark "a"))]
    let run := [(2, .request 2 .flush), (3, .reply 0 (.error .missingTable)),
      (4, .reply 1 (.ok .null))]
    start.launchesFor 0 run = [digestCall "a", digestCall "b"] ∧
      (start.after run).digests.flushes = 1 := by
  decide

end Gateway

end StoreGateway
