import StoreGateway.Proofs.Batches
import StoreGateway.Proofs.Launching

/-!
# The moves of a batch

What is taken begins as a batch. From then on the batch goes on when one of its launches was
answered, and every other move leaves it alone, unless its caller goes away. So the number of
answers tells what is left of it.

* `Scheduler.move_of_taken`, `Scheduler.move_of_not_taken`: a batch begins with what is taken, and
  is counted;
* `Scheduler.mem_batches_of_mem`: a batch that a move leaves alone;
* `Scheduler.LaunchedTo`: a batch some of whose launches were answered, with one lemma for each kind
  of move.
-/

namespace StoreGateway

open Catalog Command Digest Query

namespace Digest.Scheduler

/-- Who launches what a move takes. -/
def Move.owner : Move → Owner
  | .flush owner => owner
  | _ => .timer

/-- **What is taken begins as a batch, and is counted.** -/
theorem move_of_taken {s : Scheduler} {m : Move} (h : s.taken m ≠ []) (now : Nat) :
    s.batch? m = some (s.newBatch m.owner (s.taken m)) ∧
      (s.move now m).batches = s.batches ++ [s.newBatch m.owner (s.taken m)] ∧
      (s.move now m).nextBatch = s.nextBatch + 1 ∧ (s.move now m).flushes = s.flushes + 1 := by
  cases m with
  | expire w =>
    have hleft := s.left_expire w
    rcases expire_cases s w with ⟨-, hexpire⟩ | hexpire
    · have htaken : s.taken (.expire w) = s.pending := by
        rw [← hleft, hexpire, left_launch]
      rw [htaken] at h ⊢
      show (s.expire w).1 = _ ∧ (s.expire w).2.batches = _ ∧ (s.expire w).2.nextBatch = _ ∧
        (s.expire w).2.flushes = _
      rw [hexpire, launch_of_ne_nil h]
      exact ⟨rfl, rfl, rfl, rfl⟩
    · rw [← hleft, hexpire] at h
      exact absurd rfl h
  | flush owner =>
    have hpending : s.pending ≠ [] := h
    show (s.flush owner).1 = some (s.newBatch owner s.pending) ∧
      (s.flush owner).2.batches = s.batches ++ [s.newBatch owner s.pending] ∧
      (s.flush owner).2.nextBatch = _ ∧ (s.flush owner).2.flushes = _
    rw [flush_eq, launch_of_ne_nil hpending]
    exact ⟨rfl, rfl, rfl, rfl⟩
  | mark _ | notice _ | launched _ | drop _ => exact absurd rfl h

/-- Where nothing is taken, nothing is counted, and only a batch that was begun goes on. -/
theorem move_of_not_taken {s : Scheduler} {m : Move} (h : s.taken m = []) (now : Nat) :
    (s.move now m).nextBatch = s.nextBatch ∧ (s.move now m).flushes = s.flushes ∧
      ∀ b, s.batch? m = some b → ∃ c ∈ s.batches, m = .launched c.number ∧ b = c.tail := by
  cases m with
  | mark table =>
    show (s.mark now table).2.nextBatch = _ ∧ (s.mark now table).2.flushes = _ ∧ _
    unfold mark
    dsimp only
    split <;> exact ⟨rfl, rfl, fun b hb => by cases hb⟩
  | expire w =>
    show (s.expire w).2.nextBatch = _ ∧ (s.expire w).2.flushes = _ ∧
      ∀ b, (s.expire w).1 = some b → _
    rw [← left_expire] at h
    rcases expire_cases s w with ⟨-, hexpire⟩ | hexpire
    · rw [hexpire, left_launch] at h
      rw [hexpire, h, launch_nil]
      exact ⟨rfl, rfl, fun b hb => by cases hb⟩
    · rw [hexpire]
      exact ⟨rfl, rfl, fun b hb => by cases hb⟩
  | flush owner =>
    have hpending : s.pending = [] := h
    show (s.flush owner).2.nextBatch = _ ∧ (s.flush owner).2.flushes = _ ∧
      ∀ b, (s.flush owner).1 = some b → _
    rw [flush_eq, hpending, launch_nil]
    exact ⟨rfl, rfl, fun b hb => by cases hb⟩
  | launched n =>
    refine ⟨?_, ?_, fun b hb => ?_⟩
    · show (s.launched n).2.nextBatch = _
      unfold launched
      split <;> rfl
    · show (s.launched n).2.flushes = _
      unfold launched
      split <;> rfl
    · obtain ⟨c, hc, rfl, rfl⟩ := launched_some hb
      exact ⟨c, hc, rfl, rfl⟩
  | notice _ | drop _ => exact ⟨rfl, rfl, fun b hb => by cases hb⟩

theorem nextBatch_le_move (s : Scheduler) (now : Nat) (m : Move) :
    s.nextBatch ≤ (s.move now m).nextBatch := by
  by_cases h : s.taken m = []
  · exact Nat.le_of_eq (move_of_not_taken h now).1.symm
  · rw [(move_of_taken h now).2.2.1]
    exact Nat.le_succ _

/-- The batch of a move has a number that is in use after the move. -/
theorem number_lt_of_batch? {s : Scheduler} (h : s.BatchesNumbered) {m : Move} {b : Batch}
    (hb : s.batch? m = some b) (now : Nat) : b.number < (s.move now m).nextBatch := by
  by_cases htaken : s.taken m = []
  · obtain ⟨hnext, -, hgoes⟩ := move_of_not_taken htaken now
    obtain ⟨c, hc, -, rfl⟩ := hgoes b hb
    rw [hnext]
    exact h.below c hc
  · obtain ⟨hbatch, -, hnext, -⟩ := move_of_taken htaken now
    rw [hbatch] at hb
    cases hb
    rw [hnext]
    exact Nat.lt_succ_self _

/-- A batch stays as it is when neither its launch is answered nor its caller goes away. -/
theorem mem_batches_of_mem {s : Scheduler} (h : s.BatchesNumbered) {b : Batch} (hb : b ∈ s.batches)
    {m : Move} (hlaunched : m ≠ .launched b.number)
    (hdrop : ∀ caller, m = .drop caller → b.owner.caller? ≠ some caller) (now : Nat) :
    b ∈ (s.move now m).batches := by
  cases m with
  | mark table =>
    show b ∈ (s.mark now table).2.batches
    rw [mark_batches]
    exact hb
  | expire w =>
    show b ∈ (s.expire w).2.batches
    rw [expire_batches]
    exact List.mem_append_left _ hb
  | flush owner =>
    show b ∈ (s.flush owner).2.batches
    rw [flush_batches]
    exact List.mem_append_left _ hb
  | launched n =>
    show b ∈ (s.launched n).2.batches
    by_cases hmem : ∃ c ∈ s.batches, c.number = n
    · obtain ⟨c, hc, rfl⟩ := hmem
      obtain ⟨before, behind, hsplit, hbefore, hbehind⟩ := h.split hc
      rw [launched_split hsplit hbefore hbehind]
      rw [hsplit] at hb
      rcases List.mem_append.1 hb with hb | hb
      · exact List.mem_append_left _ (List.mem_append_left _ hb)
      · rcases List.mem_cons.1 hb with rfl | hb
        · exact absurd rfl hlaunched
        · exact List.mem_append_right _ hb
    · rw [launched_none fun c hc e => hmem ⟨c, hc, e⟩]
      exact hb
  | notice w => exact hb
  | drop caller => exact List.mem_filter.2 ⟨hb, decide_eq_true (hdrop caller rfl)⟩

/-- Where nothing is marked, there is nothing to close. -/
theorem WellTimed.close_eq_self {s : Scheduler} (h : s.WellTimed) (hpending : s.pending = []) :
    s.close = s := by
  have hdirty : s.dirty = [] := List.map_eq_nil_iff.1 hpending
  have hwindow : s.window = none := by
    rw [← Option.not_isSome_iff_eq_none, h.marked, hdirty]
    exact fun hne => hne rfl
  obtain ⟨_, dirty, window, _, _, _, _, _⟩ := s
  obtain rfl : dirty = [] := hdirty
  obtain rfl : window = none := hwindow
  rfl

/-! ## How far a batch has come -/

/--
A batch some of whose launches were answered: it waits for the launch of the next table, and it is
over when there is none.
-/
structure LaunchedTo (s : Scheduler) (n : Nat) (owner : Owner) (tables : List String)
    (answers : Nat) : Prop where
  begun : n < s.nextBatch
  going : answers < tables.length → ⟨n, owner, tables.length, tables.drop answers⟩ ∈ s.batches
  ended : tables.length ≤ answers → ∀ b ∈ s.batches, b.number ≠ n

section
variable {s : Scheduler} {n k : Nat} {owner : Owner} {tables : List String}

/-- An answer to a launch of a batch makes it go on, if it is not over. -/
theorem LaunchedTo.launched (h : s.LaunchedTo n owner tables k) (hk : k < tables.length)
    (hnumbered : s.BatchesNumbered) (now : Nat) :
    s.batch? (.launched n) = some ⟨n, owner, tables.length, tables.drop (k + 1)⟩ ∧
      (s.move now (.launched n)).LaunchedTo n owner tables (k + 1) := by
  obtain ⟨before, behind, hsplit, hbefore, hbehind⟩ := hnumbered.split (h.going hk)
  have hlaunched := launched_split hsplit hbefore hbehind
  have htail : (⟨n, owner, tables.length, tables.drop k⟩ : Batch).tail =
      ⟨n, owner, tables.length, tables.drop (k + 1)⟩ := by
    unfold Batch.tail
    rw [List.drop_drop]
  rw [htail] at hlaunched
  have hlt : n < (s.move now (.launched n)).nextBatch :=
    Nat.lt_of_lt_of_le h.begun (nextBatch_le_move s now _)
  have hbatches : (s.move now (.launched n)).batches = before ++
      (if tables.drop (k + 1) = [] then []
        else [⟨n, owner, tables.length, tables.drop (k + 1)⟩]) ++ behind :=
    congrArg (fun r : Option Batch × Scheduler => r.2.batches) hlaunched
  refine ⟨congrArg Prod.fst hlaunched, hlt, fun hk' => ?_, fun hk' => ?_⟩
  · rw [hbatches, if_neg (by simpa using hk')]
    simp
  · rw [hbatches, if_pos (by simpa using hk'), List.append_nil]
    intro b hb
    rcases List.mem_append.1 hb with hb | hb
    · exact hbefore b hb
    · exact hbehind b hb

/-- A batch that is over does not go on. -/
theorem LaunchedTo.launched_over (h : s.LaunchedTo n owner tables k) (hk : tables.length ≤ k) :
    s.launched n = (none, s) :=
  launched_none (h.ended hk)

/-- A move for something else leaves a batch alone, unless its caller goes away. -/
theorem LaunchedTo.move (h : s.LaunchedTo n owner tables k) (hnumbered : s.BatchesNumbered)
    {m : Move} (hm : m ≠ .launched n)
    (hdrop : ∀ caller, m = .drop caller → owner.caller? ≠ some caller) (now : Nat) :
    (s.move now m).LaunchedTo n owner tables k ∧ ∀ b, s.batch? m = some b → b.number ≠ n := by
  have hother : ∀ b, s.batch? m = some b → b.number ≠ n := by
    intro b hb
    by_cases htaken : s.taken m = []
    · obtain ⟨c, -, rfl, rfl⟩ := (move_of_not_taken htaken now).2.2 b hb
      exact fun hc => hm (congrArg Move.launched hc)
    · rw [(move_of_taken htaken now).1] at hb
      cases hb
      exact Nat.ne_of_gt h.begun
  refine ⟨⟨Nat.lt_of_lt_of_le h.begun (nextBatch_le_move s now m), fun hk => ?_, ?_⟩, hother⟩
  · exact mem_batches_of_mem hnumbered (h.going hk) hm hdrop now
  · intro hk b hb
    rcases mem_batches_move hb with ⟨hmem, -, -⟩ | ⟨hbatch, -⟩
    · exact h.ended hk b hmem
    · exact hother b hbatch

end

end Digest.Scheduler

end StoreGateway
