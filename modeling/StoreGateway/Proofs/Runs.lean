import StoreGateway.Gateway.Basic

/-!
# Runs of the gateway

A run is a list of events in the order in which they happen, each with its time. Any event may
come at any place of it, and no order of the times is asked for.

* `Gateway.after`: the gateway at the end of a run;
* `Gateway.gather`: what each step of a run says, one after the other;
* `Gateway.effects`, `Gateway.answersTo`: what a run wants done, and what it tells one caller;
* `Gateway.gather_cases`: a run is silent, or something is said in it for the first time;
* `Gateway.exists_since_concat`: what has happened in a run, with silence since then, event by event;
* `Gateway.after_induction`: what holds at first and is kept by each step holds after every run.
-/

namespace StoreGateway

open Catalog Command Digest Query

/-- Events in the order in which they happen, each with its time. -/
abbrev Run := List (Nat × Event)

/-- The caller of a request. -/
def Event.requester? : Event → Option Ticket
  | .request caller _ => some caller
  | _ => none

/-- Whom an effect tells something, and what. -/
def Effect.answer? : Effect → Option (Ticket × Except Error Answer)
  | .answer caller result => some (caller, result)
  | _ => none

/-- What an effect tells a caller. -/
def Effect.answerTo (caller : Ticket) : Effect → Option (Except Error Answer)
  | .answer c result => if c = caller then some result else none
  | _ => none

theorem Effect.mem_filterMap_answerTo {caller : Ticket} {effects : List Effect}
    {result : Except Error Answer} :
    result ∈ effects.filterMap (Effect.answerTo caller) ↔ .answer caller result ∈ effects := by
  rw [List.mem_filterMap]
  constructor
  · rintro ⟨effect, hmem, h⟩
    cases effect with
    | answer c r =>
      obtain ⟨rfl, rfl⟩ : c = caller ∧ r = result := by simpa [Effect.answerTo] using h
      exact hmem
    | call _ _ | queue _ | arm _ => cases h
  · intro hmem
    exact ⟨_, hmem, by simp [Effect.answerTo]⟩

namespace Gateway

variable {α : Type}

def after (g : Gateway) (run : Run) : Gateway :=
  run.foldl (fun g e => (g.step e.1 e.2).1) g

/-- What each step of a run says, one after the other. -/
def gather (say : Gateway → Nat → Event → List α) : Gateway → Run → List α
  | _, [] => []
  | g, e :: run => say g e.1 e.2 ++ gather say (g.step e.1 e.2).1 run

/-- All that a run wants done, in order. -/
def effects (g : Gateway) (run : Run) : List Effect :=
  g.gather (fun g now e => (g.step now e).2) run

/-- All that a run tells a caller, in order. -/
def answersTo (caller : Ticket) (g : Gateway) (run : Run) : List (Except Error Answer) :=
  (g.effects run).filterMap (Effect.answerTo caller)

/-! ## Runs in parts -/

theorem after_cons (g : Gateway) (e : Nat × Event) (run : Run) :
    g.after (e :: run) = (g.step e.1 e.2).1.after run := rfl

theorem after_append (g : Gateway) (run more : Run) :
    g.after (run ++ more) = (g.after run).after more := by
  unfold after
  rw [List.foldl_append]

theorem after_concat (g : Gateway) (run : Run) (now : Nat) (e : Event) :
    g.after (run ++ [(now, e)]) = ((g.after run).step now e).1 := by
  rw [after_append]
  rfl

theorem after_append_cons (g : Gateway) (run more : Run) (now : Nat) (e : Event) :
    g.after (run ++ (now, e) :: more) = (g.after (run ++ [(now, e)])).after more := by
  rw [after_append, after_concat, after_cons]

theorem gather_nil (say : Gateway → Nat → Event → List α) (g : Gateway) :
    g.gather say [] = [] := rfl

theorem gather_cons (say : Gateway → Nat → Event → List α) (g : Gateway) (e : Nat × Event)
    (run : Run) :
    g.gather say (e :: run) = say g e.1 e.2 ++ (g.step e.1 e.2).1.gather say run := rfl

theorem gather_append (say : Gateway → Nat → Event → List α) (g : Gateway) (run more : Run) :
    g.gather say (run ++ more) = g.gather say run ++ (g.after run).gather say more := by
  induction run generalizing g with
  | nil => rfl
  | cons e run ih =>
    rw [List.cons_append, gather_cons, gather_cons, after_cons, ih, List.append_assoc]

theorem gather_concat (say : Gateway → Nat → Event → List α) (g : Gateway) (run : Run)
    (now : Nat) (e : Event) :
    g.gather say (run ++ [(now, e)]) = g.gather say run ++ say (g.after run) now e := by
  rw [gather_append, gather_cons, gather_nil, List.append_nil]

theorem effects_cons (g : Gateway) (now : Nat) (e : Event) (run : Run) :
    g.effects ((now, e) :: run) = (g.step now e).2 ++ (g.step now e).1.effects run := rfl

theorem effects_append (g : Gateway) (run more : Run) :
    g.effects (run ++ more) = g.effects run ++ (g.after run).effects more :=
  gather_append _ g run more

theorem effects_concat (g : Gateway) (run : Run) (now : Nat) (e : Event) :
    g.effects (run ++ [(now, e)]) = g.effects run ++ ((g.after run).step now e).2 :=
  gather_concat _ g run now e

theorem answersTo_append (caller : Ticket) (g : Gateway) (run more : Run) :
    g.answersTo caller (run ++ more) =
      g.answersTo caller run ++ (g.after run).answersTo caller more := by
  unfold answersTo
  rw [effects_append, List.filterMap_append]

theorem answersTo_cons (caller : Ticket) (g : Gateway) (now : Nat) (e : Event) (run : Run) :
    g.answersTo caller ((now, e) :: run) =
      (g.step now e).2.filterMap (Effect.answerTo caller) ++
        (g.step now e).1.answersTo caller run := by
  unfold answersTo effects
  rw [gather_cons, List.filterMap_append]

/-- A run is silent, or there is a first event in it that says something. -/
theorem gather_cases (say : Gateway → Nat → Event → List α) (g : Gateway) (run : Run) :
    g.gather say run = [] ∨
      ∃ a t e b, run = a ++ (t, e) :: b ∧ g.gather say a = [] ∧ say (g.after a) t e ≠ [] := by
  induction run generalizing g with
  | nil => exact Or.inl rfl
  | cons e run ih =>
    obtain ⟨now, e⟩ := e
    by_cases hsay : say g now e = []
    · have hgather : ∀ more, g.gather say ((now, e) :: more) =
          (g.step now e).1.gather say more := by
        intro more
        rw [gather_cons, hsay, List.nil_append]
      rcases ih (g.step now e).1 with hsilent | ⟨a, t, d, b, rfl, hsilent, hfirst⟩
      · exact Or.inl ((hgather run).trans hsilent)
      · exact Or.inr ⟨(now, e) :: a, t, d, b, rfl, (hgather a).trans hsilent, hfirst⟩
    · exact Or.inr ⟨[], now, e, run, rfl, rfl, hsay⟩

/-- A member of a list with one more behind it is the last, or one of before. -/
theorem split_concat {β : Type} {l a b : List β} {x y : β} (h : l ++ [x] = a ++ y :: b) :
    (a = l ∧ y = x ∧ b = []) ∨ ∃ rest, b = rest ++ [x] ∧ l = a ++ y :: rest := by
  rcases List.eq_nil_or_concat b with rfl | ⟨rest, z, rfl⟩
  · obtain ⟨rfl, hlast⟩ := List.append_inj' h rfl
    cases hlast
    exact Or.inl ⟨rfl, rfl, rfl⟩
  · rw [List.concat_eq_append, ← List.cons_append, ← List.append_assoc] at h
    obtain ⟨rfl, hlast⟩ := List.append_inj' h rfl
    cases hlast
    exact Or.inr ⟨rest, List.concat_eq_append, rfl⟩

/--
In a longer run, an event of some kind with silence after it is the last event, or one of before, and
then the last event breaks no silence.
-/
theorem exists_since_concat {g : Gateway} {say : Gateway → Nat → Event → List α}
    {P : Run → Nat → Event → Prop} {run : Run} {now : Nat} {e : Event} :
    (∃ a t d b, run ++ [(now, e)] = a ++ (t, d) :: b ∧ P a t d ∧
        (g.after (a ++ [(t, d)])).gather say b = []) ↔
      P run now e ∨
        (∃ a t d b, run = a ++ (t, d) :: b ∧ P a t d ∧
          (g.after (a ++ [(t, d)])).gather say b = []) ∧ say (g.after run) now e = [] := by
  constructor
  · rintro ⟨a, t, d, b, hsplit, hevent, hsilent⟩
    rcases split_concat hsplit with ⟨rfl, hlast, -⟩ | ⟨b, rfl, rfl⟩
    · cases hlast
      exact Or.inl hevent
    · rw [gather_concat, List.append_eq_nil_iff, ← after_append, List.append_assoc] at hsilent
      exact Or.inr ⟨⟨a, t, d, b, rfl, hevent, hsilent.1⟩, hsilent.2⟩
  · rintro (hevent | ⟨⟨a, t, d, b, rfl, hevent, hsilent⟩, hlast⟩)
    · exact ⟨run, now, e, [], rfl, hevent, rfl⟩
    · refine ⟨a, t, d, b ++ [(now, e)], by rw [List.append_assoc, List.cons_append], hevent, ?_⟩
      rw [gather_concat, hsilent, ← after_append, List.append_assoc]
      exact hlast

/-- What holds at first and is kept by each step holds after every run. -/
theorem after_induction {P : Gateway → Prop} {g : Gateway} (start : P g)
    (step : ∀ g now e, P g → P (g.step now e).1) (run : Run) : P (g.after run) := by
  induction run generalizing g with
  | nil => exact start
  | cons e run ih => exact ih (step g e.1 e.2 start)

end Gateway

end StoreGateway
