import Mathlib.Data.List.Nodup

/-!
# Lists whose members have numbers of their own

Calls, batches and timers are kept in lists, and each has a number that no other has. New numbers
are counted up, so the next one is above all that are in use.

* `Numbered`: no two members have the same number, and all numbers are below the next;
* `Numbered.filter`, `Numbered.map`, `Numbered.concat`: removing, changing and adding members;
* `Numbered.split`: the member of a number stands between others that do not have it;
* `Numbered.find?_of_mem`: who looks for a number finds its member.
-/

namespace StoreGateway

/-- No two members have the same number, and all numbers are below the next. -/
structure Numbered {α : Type} (number : α → Nat) (next : Nat) (l : List α) : Prop where
  nodup : (l.map number).Nodup
  below : ∀ a ∈ l, number a < next

namespace Numbered

variable {α : Type} {number : α → Nat} {next : Nat} {l : List α}

theorem nil : Numbered number next [] :=
  ⟨List.nodup_nil, fun _ ha => absurd ha List.not_mem_nil⟩

theorem filter (h : Numbered number next l) (p : α → Bool) : Numbered number next (l.filter p) :=
  ⟨h.nodup.sublist (List.filter_sublist.map number),
    fun a ha => h.below a (List.mem_of_mem_filter ha)⟩

theorem map (h : Numbered number next l) {f : α → α} (hf : ∀ a ∈ l, number (f a) = number a) :
    Numbered number next (l.map f) := by
  have hmap : (l.map f).map number = l.map number := by
    rw [List.map_map]
    exact List.map_congr_left hf
  refine ⟨by rw [hmap]; exact h.nodup, fun b hb => ?_⟩
  obtain ⟨a, ha, rfl⟩ := List.mem_map.1 hb
  rw [hf a ha]
  exact h.below a ha

/-- A new member takes the next number. -/
theorem concat (h : Numbered number next l) {a : α} (ha : number a = next) :
    Numbered number (next + 1) (l ++ [a]) := by
  constructor
  · rw [List.map_append, List.map_singleton, List.nodup_append]
    refine ⟨h.nodup, List.nodup_singleton _, ?_⟩
    intro m hm n hn
    obtain ⟨b, hb, rfl⟩ := List.mem_map.1 hm
    rw [List.mem_singleton.1 hn, ha]
    exact Nat.ne_of_lt (h.below b hb)
  · intro b hb
    rcases List.mem_append.1 hb with hb | hb
    · exact Nat.lt_succ_of_lt (h.below b hb)
    · rw [List.mem_singleton.1 hb, ha]
      exact Nat.lt_succ_self next

/-- The member of a number stands between others that do not have it. -/
theorem split (h : Numbered number next l) {a : α} (ha : a ∈ l) :
    ∃ before behind, l = before ++ a :: behind ∧ (∀ b ∈ before, number b ≠ number a) ∧
      ∀ b ∈ behind, number b ≠ number a := by
  obtain ⟨before, behind, rfl⟩ := List.append_of_mem ha
  have hnd := h.nodup
  rw [List.map_append, List.map_cons, List.nodup_append] at hnd
  obtain ⟨-, hbehind, hdisjoint⟩ := hnd
  refine ⟨before, behind, rfl, fun b hb => ?_, fun b hb e => ?_⟩
  · exact hdisjoint _ (List.mem_map_of_mem hb) _ List.mem_cons_self
  · exact (List.nodup_cons.1 hbehind).1 (e ▸ List.mem_map_of_mem hb)

theorem find?_of_mem (h : Numbered number next l) {a : α} (ha : a ∈ l) :
    l.find? (fun b => number b = number a) = some a := by
  obtain ⟨before, behind, rfl, hbefore, -⟩ := h.split ha
  rw [List.find?_append, List.find?_eq_none.2 fun b hb => by simpa using hbefore b hb]
  simp

/-- Without the member of a number there is one less to be counted, if it counts. -/
theorem countP_filter_ne (h : Numbered number next l) {a : α} (ha : a ∈ l) (q : α → Bool) :
    (l.filter fun b => number b ≠ number a).countP q + (if q a then 1 else 0) = l.countP q := by
  obtain ⟨before, behind, rfl, hbefore, hbehind⟩ := h.split ha
  have hfilter : (before ++ a :: behind).filter (fun b => number b ≠ number a) =
      before ++ behind := by
    rw [List.filter_append, List.filter_cons_of_neg (by simp),
      List.filter_eq_self.2 fun b hb => decide_eq_true (hbefore b hb),
      List.filter_eq_self.2 fun b hb => decide_eq_true (hbehind b hb)]
  rw [hfilter, List.countP_append, List.countP_append, List.countP_cons]
  omega

end Numbered

end StoreGateway
