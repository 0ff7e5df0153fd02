import Mathlib.Algebra.Ring.Nat
import StoreGateway.Text.Split

/-!
# Pieces of a text

Pieces that do not hold the separator are told apart by it, so cutting gives back what was joined.

* `splitOn_joinWith`: the pieces of joined pieces;
* `splitOnce_eq_some_iff`: what the first separator cuts a text into;
* `length_joinWith`: the length of joined pieces;
* `lines_flatMap`: the lines of a text that was written line by line.
-/

namespace StoreGateway.Text

/-! ## Cutting at every separator -/

theorem splitOn_eq (sep : Char) (cs : List Char) : splitOn sep cs = cs.splitOn sep := by
  induction cs with
  | nil => rfl
  | cons c cs ih =>
    unfold splitOn
    rw [ih, List.splitOn_cons_eq_if_modifyHead]
    by_cases h : c = sep
    · simp [h]
    · obtain ⟨p, ps, hp⟩ := List.exists_cons_of_ne_nil (List.splitOn_ne_nil sep cs)
      simp [h, hp]

theorem joinWith_eq (sep : Char) (ps : List (List Char)) : joinWith sep ps = [sep].intercalate ps := by
  induction ps with
  | nil => rfl
  | cons p ps ih =>
    cases ps with
    | nil => simp [joinWith, List.intercalate]
    | cons q qs =>
      show p ++ sep :: joinWith sep (q :: qs) = _
      rw [ih]
      simp [List.intercalate]

/-- Pieces without the separator are read back. -/
theorem splitOn_joinWith {sep : Char} {ps : List (List Char)} (hne : ps ≠ [])
    (h : ∀ p ∈ ps, sep ∉ p) : splitOn sep (joinWith sep ps) = ps := by
  rw [splitOn_eq, joinWith_eq]
  exact List.splitOn_intercalate sep h hne

/-- Each piece counts with one separator, but for one of them. -/
theorem length_joinWith (sep : Char) {ps : List (List Char)} (hne : ps ≠ []) :
    (joinWith sep ps).length + 1 = (ps.map fun p => p.length + 1).sum := by
  induction ps with
  | nil => exact absurd rfl hne
  | cons p ps ih =>
    cases ps with
    | nil => simp [joinWith]
    | cons q qs =>
      have htail := ih (List.cons_ne_nil q qs)
      show (p ++ sep :: joinWith sep (q :: qs)).length + 1 = _
      rw [List.map_cons, List.sum_cons, ← htail, List.length_append, List.length_cons]
      omega

/-! ## Cutting at the first separator -/

theorem splitOnce_append {sep : Char} {a : List Char} (h : sep ∉ a) (b : List Char) :
    splitOnce sep (a ++ sep :: b) = some (a, b) := by
  induction a with
  | nil => simp [splitOnce]
  | cons c a ih =>
    have hc : c ≠ sep := fun e => h (e ▸ List.mem_cons_self)
    have ha : sep ∉ a := fun m => h (List.mem_cons_of_mem _ m)
    simp [splitOnce, hc, ih ha]

theorem splitOnce_eq_some_iff {sep : Char} {cs a b : List Char} :
    splitOnce sep cs = some (a, b) ↔ cs = a ++ sep :: b ∧ sep ∉ a := by
  constructor
  · intro h
    induction cs generalizing a with
    | nil => cases h
    | cons c cs ih =>
      unfold splitOnce at h
      split at h
      · next hc =>
        cases h
        exact ⟨by rw [hc]; rfl, List.not_mem_nil⟩
      · next hc =>
        obtain ⟨⟨a', b'⟩, hp, heq⟩ := Option.map_eq_some_iff.1 h
        cases heq
        obtain ⟨rfl, hmem⟩ := ih hp
        refine ⟨rfl, fun hm => ?_⟩
        rcases List.mem_cons.1 hm with e | hm
        · exact hc e.symm
        · exact hmem hm
  · rintro ⟨rfl, h⟩
    exact splitOnce_append h b

theorem splitOnce_eq_none_iff {sep : Char} {cs : List Char} :
    splitOnce sep cs = none ↔ sep ∉ cs := by
  induction cs with
  | nil => simp [splitOnce]
  | cons c cs ih =>
    by_cases h : c = sep
    · simp [splitOnce, h]
    · simp [splitOnce, h, ih, Ne.symm h]

/-! ## Lines -/

theorem dropReturn_of_not_mem {l : List Char} (h : '\r' ∉ l) : dropReturn l = l := by
  unfold dropReturn
  split
  · next hlast => exact absurd (List.mem_of_getLast? hlast) h
  · rfl

/-- Behind lines that each end in a line feed there is one more piece, an empty one. -/
theorem flatMap_line_eq (ls : List (List Char)) :
    ls.flatMap (· ++ ['\n']) = joinWith '\n' (ls ++ [[]]) := by
  induction ls with
  | nil => rfl
  | cons l ls ih =>
    obtain ⟨q, qs, hq⟩ := List.exists_cons_of_ne_nil (List.append_ne_nil_of_right_ne_nil ls
      (List.cons_ne_nil ([] : List Char) []))
    rw [List.flatMap_cons, ih, List.cons_append, hq]
    simp [joinWith]

/-- Lines that hold no break are read back from their text. -/
theorem lines_flatMap {ls : List (List Char)} (h : ∀ l ∈ ls, '\n' ∉ l ∧ '\r' ∉ l) :
    lines (ls.flatMap (· ++ ['\n'])) = ls := by
  have hpieces : splitOn '\n' (ls.flatMap (· ++ ['\n'])) = ls ++ [[]] := by
    rw [flatMap_line_eq]
    refine splitOn_joinWith (by simp) fun p hp => ?_
    rcases List.mem_append.1 hp with hp | hp
    · exact (h p hp).1
    · rw [List.mem_singleton.1 hp]
      exact List.not_mem_nil
  have hdrop : ls.map dropReturn = ls := by
    conv => rhs; rw [← List.map_id ls]
    exact List.map_congr_left fun l hl => dropReturn_of_not_mem (h l hl).2
  unfold lines
  rw [hpieces]
  simp [hdrop]

end StoreGateway.Text
