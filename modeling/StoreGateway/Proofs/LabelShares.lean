import StoreGateway.Proofs.NearestDoubles
import StoreGateway.Proofs.RowWise

/-!
# The labels of a group share its count

In the distribution view a group has one row for each of its labels. The row count of the group is
split evenly between them; each share is rounded once, and all shares are alike.

* `Shared`: what a count gives each of some rows;
* `LabelRow`: the row of one label;
* `GroupRows`: the rows of one group, none if it has no labels;
* `hist_fans_out`: the rows of the distribution view, group by group.
-/

namespace StoreGateway.Query

open StoreGateway.Number

/--
What each of `k` rows gets of a count. A finite count is the sum of `k` equal shares, and the double
nearest to a share is shown; a count that is infinite or not a number leaves null.
-/
inductive Shared (k : ℕ) : Binary64 → Json → Prop where
  | finite {c x : Finite} (share : ℚ) (hsum : (List.replicate k share).sum = c.value)
      (hrounds : x.Rounds share) (hsign : x.negative = c.negative) :
      Shared k (.finite c) (.float x)
  | infinity (s : Bool) : Shared k (.infinity s) .null
  | nan : Shared k .nan .null

/-- The quotient by a number of rows is a share. -/
theorem shared_divNat (c : Binary64) {k : ℕ} (hk : k ≠ 0) :
    Shared k c (Json.ofBinary64 (c.divNat k)) := by
  cases c with
  | nan => exact .nan
  | infinity s => exact .infinity s
  | finite c =>
    obtain ⟨x, hx, hsign, hrounds⟩ := Binary64.rounds_divNat c hk
    rw [hx]
    refine .finite (c.value / k) ?_ hrounds hsign
    have hk' : (k : ℚ) ≠ 0 := Nat.cast_ne_zero.2 hk
    rw [List.sum_replicate, nsmul_eq_mul]
    exact mul_div_cancel₀ c.value hk'

/-- The row of one label: the group with the label in the first column, and a count. -/
structure LabelRow (col : String) (dims : List String) (raw : Fields Json) (count label : Json)
    (r : Row) : Prop where
  metrics : r.metrics = []
  count : r.count = count
  id_ascending : r.id.Ascending
  id : ∀ name, r.id.get? name =
    if name = col then some label else if name ∈ dims then raw.get? name else none

/--
The rows of one group. A group without an array of labels, or with an empty one, has no rows; any
other has one row for each label, in order, and all have the same share of the count.
-/
inductive GroupRows (col : String) (dims : List String) (raw : Fields Json) : List Row → Prop where
  | unlabelled (h : ∀ labels, raw.get? col = some (.arr labels) → labels = []) :
      GroupRows col dims raw []
  | labelled {labels : List Json} {count : Json} {rs : List Row}
      (hlabels : raw.get? col = some (.arr labels)) (hne : labels ≠ [])
      (hcount : Shared labels.length (lenientFloat (raw.get? "Count")) count)
      (hrows : List.Forall₂ (LabelRow col dims raw count) labels rs) : GroupRows col dims raw rs

theorem labelRow_insert (col : String) (dims : List String) (raw : Fields Json)
    (count label : Json) :
    LabelRow col dims raw count label ⟨(project raw dims).insert col label, [], count⟩ := by
  refine ⟨rfl, rfl, Fields.ascending_insert (Fields.ascending_ofList _) col label, fun name => ?_⟩
  rw [Fields.get?_insert, get?_project]
  simp only [eq_comm]

theorem groupRows_labelRows (col : String) (dims : List String) (raw : Fields Json) :
    GroupRows col dims raw (labelRows col dims raw) := by
  unfold labelRows
  split
  · next labels hlabels =>
    by_cases hne : labels = []
    · subst hne
      refine .unlabelled fun labels h => ?_
      rw [hlabels] at h
      cases h
      rfl
    · have hlength : labels.length ≠ 0 := fun h => hne (List.length_eq_zero_iff.1 h)
      refine .labelled hlabels hne (shared_divNat _ hlength) ?_
      rw [List.forall₂_map_right_iff, List.forall₂_same]
      exact fun label _ => labelRow_insert col dims raw _ label
  · next hnone => exact .unlabelled fun labels h => absurd h (hnone labels)

/--
**Each label has a row, and the labels of a group share its count.** The rows of the distribution
view are those of its groups, in order. A group has a row for each element of its array in the first
column and no rows if there is none. Its rows have no metrics, the same share of the count, and the
group for a name, in which the first column is the label even if that column is a dim.
-/
theorem hist_fans_out (col : String) (cols dims : List String) (raws : List (Fields Json)) :
    ∃ groups : List (List Row),
      histRows (col :: cols) dims (.arr (raws.map .obj)) = .ok groups.flatten ∧
      List.Forall₂ (GroupRows col dims) raws groups := by
  refine ⟨raws.map (labelRows col dims), ?_, ?_⟩
  · unfold histRows
    rw [rowObjects_arr, ← List.flatMap_def]
    rfl
  · rw [List.forall₂_map_right_iff, List.forall₂_same]
    exact fun raw _ => groupRows_labelRows col dims raw

end StoreGateway.Query
