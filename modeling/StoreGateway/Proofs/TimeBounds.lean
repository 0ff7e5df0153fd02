import StoreGateway.Proofs.FragmentReading

/-!
# Bounds of time in whole seconds

A spec bounds the time of rows in milliseconds, and the tool compares whole seconds. A bound is cut
towards zero, so it moves up or down by its sign, but always by less than a second. As the comparisons
are strict, no second outside the bounds is let through, and none is lost that is a second or more
inside them.

* `Passes`: the seconds that a written comparison lets through;
* `comparison_inj`, `passes_gt_iff`, `passes_lt_iff`: a comparison is read back from its text;
* `tdiv_near`: how far a bound moves;
* `Options.Inside`: times that keep a distance from the bounds;
* `time_bounds_in_seconds`: the comparisons of a spec's bounds and what they let through.
-/

namespace StoreGateway.Query

open StoreGateway.Command StoreGateway.Text

/-! ## Comparisons -/

/-- A comparison of the time column with a number, as it is written, lets a second through. -/
inductive Passes (timeColumn : String) (seconds : Int) : String → Prop where
  | gt {n : Int} (h : n < seconds) : Passes timeColumn seconds (timeColumn ++ ":gt:" ++ toString n)
  | lt {n : Int} (h : seconds < n) : Passes timeColumn seconds (timeColumn ++ ":lt:" ++ toString n)

theorem digits_inj {m n : Nat} (h : digits m = digits n) : m = n := by
  rw [← value_digits m, h, value_digits]

theorem signed_inj {m n : Int} (h : signed m = signed n) : m = n := by
  have hminus {k l : Nat} (hk : digits k = '-' :: digits l) : False :=
    absurd (isDigit_of_mem_digits (hk ▸ List.mem_cons_self)) (by decide)
  cases m with
  | ofNat m =>
    cases n with
    | ofNat n => rw [digits_inj (show digits m = digits n from h)]
    | negSucc n => exact (hminus h).elim
  | negSucc m =>
    cases n with
    | ofNat n => exact (hminus h.symm).elim
    | negSucc n => rw [Nat.succ.inj (digits_inj (List.cons.inj h).2)]

theorem toString_inj {m n : Int} (h : toString m = toString n) : m = n := by
  rw [← ofList_signed, ← ofList_signed, String.ofList_inj] at h
  exact signed_inj h

/-- A comparison is read back from its text, if the operator has one length only. -/
theorem comparison_inj {column op op' : String} {m n : Int}
    (hop : op.toList.length = op'.toList.length)
    (h : column ++ op ++ toString m = column ++ op' ++ toString n) : op = op' ∧ m = n := by
  rw [String.append_assoc, String.append_assoc, String.append_right_inj, ← String.toList_inj,
    String.toList_append, String.toList_append] at h
  obtain ⟨hops, hnumbers⟩ := List.append_inj h hop
  exact ⟨String.toList_inj.1 hops, toString_inj (String.toList_inj.1 hnumbers)⟩

section

variable {timeColumn : String} {n seconds : Int}

theorem passes_gt_iff :
    Passes timeColumn seconds (timeColumn ++ ":gt:" ++ toString n) ↔ n < seconds := by
  refine ⟨fun h => ?_, .gt⟩
  generalize htext : timeColumn ++ ":gt:" ++ toString n = text at h
  cases h with
  | gt h =>
    rw [(comparison_inj (by decide) htext).2]
    exact h
  | lt h => exact absurd (comparison_inj (by decide) htext).1 (by decide)

theorem passes_lt_iff :
    Passes timeColumn seconds (timeColumn ++ ":lt:" ++ toString n) ↔ seconds < n := by
  refine ⟨fun h => ?_, .lt⟩
  generalize htext : timeColumn ++ ":lt:" ++ toString n = text at h
  cases h with
  | lt h =>
    rw [(comparison_inj (by decide) htext).2]
    exact h
  | gt h => exact absurd (comparison_inj (by decide) htext).1 (by decide)

end

/-! ## Bounds -/

/-- Without its fraction, a bound is off by less than a second, to whichever side. -/
theorem tdiv_near (ms : Int) : ms < 1000 * ms.tdiv 1000 + 1000 ∧ 1000 * ms.tdiv 1000 < ms + 1000 := by
  have hsplit := Int.mul_tdiv_add_tmod ms 1000
  have habs := Int.natAbs_tmod ms 1000
  have hlt := Nat.mod_lt ms.natAbs (show 0 < (1000 : Int).natAbs by decide)
  omega

/-- A time, in milliseconds, inside each bound by `margin` or more; a bound of zero is none. -/
structure Options.Inside (o : Options) (margin ms : Int) : Prop where
  start : ∀ b ∈ o.startMs, b ≠ 0 → b + margin ≤ ms
  stop : ∀ b ∈ o.endMs, b ≠ 0 → ms + margin ≤ b

/-- The comparisons that the bounds of a spec ask for. -/
def boundTexts (timeColumn : String) (o : Options) : List String :=
  (secondsBound timeColumn "gt" o.startMs ++ secondsBound timeColumn "lt" o.endMs).map Test.text

theorem forall_passes_iff {timeColumn op : String} {ms : Option Int} {seconds : Int} :
    (∀ t ∈ (secondsBound timeColumn op ms).map Test.text, Passes timeColumn seconds t) ↔
      ∀ b ∈ ms, b ≠ 0 →
        Passes timeColumn seconds (timeColumn ++ ":" ++ op ++ ":" ++ toString (b.tdiv 1000)) := by
  cases ms with
  | none => simp [secondsBound]
  | some b => by_cases hb : b = 0 <;> simp [secondsBound, hb, Test.text]

/-- A second passes exactly if it is strictly between the bounds without their fractions. -/
theorem forall_passes_boundTexts_iff {timeColumn : String} {o : Options} {seconds : Int} :
    (∀ t ∈ boundTexts timeColumn o, Passes timeColumn seconds t) ↔
      (∀ b ∈ o.startMs, b ≠ 0 → b.tdiv 1000 < seconds) ∧
        ∀ b ∈ o.endMs, b ≠ 0 → seconds < b.tdiv 1000 := by
  have hgt : ∀ b : Int, Passes timeColumn seconds
      (timeColumn ++ ":" ++ "gt" ++ ":" ++ toString (b.tdiv 1000)) ↔ b.tdiv 1000 < seconds := by
    intro b
    rw [← @passes_gt_iff timeColumn]
    simp [String.append_assoc]
  have hlt : ∀ b : Int, Passes timeColumn seconds
      (timeColumn ++ ":" ++ "lt" ++ ":" ++ toString (b.tdiv 1000)) ↔ seconds < b.tdiv 1000 := by
    intro b
    rw [← @passes_lt_iff timeColumn]
    simp [String.append_assoc]
  unfold boundTexts
  rw [List.map_append, List.forall_mem_append, forall_passes_iff, forall_passes_iff]
  simp only [hgt, hlt]

/--
**Bounds lose less than a second.** The bounds of a spec stand in front of the comparisons of its
integer filters. A second that passes them is strictly between the bounds, and one that is a whole
second or more inside of both passes them, whatever the signs of the bounds are.
-/
theorem time_bounds_in_seconds (view : View) (o : Options) (info : Option Meta) :
    let s : Spec := ⟨view, some o, info⟩
    (fragment s).valueOf? .intFilter =
        joined? (boundTexts s.timeColumn o ++ (integerTests o).map Test.text) ∧
      ∀ seconds : Int,
        ((∀ t ∈ boundTexts s.timeColumn o, Passes s.timeColumn seconds t) →
          o.Inside 1 (1000 * seconds)) ∧
        (o.Inside 1000 (1000 * seconds) →
          ∀ t ∈ boundTexts s.timeColumn o, Passes s.timeColumn seconds t) := by
  intro s
  refine ⟨?_, fun seconds => ?_⟩
  · show (optionArguments s.timeColumn o).valueOf? .intFilter = _
    rw [valueOf?_optionArguments]
    dsimp only
    rw [List.map_append, boundTests, toList_boundTest?, toList_boundTest?]
    rfl
  · rw [forall_passes_boundTexts_iff]
    constructor
    · rintro ⟨hstart, hstop⟩
      refine ⟨fun b hb hne => ?_, fun b hb hne => ?_⟩
      · have hpass := hstart b hb hne
        have hnear := (tdiv_near b).1
        omega
      · have hpass := hstop b hb hne
        have hnear := (tdiv_near b).2
        omega
    · rintro ⟨hstart, hstop⟩
      refine ⟨fun b hb hne => ?_, fun b hb hne => ?_⟩
      · have hinside := hstart b hb hne
        have hnear := (tdiv_near b).2
        omega
      · have hinside := hstop b hb hne
        have hnear := (tdiv_near b).1
        omega

/-- Both bounds move up to zero, and only the first one thereby leaves out more. -/
example :
    let o : Options := ⟨none, [], [], some (-999), some (-1), none, none⟩
    (fragment (.ofOptions .table o)).valueOf? .intFilter = some "time:gt:0,time:lt:0" := by
  decide +kernel

end StoreGateway.Query
