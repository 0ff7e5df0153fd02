import StoreGateway.Query.Invocation
import StoreGateway.Proofs.Fragments

/-!
# Filters without effect

A filter enters a query only through the comparison that it asks for, and each comparison makes an
option of the fragment longer. So the filters that can be left out are those that ask for none. They
are the ones without a condition and the ones on a column of no kind; but a column that is named
like a kind, with no point behind it, counts as one of that kind, and its filter is not dropped.

* `Filter.Silent`: no conditions, or a column that counts as one of no kind;
* `fragment_erase_iff`: a filter can be left out exactly if it is silent;
* `bare_column_compared`: a column that does not begin with a kind and a point, and is compared.
-/

namespace StoreGateway.Query

open StoreGateway.Command StoreGateway.Text

/-- A filter that asks for no comparison. -/
def Filter.Silent (f : Filter) : Prop :=
  f.conditions = [] ∨ ∀ kind, ¬f.HasKind kind ∧ f.column ≠ kind.name

theorem silent_iff {f : Filter} (toolOp : FilterKind → String → String) :
    f.Silent ↔ ∀ kind, f.test? kind (toolOp kind) = none := by
  simp only [Filter.Silent, test?_eq_none_iff, not_or]
  constructor
  · rintro (h | h) kind
    · exact .inl h
    · exact .inr (h kind)
  · intro h
    by_cases hnil : f.conditions = []
    · exact .inl hnil
    · exact .inr fun kind => (h kind).resolve_left hnil

/-- The texts of one more comparison are longer. -/
theorem joined?_insert_ne (us ts : List String) (t : String) :
    joined? (us ++ ts) ≠ joined? (us ++ t :: ts) := by
  have hmore : joined? (us ++ t :: ts) = some (commaJoin (us ++ t :: ts)) :=
    joined?_eq_some_iff.2 ⟨by simp, rfl⟩
  rw [hmore]
  intro h
  obtain ⟨hne, htext⟩ := joined?_eq_some_iff.1 h
  have hchars := String.ofList_injective htext
  have hshorter : (us ++ ts).map String.toList ≠ [] := by simpa using hne
  have hlonger : (us ++ t :: ts).map String.toList ≠ [] := by simp
  have hshort := length_joinWith ',' hshorter
  have hlong := length_joinWith ',' hlonger
  rw [hchars] at hshort
  simp only [List.map_append, List.map_cons, List.sum_append, List.sum_cons] at hshort hlong
  omega

/-- The spec with options and filters given. -/
def Spec.filtered (s : Spec) (o : Options) (fs : List Filter) : Spec :=
  { s with opts := some { o with filters := fs } }

theorem valueOf?_filtered_strFilter (s : Spec) (o : Options) (fs : List Filter) :
    (fragment (s.filtered o fs)).valueOf? .strFilter =
      joined? ((fs.filterMap (Filter.test? .string stringOp)).map Test.text) :=
  valueOf?_optionArguments _ _ _

theorem valueOf?_filtered_intFilter (s : Spec) (o : Options) (fs : List Filter) :
    (fragment (s.filtered o fs)).valueOf? .intFilter =
      joined? ((boundTests s.timeColumn o ++ fs.filterMap (Filter.test? .integer integerOp)).map
        Test.text) :=
  valueOf?_optionArguments _ _ _

/-- A fragment depends on the filters through their comparisons. -/
theorem fragment_filtered_congr (s : Spec) (o : Options) {fs gs : List Filter}
    (hstring : fs.filterMap (Filter.test? .string stringOp) =
      gs.filterMap (Filter.test? .string stringOp))
    (hinteger : fs.filterMap (Filter.test? .integer integerOp) =
      gs.filterMap (Filter.test? .integer integerOp)) :
    fragment (s.filtered o fs) = fragment (s.filtered o gs) := by
  show optionArguments s.timeColumn { o with filters := fs } =
    optionArguments s.timeColumn { o with filters := gs }
  unfold optionArguments stringTests integerTests
  rw [hstring, hinteger]
  rfl

section

variable (s : Spec) (o : Options) (fs gs : List Filter) (f : Filter)

theorem silent_of_fragment_eq
    (h : fragment (s.filtered o (fs ++ gs)) = fragment (s.filtered o (fs ++ f :: gs))) :
    f.Silent := by
  have hstring : f.test? .string stringOp = none := by
    have hvalue := congrArg (fun as => as.valueOf? .strFilter) h
    cases ht : f.test? .string stringOp with
    | none => rfl
    | some t =>
      simp only [valueOf?_filtered_strFilter, List.filterMap_append, List.filterMap_cons_some ht,
        List.map_append, List.map_cons] at hvalue
      exact absurd hvalue (joined?_insert_ne _ _ _)
  have hinteger : f.test? .integer integerOp = none := by
    have hvalue := congrArg (fun as => as.valueOf? .intFilter) h
    cases ht : f.test? .integer integerOp with
    | none => rfl
    | some t =>
      -- The bounds stand in front, with the comparisons of the filters before this one.
      simp only [valueOf?_filtered_intFilter, List.filterMap_append, List.filterMap_cons_some ht,
        List.map_append, List.map_cons, ← List.append_assoc] at hvalue
      exact absurd hvalue (joined?_insert_ne _ _ _)
  refine (silent_iff fun kind => kind.casesOn stringOp integerOp).2 ?_
  rintro (_ | _)
  · exact hstring
  · exact hinteger

theorem fragment_eq_of_silent (h : f.Silent) :
    fragment (s.filtered o (fs ++ gs)) = fragment (s.filtered o (fs ++ f :: gs)) := by
  have hsilent := fun toolOp kind => (silent_iff toolOp).1 h kind
  refine fragment_filtered_congr s o ?_ ?_
  · rw [List.filterMap_append, List.filterMap_append,
      List.filterMap_cons_none (hsilent (fun _ => stringOp) .string)]
  · rw [List.filterMap_append, List.filterMap_append,
      List.filterMap_cons_none (hsilent (fun _ => integerOp) .integer)]

theorem viewArguments_filtered_congr {fs gs : List Filter}
    (h : fragment (s.filtered o fs) = fragment (s.filtered o gs)) (table : String) :
    viewArguments table (s.filtered o fs) = viewArguments table (s.filtered o gs) := by
  have hquery : queryArguments (s.filtered o fs) = queryArguments (s.filtered o gs) := by
    show .switch .laq :: fragment (s.filtered o fs) = .switch .laq :: fragment (s.filtered o gs)
    rw [h]
  unfold viewArguments
  rw [hquery]
  rfl

/--
**A filter can be left out exactly if it is silent.** Then neither the fragment nor the arguments of
any view change, for any table and wherever the filter stands; else the fragment does.
-/
theorem fragment_erase_iff :
    (fragment (s.filtered o (fs ++ gs)) = fragment (s.filtered o (fs ++ f :: gs)) ↔ f.Silent) ∧
    (f.Silent → ∀ view table, viewArguments table ({ s with view := view }.filtered o (fs ++ gs)) =
      viewArguments table ({ s with view := view }.filtered o (fs ++ f :: gs))) :=
  ⟨⟨silent_of_fragment_eq s o fs gs f, fragment_eq_of_silent s o fs gs f⟩, fun h view table =>
    viewArguments_filtered_congr _ o (fragment_eq_of_silent { s with view := view } o fs gs f h) table⟩

end

/--
The column begins with no kind and a point, but it is named like a kind. Its filter is not dropped:
it asks for a comparison of a column without a name.
-/
theorem bare_column_compared :
    let f : Filter := .single "string" "$regex" (.str "web")
    let o : Options := ⟨none, [], [], none, none, none, none⟩
    let s : Spec := .ofOptions .table o
    (∀ kind, ¬f.HasKind kind) ∧ fragment (s.filtered o []) ≠ fragment (s.filtered o [f]) ∧
      (fragment (s.filtered o [f])).valueOf? .strFilter = some ":eq:web" := by
  refine ⟨?_, by decide, by decide⟩
  rintro (_ | _) <;> decide

end StoreGateway.Query
