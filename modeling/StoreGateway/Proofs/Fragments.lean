import StoreGateway.Query.Fragment
import StoreGateway.Proofs.Pieces

/-!
# The options of a fragment

A fragment is made of six parts, each with at most one option of its own. So it is known by the
values of its options, and a filter enters it only through the comparison that it asks for.

* `valueOf?_optionArguments`: the value of each option;
* `flags_optionArguments`: the options stand once at most, in a fixed order, and nothing else does;
* `split_eq_iff`: what stands around the first point of a column;
* `test?_eq_none_iff`: the filters that ask for no comparison.
-/

namespace StoreGateway.Command

def Argument.flag : Argument → String
  | switch s => s.flag
  | opt o _ => o.flag

namespace Arguments

theorem valueOf?_append (as bs : Arguments) (o : Opt) :
    (as ++ bs).valueOf? o = (as.valueOf? o).or (bs.valueOf? o) :=
  List.findSome?_append

theorem valueOf?_cons_opt (p o : Opt) (value : String) (as : Arguments) :
    valueOf? (.opt p value :: as) o = if p = o then some value else as.valueOf? o := by
  by_cases h : p = o <;> simp [valueOf?, h]

theorem valueOf?_nil (o : Opt) : valueOf? [] o = none := rfl

end Arguments

end StoreGateway.Command

namespace StoreGateway.Query

open StoreGateway.Command StoreGateway.Text

/-! ## Values -/

/-- Texts with commas between them, unless there are none. -/
def joined? : List String → Option String
  | [] => none
  | t :: ts => some (commaJoin (t :: ts))

theorem joined?_eq_none_iff {ts : List String} : joined? ts = none ↔ ts = [] := by
  cases ts <;> simp [joined?]

theorem joined?_eq_some_iff {ts : List String} {text : String} :
    joined? ts = some text ↔ ts ≠ [] ∧ commaJoin ts = text := by
  cases ts <;> simp [joined?]

/-- The columns that the tool is asked to aggregate: none when there are no dims. -/
def Options.aggregated (o : Options) : List String :=
  if o.dims.isSome then o.cols else []

theorem valueOf?_listArgument (p o : Opt) (texts : List String) :
    (listArgument p texts).valueOf? o = if p = o then joined? texts else none := by
  cases texts with
  | nil => simp [listArgument, joined?, Arguments.valueOf?_nil]
  | cons t ts => simp [listArgument, joined?, Arguments.valueOf?_cons_opt, Arguments.valueOf?_nil]

theorem groupArguments_eq (o : Options) :
    groupArguments o = listArgument .group (o.dims.getD []) ++ listArgument .int o.aggregated := by
  unfold groupArguments Options.aggregated
  cases o.dims <;> rfl

theorem valueOf?_limitArguments (o : Options) (p : Opt) :
    (limitArguments o).valueOf? p = if .limit = p then (o.limit.filter (0 < ·)).map toString else none := by
  unfold limitArguments
  split
  · next n hn =>
    rw [Arguments.valueOf?_cons_opt, Arguments.valueOf?_nil, hn]
    simp [Option.filter, digits, Nat.repr]
  · next hn =>
    rw [Arguments.valueOf?_nil]
    cases hl : o.limit with
    | none => simp
    | some n =>
      cases n with
      | zero => simp [Option.filter]
      | succ n => exact absurd hl (hn n)

/-- The value of each option of a fragment. -/
theorem valueOf?_optionArguments (timeColumn : String) (o : Options) (p : Opt) :
    (optionArguments timeColumn o).valueOf? p = match p with
      | .group => joined? (o.dims.getD [])
      | .int => joined? o.aggregated
      | .strFilter => joined? ((stringTests o).map Test.text)
      | .intFilter => joined? ((boundTests timeColumn o ++ integerTests o).map Test.text)
      | .timeCol => some timeColumn
      | .limit => (o.limit.filter (0 < ·)).map toString
      | .timeBucket | .table | .op => none := by
  unfold optionArguments
  rw [groupArguments_eq]
  simp only [Arguments.valueOf?_append, valueOf?_listArgument, valueOf?_limitArguments,
    Arguments.valueOf?_cons_opt, Arguments.valueOf?_nil]
  cases p <;> simp

/-! ## Flags -/

/-- The options of a fragment, in order. -/
def fragmentOptions : List Opt :=
  [.group, .int, .strFilter, .intFilter, .timeCol, .limit]

theorem flags_listArgument (o : Opt) (texts : List String) :
    ((listArgument o texts).map Argument.flag).Sublist [o.flag] := by
  cases texts with
  | nil => exact List.nil_sublist _
  | cons t ts => exact List.Sublist.refl _

theorem flags_limitArguments (o : Options) :
    ((limitArguments o).map Argument.flag).Sublist [Opt.limit.flag] := by
  unfold limitArguments
  split
  · exact List.Sublist.refl _
  · exact List.nil_sublist _

/-- The options stand once at most, in a fixed order, and nothing else does. -/
theorem flags_optionArguments (timeColumn : String) (o : Options) :
    ((optionArguments timeColumn o).map Argument.flag).Sublist (fragmentOptions.map Opt.flag) := by
  unfold optionArguments
  rw [groupArguments_eq]
  simp only [List.map_append]
  exact (((((flags_listArgument .group _).append (flags_listArgument .int _)).append
    (flags_listArgument .strFilter _)).append (flags_listArgument .intFilter _)).append
    (List.Sublist.refl [Opt.timeCol.flag])).append (flags_limitArguments o)

/-! ## Filters -/

theorem point_not_mem_name (kind : FilterKind) : '.' ∉ kind.name.toList := by
  cases kind <;> decide

theorem split_of_not_mem {f : Filter} (h : '.' ∉ f.column.toList) : f.split = (f.column, "") := by
  unfold Filter.split
  rw [splitOnce_eq_none_iff.2 h]

/-- A column is cut at its first point. -/
theorem split_eq_iff {f : Filter} {kind name : String} (h : '.' ∈ f.column.toList) :
    f.split = (kind, name) ↔ f.column = kind ++ "." ++ name ∧ '.' ∉ kind.toList := by
  unfold Filter.split
  split
  · next k n hcut =>
    rw [Prod.mk.injEq, ← String.toList_inj, ← String.toList_inj, String.toList_ofList,
      String.toList_ofList]
    constructor
    · rintro ⟨rfl, rfl⟩
      obtain ⟨hcolumn, hmem⟩ := splitOnce_eq_some_iff.1 hcut
      refine ⟨?_, hmem⟩
      rw [← String.toList_inj, hcolumn]
      simp
    · rintro ⟨hcolumn, hmem⟩
      have hcut' : splitOnce '.' f.column.toList = some (kind.toList, name.toList) := by
        rw [hcolumn]
        simpa using splitOnce_append hmem name.toList
      rw [hcut] at hcut'
      cases hcut'
      exact ⟨rfl, rfl⟩
  · next hcut => exact absurd h (splitOnce_eq_none_iff.1 hcut)

/-- The column begins with the name of the kind and a point. -/
def Filter.HasKind (f : Filter) (kind : FilterKind) : Prop :=
  ∃ name, f.column = kind.name ++ "." ++ name

theorem hasKind_iff {f : Filter} {kind : FilterKind} :
    f.HasKind kind ↔ (kind.name ++ ".").toList <+: f.column.toList := by
  constructor
  · rintro ⟨name, h⟩
    exact ⟨name.toList, by rw [h]; simp⟩
  · rintro ⟨name, h⟩
    refine ⟨String.ofList name, ?_⟩
    rw [← String.toList_inj, ← h]
    simp

instance (f : Filter) (kind : FilterKind) : Decidable (f.HasKind kind) :=
  decidable_of_iff _ hasKind_iff.symm

theorem split_of_hasKind {f : Filter} {kind : FilterKind} {name : String}
    (h : f.column = kind.name ++ "." ++ name) : f.split = (kind.name, name) := by
  have hpoint : '.' ∈ f.column.toList := by
    rw [h]
    simp
  exact (split_eq_iff hpoint).2 ⟨h, point_not_mem_name kind⟩

/-- Besides the columns of a kind, the name of the kind alone is taken for one. -/
theorem split_fst_eq_iff {f : Filter} {kind : FilterKind} :
    f.split.1 = kind.name ↔ f.HasKind kind ∨ f.column = kind.name := by
  constructor
  · intro h
    by_cases hpoint : '.' ∈ f.column.toList
    · have hcut := (split_eq_iff hpoint).1 (Prod.ext h rfl : f.split = (_, f.split.2))
      exact .inl ⟨f.split.2, hcut.1⟩
    · rw [split_of_not_mem hpoint] at h
      exact .inr h
  · rintro (⟨name, h⟩ | h)
    · rw [split_of_hasKind h]
    · have hpoint : '.' ∉ f.column.toList := by
        rw [h]
        exact point_not_mem_name kind
      rw [split_of_not_mem hpoint]
      exact h

theorem test?_of_ne {f : Filter} {kind : FilterKind} (toolOp : String → String)
    (h : f.split.1 ≠ kind.name) : f.test? kind toolOp = none := by
  unfold Filter.test?
  rw [if_neg h]

theorem test?_of_eq {f : Filter} {kind : FilterKind} (toolOp : String → String)
    (h : f.split.1 = kind.name) : f.test? kind toolOp =
      f.conditions.head?.map fun c => ⟨f.split.2, toolOp c.op, renderValue c.value⟩ := by
  unfold Filter.test?
  rw [if_pos h]

/-- The filters that ask for a comparison of a kind. -/
theorem test?_eq_none_iff {f : Filter} {kind : FilterKind} {toolOp : String → String} :
    f.test? kind toolOp = none ↔ f.conditions = [] ∨ ¬(f.HasKind kind ∨ f.column = kind.name) := by
  rw [← split_fst_eq_iff]
  by_cases h : f.split.1 = kind.name
  · rw [test?_of_eq toolOp h, Option.map_eq_none_iff, List.head?_eq_none_iff]
    simp [h]
  · simp [test?_of_ne toolOp h, h]

end StoreGateway.Query
