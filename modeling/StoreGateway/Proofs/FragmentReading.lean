import StoreGateway.Proofs.Fragments
import StoreGateway.Proofs.Numerals

/-!
# A fragment says what its spec says

The options of a fragment are read back without a look at the spec: lists are cut at their commas,
and comparisons at the first two of their colons. If the names, the operators and the values leave
these signs alone, what is read is what the spec says.

* `pieces`, `Test.ofText?`, `tests?`: reads the value of an option;
* `Filter.Asks`, `Compared`: the comparisons that filters ask for, in order;
* `secondsBound`: the comparison that a bound of time asks for;
* `Separable`: names, operators and values leave the signs alone;
* `fragment_tells_spec`: the main statement.
-/

namespace StoreGateway.Query

open StoreGateway.Command StoreGateway.Text

/-! ## Reading -/

/-- The pieces of an option's value; an option that is absent has none. -/
def pieces : Option String → List String
  | none => []
  | some text => (splitOn ',' text.toList).map String.ofList

/-- A comparison is cut at its first two colons, so its value may hold others. -/
def Test.ofText? (text : String) : Option Test :=
  (splitOnce ':' text.toList).bind fun p =>
    (splitOnce ':' p.2).map fun q => ⟨String.ofList p.1, String.ofList q.1, String.ofList q.2⟩

def tests? (value : Option String) : Option (List Test) :=
  (pieces value).mapM Test.ofText?

theorem pieces_joined? {ts : List String} (h : ∀ t ∈ ts, ',' ∉ t.toList) :
    pieces (joined? ts) = ts := by
  cases ts with
  | nil => rfl
  | cons t ts =>
    have hcut : splitOn ',' (joinWith ',' ((t :: ts).map String.toList)) =
        (t :: ts).map String.toList := by
      refine splitOn_joinWith (by simp) fun p hp => ?_
      obtain ⟨u, hu, rfl⟩ := List.mem_map.1 hp
      exact h u hu
    show (splitOn ',' (commaJoin (t :: ts)).toList).map String.ofList = t :: ts
    rw [commaJoin, String.toList_ofList, hcut, List.map_map]
    simp [Function.comp_def]

theorem Test.ofText?_text {t : Test} (hname : ':' ∉ t.name.toList) (hop : ':' ∉ t.op.toList) :
    Test.ofText? t.text = some t := by
  have htext : t.text.toList = t.name.toList ++ ':' :: (t.op.toList ++ ':' :: t.value.toList) := by
    simp [Test.text]
  unfold Test.ofText?
  rw [htext, splitOnce_append hname]
  simp [splitOnce_append hop]

/-- A text that neither ends a comparison nor a part of one. -/
def Plain (text : String) : Prop :=
  ',' ∉ text.toList ∧ ':' ∉ text.toList

instance (text : String) : Decidable (Plain text) :=
  inferInstanceAs (Decidable (_ ∧ _))

/-- A comparison whose parts are told apart in a list of comparisons. -/
def Test.Readable (t : Test) : Prop :=
  Plain t.name ∧ Plain t.op ∧ ',' ∉ t.value.toList

theorem Test.Readable.comma_not_mem_text {t : Test} (h : t.Readable) : ',' ∉ t.text.toList := by
  obtain ⟨hname, hop, hvalue⟩ := h
  simp [Test.text, hname.1, hop.1, hvalue]

theorem tests?_joined? {ts : List Test} (h : ∀ t ∈ ts, t.Readable) :
    tests? (joined? (ts.map Test.text)) = some ts := by
  have htexts : ∀ text ∈ ts.map Test.text, ',' ∉ text.toList := by
    intro text htext
    obtain ⟨t, ht, rfl⟩ := List.mem_map.1 htext
    exact (h t ht).comma_not_mem_text
  unfold tests?
  rw [pieces_joined? htexts]
  induction ts with
  | nil => rfl
  | cons t ts ih =>
    obtain ⟨hname, hop, -⟩ := h t List.mem_cons_self
    have hts := ih (fun u hu => h u (List.mem_cons_of_mem _ hu))
      fun text htext => htexts text (List.mem_cons_of_mem _ htext)
    rw [List.map_cons, List.mapM_cons, Test.ofText?_text hname.2 hop.2, hts]
    rfl

/-! ## What filters ask for -/

/-- A match by regular expression becomes an equality, and every other operator its negation. -/
def StringOp (op toolOp : String) : Prop :=
  op = "$regex" ∧ toolOp = "eq" ∨ op ≠ "$regex" ∧ toolOp = "neq"

/-- An operator loses one marker in front, if it has one. -/
def IntegerOp (op toolOp : String) : Prop :=
  op = "$" ++ toolOp ∨ (∀ rest, op ≠ "$" ++ rest) ∧ toolOp = op

/-- A filter on a column of a kind asks for the comparison in its first condition. -/
inductive Filter.Asks (kind : FilterKind) (Op : String → String → Prop) : Filter → Test → Prop
  | first {name op toolOp : String} {value : Json} {more : List Condition} (h : Op op toolOp) :
    Asks kind Op ⟨kind.name ++ "." ++ name, ⟨op, value⟩ :: more⟩ ⟨name, toolOp, renderValue value⟩

/-- The comparisons that filters ask for, in order; the other filters say nothing. -/
inductive Compared (kind : FilterKind) (Op : String → String → Prop) : List Filter → List Test → Prop
  | nil : Compared kind Op [] []
  | asked {f : Filter} {t : Test} {fs : List Filter} {ts : List Test} (h : f.Asks kind Op t)
    (rest : Compared kind Op fs ts) : Compared kind Op (f :: fs) (t :: ts)
  | silent {f : Filter} {fs : List Filter} {ts : List Test} (h : ∀ t, ¬f.Asks kind Op t)
    (rest : Compared kind Op fs ts) : Compared kind Op (f :: fs) ts

theorem stringOp_iff (op toolOp : String) : StringOp op toolOp ↔ stringOp op = toolOp := by
  unfold StringOp stringOp
  by_cases h : op = "$regex" <;> simp [h, eq_comm]

theorem integerOp_iff (op toolOp : String) : IntegerOp op toolOp ↔ integerOp op = toolOp := by
  have hmarked : ∀ rest : String, op = "$" ++ rest ↔ op.toList = '$' :: rest.toList := by
    intro rest
    rw [← String.toList_inj]
    simp
  unfold IntegerOp integerOp
  split
  · next cs hcs =>
    constructor
    · rintro (h | ⟨h, -⟩)
      · rw [hmarked, hcs] at h
        rw [(List.cons.inj h).2, String.ofList_toList]
      · refine absurd ((hmarked (String.ofList cs)).2 ?_) (h _)
        rw [hcs, String.toList_ofList]
    · rintro rfl
      refine .inl ((hmarked _).2 ?_)
      rw [hcs, String.toList_ofList]
  · next hcs =>
    have hplain : ∀ rest, op ≠ "$" ++ rest := fun rest h => hcs _ ((hmarked rest).1 h)
    constructor
    · rintro (h | ⟨-, h⟩)
      · exact absurd h (hplain _)
      · exact h.symm
    · exact fun h => .inr ⟨hplain, h.symm⟩

section

variable {kind : FilterKind} {Op : String → String → Prop} {toolOp : String → String}

theorem test?_eq_some_iff (hOp : ∀ op o, Op op o ↔ toolOp op = o) {f : Filter}
    (hpoint : '.' ∈ f.column.toList) {t : Test} :
    f.test? kind toolOp = some t ↔ f.Asks kind Op t := by
  constructor
  · intro h
    have hkind : f.split.1 = kind.name := Decidable.byContradiction fun hne => by
      rw [test?_of_ne toolOp hne] at h
      cases h
    obtain ⟨hcolumn, -⟩ := (split_eq_iff hpoint).1 (Prod.ext hkind rfl : f.split = (_, f.split.2))
    rw [test?_of_eq toolOp hkind] at h
    obtain ⟨c, hc, rfl⟩ := Option.map_eq_some_iff.1 h
    obtain ⟨column, conditions⟩ := f
    obtain ⟨more, hmore⟩ := List.head?_eq_some_iff.1 hc
    generalize hname : Filter.split ⟨column, conditions⟩ = parts at hcolumn
    obtain rfl : column = kind.name ++ "." ++ parts.2 := hcolumn
    obtain rfl : conditions = c :: more := hmore
    exact .first ((hOp _ _).2 rfl)
  · rintro ⟨hop⟩
    rw [test?_of_eq toolOp (by rw [split_of_hasKind rfl]), split_of_hasKind rfl]
    simp [(hOp _ _).1 hop]

theorem compared_filterMap (hOp : ∀ op o, Op op o ↔ toolOp op = o) {fs : List Filter}
    (hpoint : ∀ f ∈ fs, '.' ∈ f.column.toList) :
    Compared kind Op fs (fs.filterMap (Filter.test? kind toolOp)) := by
  induction fs with
  | nil => exact .nil
  | cons f fs ih =>
    have hf := hpoint f List.mem_cons_self
    have hfs := ih fun g hg => hpoint g (List.mem_cons_of_mem _ hg)
    cases ht : f.test? kind toolOp with
    | some t =>
      rw [List.filterMap_cons_some ht]
      exact .asked ((test?_eq_some_iff hOp hf).1 ht) hfs
    | none =>
      rw [List.filterMap_cons_none ht]
      refine .silent (fun t hasks => ?_) hfs
      rw [(test?_eq_some_iff hOp hf).2 hasks] at ht
      cases ht

end

/-! ## Bounds -/

/-- The comparison that a bound in milliseconds asks for, in whole seconds; zero is no bound. -/
def secondsBound (timeColumn op : String) (ms : Option Int) : List Test :=
  (ms.toList.filter (· ≠ 0)).map fun ms => ⟨timeColumn, op, toString (ms.tdiv 1000)⟩

theorem toList_boundTest? (timeColumn op : String) (ms : Option Int) :
    (boundTest? timeColumn op ms).toList = secondsBound timeColumn op ms := by
  cases ms with
  | none => rfl
  | some ms =>
    by_cases h : ms = 0
    · simp [boundTest?, secondsBound, h]
    · simp [boundTest?, secondsBound, h, ofList_signed]

theorem comma_not_mem_toString (i : Int) : ',' ∉ (toString i).toList := by
  rw [← ofList_signed, String.toList_ofList]
  have hdigits : ∀ n, ',' ∉ digits n := fun n h => absurd (isDigit_of_mem_digits h) (by decide)
  cases i with
  | ofNat n => exact hdigits n
  | negSucc n =>
    rintro (_ | ⟨_, h⟩)
    exact hdigits (n + 1) h

/-! ## The whole fragment -/

/-- Names, operators and values leave alone the signs that part them. -/
structure Separable (timeColumn : String) (o : Options) : Prop where
  dims : ∀ d ∈ o.dims.getD [], ',' ∉ d.toList
  cols : ∀ c ∈ o.cols, ',' ∉ c.toList
  time : Plain timeColumn
  points : ∀ f ∈ o.filters, '.' ∈ f.column.toList
  names : ∀ f ∈ o.filters, Plain f.split.2
  conditions : ∀ f ∈ o.filters, ∀ c ∈ f.conditions.head?,
    Plain c.op ∧ ',' ∉ (renderValue c.value).toList

/-- What an argument list says about a query is what the options of the query say. -/
structure Tells (as : Arguments) (timeColumn : String) (o : Options) : Prop where
  /-- Only these options stand in the list, each of them once at most. -/
  flags : (as.map Argument.flag).Sublist (fragmentOptions.map Opt.flag)
  dims : pieces (as.valueOf? .group) = o.dims.getD []
  no_dims : as.valueOf? .group = none ↔ o.dims = none ∨ o.dims = some []
  cols : o.dims ≠ none → pieces (as.valueOf? .int) = o.cols
  no_cols : as.valueOf? .int = none ↔ o.dims = none ∨ o.cols = []
  strings : ∃ ts, Compared .string StringOp o.filters ts ∧
    tests? (as.valueOf? .strFilter) = some ts ∧ (as.valueOf? .strFilter = none ↔ ts = [])
  /-- The two bounds stand in front of the comparisons of the filters. -/
  integers : ∃ ts us, Compared .integer IntegerOp o.filters ts ∧
    us = secondsBound timeColumn "gt" o.startMs ++ secondsBound timeColumn "lt" o.endMs ++ ts ∧
    tests? (as.valueOf? .intFilter) = some us ∧ (as.valueOf? .intFilter = none ↔ us = [])
  time : as.valueOf? .timeCol = some timeColumn
  limit : as.valueOf? .limit = (o.limit.filter (0 < ·)).map toString

section

variable {timeColumn : String} {o : Options}

theorem Separable.readable (h : Separable timeColumn o) {kind : FilterKind}
    {toolOp : String → String} (hop : ∀ op, Plain op → Plain (toolOp op)) {t : Test}
    (ht : t ∈ o.filters.filterMap (Filter.test? kind toolOp)) : t.Readable := by
  obtain ⟨f, hf, htest⟩ := List.mem_filterMap.1 ht
  have hkind : f.split.1 = kind.name := Decidable.byContradiction fun hne => by
    rw [test?_of_ne toolOp hne] at htest
    cases htest
  rw [test?_of_eq toolOp hkind] at htest
  obtain ⟨c, hc, rfl⟩ := Option.map_eq_some_iff.1 htest
  obtain ⟨hplain, hvalue⟩ := h.conditions f hf c hc
  exact ⟨h.names f hf, hop _ hplain, hvalue⟩

theorem Separable.readable_string (h : Separable timeColumn o) :
    ∀ t ∈ stringTests o, t.Readable := by
  refine fun t ht => h.readable (fun op _ => ?_) ht
  unfold stringOp
  split <;> decide

theorem Separable.readable_integer (h : Separable timeColumn o) :
    ∀ t ∈ integerTests o, t.Readable := by
  refine fun t ht => h.readable (fun op hplain => ?_) ht
  unfold integerOp
  split
  · next cs hcs =>
    unfold Plain at hplain ⊢
    rw [String.toList_ofList]
    rw [hcs] at hplain
    exact ⟨fun hm => hplain.1 (List.mem_cons_of_mem _ hm),
      fun hm => hplain.2 (List.mem_cons_of_mem _ hm)⟩
  · exact hplain

theorem readable_secondsBound (htime : Plain timeColumn) {op : String} (hop : Plain op)
    (ms : Option Int) : ∀ t ∈ secondsBound timeColumn op ms, t.Readable := by
  intro t ht
  obtain ⟨ms, -, rfl⟩ := List.mem_map.1 ht
  exact ⟨htime, hop, comma_not_mem_toString _⟩

theorem Separable.readable_bounds (h : Separable timeColumn o) :
    ∀ t ∈ boundTests timeColumn o, t.Readable := by
  intro t ht
  unfold boundTests at ht
  rw [toList_boundTest?, toList_boundTest?] at ht
  rcases List.mem_append.1 ht with ht | ht
  · exact readable_secondsBound h.time (by decide) _ t ht
  · exact readable_secondsBound h.time (by decide) _ t ht

end

/--
**A fragment says what its spec says.** Nothing of the spec is lost in it and nothing is added,
whatever else names, operators and values hold.
-/
theorem fragment_tells_spec (s : Spec) (o : Options) (hs : s.opts = some o)
    (h : Separable s.timeColumn o) : Tells (fragment s) s.timeColumn o := by
  have hfragment : fragment s = optionArguments s.timeColumn o := by
    unfold fragment
    rw [hs]
  have hcols : ∀ c ∈ o.aggregated, ',' ∉ c.toList := by
    intro c hc
    unfold Options.aggregated at hc
    split at hc
    · exact h.cols c hc
    · cases hc
  have hintegers : ∀ t ∈ boundTests s.timeColumn o ++ integerTests o, t.Readable := by
    intro t ht
    rcases List.mem_append.1 ht with ht | ht
    · exact h.readable_bounds t ht
    · exact h.readable_integer t ht
  rw [hfragment]
  constructor
  case flags => exact flags_optionArguments _ _
  case dims => rw [valueOf?_optionArguments, pieces_joined? h.dims]
  case no_dims =>
    rw [valueOf?_optionArguments, joined?_eq_none_iff]
    cases o.dims <;> simp
  case cols =>
    intro hdims
    rw [valueOf?_optionArguments, pieces_joined? hcols]
    exact if_pos (Option.isSome_iff_ne_none.2 hdims)
  case no_cols =>
    rw [valueOf?_optionArguments, joined?_eq_none_iff]
    unfold Options.aggregated
    cases o.dims <;> simp
  case strings =>
    refine ⟨stringTests o, compared_filterMap stringOp_iff h.points, ?_, ?_⟩
    · rw [valueOf?_optionArguments, tests?_joined? h.readable_string]
    · rw [valueOf?_optionArguments, joined?_eq_none_iff, List.map_eq_nil_iff]
  case integers =>
    refine ⟨integerTests o, boundTests s.timeColumn o ++ integerTests o,
      compared_filterMap integerOp_iff h.points, ?_, ?_, ?_⟩
    · rw [boundTests, toList_boundTest?, toList_boundTest?]
    · rw [valueOf?_optionArguments, tests?_joined? hintegers]
    · rw [valueOf?_optionArguments, joined?_eq_none_iff, List.map_eq_nil_iff]
  case time => rw [valueOf?_optionArguments]
  case limit => rw [valueOf?_optionArguments]

/-- Two bounds, a value with a colon, a name with a point, and filters that say nothing. -/
def mixedOptions : Options where
  dims := some ["host", ""]
  cols := ["latency", "latency"]
  filters := [
    ⟨"string.host", [⟨"$regex", .str "web:8080"⟩, ⟨"$eq", .str "a,b"⟩]⟩,
    .single "float.ratio" "$gt" .null,
    .single "integer.nested.size" "$$lte" (.arr [.str "ten"]),
    ⟨"integer.load", []⟩,
    .single "string." "eq" (.bool true)]
  startMs := some (-1999)
  endMs := some 5000
  timeBucket := none
  limit := some 20

/-- What these options say can be told apart in the fragment, which tells all of it. -/
theorem fragment_tells_mixed_options :
    Separable "time" mixedOptions ∧
      Tells (fragment (.ofOptions .table mixedOptions)) "time" mixedOptions := by
  have h : Separable "time" mixedOptions :=
    ⟨by decide, by decide, by decide, by decide, by decide, by decide⟩
  exact ⟨h, fragment_tells_spec (.ofOptions .table mixedOptions) mixedOptions rfl h⟩

end StoreGateway.Query
