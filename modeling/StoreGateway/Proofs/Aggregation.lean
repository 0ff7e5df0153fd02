import Mathlib.Data.List.Forall2
import StoreGateway.Fields.Order
import StoreGateway.Proofs.Fragments
import StoreGateway.Proofs.Steps

/-!
# Aggregated columns

The columns that the query tool is asked to aggregate and the metrics of the rows that come back are
chosen at different places. The tool is asked for the columns of the spec only if the spec has dims,
but each row has a metric for every column of the spec. Without dims the rows so have metrics that
the tool was never asked for.

* `valueOf?_viewArguments`: the options of a fragment in the arguments of a view;
* `names_metrics`: the metrics of a row;
* `mapM_cases`: every element has its result, or one of them has none;
* `exists_raw_of_mem`: where the rows of a result come from;
* `metrics_of_run`: what the tool is asked for, and the metrics of the rows;
* `metrics_without_aggregation`: rows with a metric that the tool was not asked for.
-/

namespace StoreGateway.Query

open StoreGateway.Command StoreGateway.Text

/-! ## What the tool is asked for -/

/-- The columns that the tool is asked to aggregate. -/
def Spec.aggregated (s : Spec) : List String :=
  (s.opts.map Options.aggregated).getD []

theorem aggregated_of_dims {s : Spec} (h : s.opts.bind Options.dims ≠ none) :
    s.aggregated = s.cols := by
  unfold Spec.aggregated Spec.cols
  cases hopts : s.opts with
  | none => rfl
  | some o =>
    rw [hopts] at h
    exact if_pos (Option.isSome_iff_ne_none.2 h)

theorem aggregated_of_no_dims {s : Spec} (h : s.opts.bind Options.dims = none) :
    s.aggregated = [] := by
  unfold Spec.aggregated
  cases hopts : s.opts with
  | none => rfl
  | some o =>
    rw [hopts] at h
    exact if_neg fun hsome => Option.isSome_iff_ne_none.1 hsome h

theorem valueOf?_fragment_int (s : Spec) : (fragment s).valueOf? .int = joined? s.aggregated := by
  unfold fragment Spec.aggregated
  cases s.opts with
  | none => rfl
  | some o => rw [valueOf?_optionArguments]; rfl

theorem valueOf?_queryArguments (s : Spec) (p : Opt) :
    (queryArguments s).valueOf? p = (fragment s).valueOf? p := by
  unfold queryArguments fragment
  cases s.opts <;> rfl

theorem valueOf?_around (s : Spec) {front back : Arguments} {p : Opt}
    (hfront : front.valueOf? p = none) (hback : back.valueOf? p = none) :
    (front ++ queryArguments s ++ back).valueOf? p = (fragment s).valueOf? p := by
  rw [Arguments.valueOf?_append, Arguments.valueOf?_append, hfront, hback, valueOf?_queryArguments]
  simp

/-- What a view adds to the fragment are none of the fragment's options. -/
theorem valueOf?_viewArguments {table : String} {s : Spec} {as : Arguments}
    (h : viewArguments table s = .ok as) {p : Opt} (hp : p ∈ fragmentOptions) :
    as.valueOf? p = (fragment s).valueOf? p := by
  have hopt : ∀ (q : Opt) (value : String), q ∉ fragmentOptions →
      Arguments.valueOf? [.opt q value] p = none := by
    intro q value hq
    rw [Arguments.valueOf?_cons_opt, if_neg fun e : q = p => hq (e ▸ hp), Arguments.valueOf?_nil]
  have htable : Arguments.valueOf? [.opt .table table] p = none := hopt _ _ (by decide)
  unfold viewArguments at h
  cases hview : s.view with
  | table =>
    rw [hview] at h
    obtain rfl := Except.ok.inj h
    exact valueOf?_around s rfl htable
  | time =>
    rw [hview] at h
    cases hb : s.bucket? with
    | none =>
      rw [hb] at h
      cases h
    | some b =>
      rw [hb] at h
      obtain rfl := Except.ok.inj h
      have hbucket := hopt .timeBucket b (by decide)
      exact valueOf?_around s hbucket htable
  | hist =>
    rw [hview] at h
    obtain rfl := Except.ok.inj h
    have hhist := hopt .op "hist" (by decide)
    exact valueOf?_around s hhist htable
  | samples =>
    rw [hview] at h
    obtain rfl := Except.ok.inj h
    have hfront : Arguments.valueOf? [] p = none := rfl
    exact valueOf?_around s hfront htable

/-! ## What the rows hold -/

theorem names_metrics {raw : Fields Json} {cols : List String} {name : String} :
    name ∈ (metrics raw cols).names ↔ name ∈ cols ∧ name ∉ reservedNames := by
  unfold metrics
  rw [Fields.mem_names_ofList, List.map_map]
  simp [List.contains_eq_mem]

theorem metrics_eq_nil_iff {raw : Fields Json} {cols : List String} :
    metrics raw cols = [] ↔ ∀ name ∈ cols, name ∈ reservedNames := by
  have hnil : metrics raw cols = [] ↔ ∀ name, name ∉ (metrics raw cols).names := by
    rw [← List.eq_nil_iff_forall_not_mem]
    exact List.map_eq_nil_iff.symm
  rw [hnil]
  simp only [names_metrics, not_and, Decidable.not_not]

theorem exists_right_of_mem {α β : Type} {R : α → β → Prop} {as : List α} {bs : List β}
    (h : List.Forall₂ R as bs) {a : α} (ha : a ∈ as) : ∃ b ∈ bs, R a b := by
  induction h with
  | nil => cases ha
  | cons hab hrest ih =>
    rcases List.mem_cons.1 ha with rfl | ha
    · exact ⟨_, List.mem_cons_self, hab⟩
    · obtain ⟨b, hb, hR⟩ := ih ha
      exact ⟨b, List.mem_cons_of_mem _ hb, hR⟩

theorem exists_left_of_mem {α β : Type} {R : α → β → Prop} {as : List α} {bs : List β}
    (h : List.Forall₂ R as bs) {b : β} (hb : b ∈ bs) : ∃ a ∈ as, R a b :=
  exists_right_of_mem h.flip hb

/-- Everything has a result, or something has none. -/
theorem mapM_cases {ε α β : Type} (f : α → Except ε β) (as : List α) :
    (∃ bs, as.mapM f = .ok bs ∧ List.Forall₂ (fun a b => f a = .ok b) as bs) ∨
      ∃ e, as.mapM f = .error e ∧ ∃ a ∈ as, f a = .error e := by
  induction as with
  | nil => exact .inl ⟨[], rfl, .nil⟩
  | cons a as ih =>
    rw [List.mapM_cons]
    cases ha : f a with
    | error e => exact .inr ⟨e, rfl, a, List.mem_cons_self, ha⟩
    | ok b =>
      rcases ih with ⟨bs, hbs, hall⟩ | ⟨e, herror, a', hmem, ha'⟩
      · rw [hbs]
        exact .inl ⟨b :: bs, rfl, .cons ha hall⟩
      · rw [herror]
        exact .inr ⟨e, rfl, a', List.mem_cons_of_mem _ hmem, ha'⟩

theorem exists_of_mem_mapM {ε α β : Type} {f : α → Except ε β} {as : List α} {bs : List β}
    (h : as.mapM f = .ok bs) {b : β} (hb : b ∈ bs) : ∃ a ∈ as, f a = .ok b := by
  rcases mapM_cases f as with ⟨bs', hok, hall⟩ | ⟨e, herror, -⟩
  · rw [hok] at h
    cases h
    exact exists_left_of_mem hall hb
  · rw [herror] at h
    cases h

theorem exists_of_map_ok {ε α β : Type} {f : α → β} {x : Except ε α} {b : β}
    (h : x.map f = .ok b) : ∃ a, x = .ok a ∧ f a = b := by
  cases x with
  | error e => cases h
  | ok a => exact ⟨a, rfl, Except.ok.inj h⟩

theorem exists_raw_of_mem_tableRows {cols dims : List String} {v : Json} {rs : List Row}
    (h : tableRows cols dims v = .ok rs) {r : Row} (hr : r ∈ rs) :
    ∃ raw, r.metrics = metrics raw cols := by
  obtain ⟨raws, -, rfl⟩ := exists_of_map_ok h
  obtain ⟨raw, -, rfl⟩ := List.mem_map.1 hr
  exact ⟨raw, rfl⟩

theorem exists_raw_of_mem_timeRows {cols dims : List String} {v : Json} {rs : List Row}
    (h : timeRows cols dims v = .ok rs) {r : Row} (hr : r ∈ rs) :
    ∃ raw, r.metrics = metrics raw cols := by
  unfold timeRows at h
  split at h
  · cases h
    cases hr
  · obtain ⟨buckets, hbuckets, rfl⟩ := exists_of_map_ok h
    obtain ⟨rows, hrows, hr⟩ := List.mem_flatten.1 hr
    obtain ⟨bucket, -, hbucket⟩ := exists_of_mem_mapM hbuckets hrows
    obtain ⟨raws, -, rfl⟩ := exists_of_map_ok hbucket
    obtain ⟨raw, -, rfl⟩ := List.mem_map.1 hr
    exact ⟨raw, rfl⟩
  · cases h

/-- Each row of the table and time views has the metrics of a raw row. -/
theorem exists_raw_of_mem {view : View} (hview : view = .table ∨ view = .time)
    {cols dims : List String} {v : Json} {rs : List Row}
    (h : Output.ofJson view cols dims v = .ok (.rows rs)) {r : Row} (hr : r ∈ rs) :
    ∃ raw, r.metrics = metrics raw cols := by
  rcases hview with rfl | rfl
  · obtain ⟨rs', hrows, heq⟩ := exists_of_map_ok h
    cases heq
    exact exists_raw_of_mem_tableRows hrows hr
  · obtain ⟨rs', hrows, heq⟩ := exists_of_map_ok h
    cases heq
    exact exists_raw_of_mem_timeRows hrows hr

end StoreGateway.Query

namespace StoreGateway.Gateway

open Catalog Command Query Text

/-- A query calls the tool with the arguments of its view. -/
theorem viewArguments_of_call {g : Gateway} {now number : Nat} {caller : Ticket} {table : TableRef}
    {s : Spec} {unweight : Bool} {c : Call}
    (h : .call number c ∈ (g.step now (.request caller (.run table s unweight))).2) :
    viewArguments table.name s = .ok c.arguments := by
  change .call number c ∈ (g.request now caller (.run table s unweight)).2 at h
  unfold request at h
  dsimp only at h
  split at h
  · next as has =>
    rw [callTool_effects, List.mem_singleton] at h
    cases h
    by_cases hname : table.name = ""
    · rw [require_of_eq hname] at has
      cases has
    · rw [require_of_ne hname] at has
      exact has
  · cases List.mem_singleton.1 h

/-- The reply to a query is told to its caller as rows of the view. -/
theorem rows_of_answer {g : Gateway} {now number : Nat} {caller : Ticket} {s : Spec} {reply : Json}
    {rs : List Row} (hcall : g.purpose? number = some (.run caller s))
    (h : .answer caller (.ok (.output (.rows rs))) ∈ (g.step now (.reply number (.ok reply))).2) :
    Output.ofJson s.view s.cols s.dims reply = .ok (.rows rs) := by
  rw [step_reply hcall] at h
  obtain hresult : _ = queryResult s (.ok reply) := (Effect.answer.inj (List.mem_singleton.1 h)).2
  obtain ⟨o, ho, heq⟩ := exists_of_map_ok hresult.symm
  cases heq
  cases hrows : Output.ofJson s.view s.cols s.dims reply with
  | error e =>
    rw [hrows] at ho
    cases ho
  | ok o =>
    rw [hrows] at ho
    rw [Except.ok.inj ho]

section

variable {g g' : Gateway} {now now' number : Nat} {caller : Ticket} {table : TableRef} {s : Spec}
  {unweight : Bool} {c : Call} {reply : Json} {rs : List Row}

/--
**The tool is asked for the metrics, but for a spec without dims.** When the table or time view of a
spec is queried and the reply is told as rows, each row has a metric for each column of the spec but
the reserved ones. If the tool was asked to aggregate, it was for just these columns. If it was not,
there are no metrics exactly if the spec has dims or no columns that can be metrics.
-/
theorem metrics_of_run (hview : s.view = .table ∨ s.view = .time)
    (hcall : .call number c ∈ (g.step now (.request caller (.run table s unweight))).2)
    (hpurpose : g'.purpose? number = some (.run caller s))
    (hanswer : .answer caller (.ok (.output (.rows rs))) ∈
      (g'.step now' (.reply number (.ok reply))).2) :
    (∀ r ∈ rs, r.metrics.Ascending ∧
      ∀ name, name ∈ r.metrics.names ↔ name ∈ s.cols ∧ name ∉ reservedNames) ∧
    (∀ text, c.arguments.valueOf? .int = some text → text = commaJoin s.cols) ∧
    (c.arguments.valueOf? .int = none → ∀ r ∈ rs, r.metrics = [] ↔
      s.opts.bind Options.dims ≠ none ∨ ∀ name ∈ s.cols, name ∈ reservedNames) := by
  have hrows := rows_of_answer hpurpose hanswer
  have hint : c.arguments.valueOf? .int = joined? s.aggregated := by
    rw [valueOf?_viewArguments (viewArguments_of_call hcall) (by decide), valueOf?_fragment_int]
  refine ⟨fun r hr => ?_, fun text htext => ?_, fun hnone r hr => ?_⟩
  · obtain ⟨raw, hraw⟩ := exists_raw_of_mem hview hrows hr
    rw [hraw]
    exact ⟨Fields.ascending_ofList _, fun name => names_metrics⟩
  · rw [hint, joined?_eq_some_iff] at htext
    obtain ⟨hne, rfl⟩ := htext
    rw [aggregated_of_dims fun hdims => hne (aggregated_of_no_dims hdims)]
  · obtain ⟨raw, hraw⟩ := exists_raw_of_mem hview hrows hr
    rw [hraw, metrics_eq_nil_iff]
    refine ⟨.inr, fun h => h.elim (fun hdims => ?_) id⟩
    -- With dims nothing is asked for only if there are no columns.
    rw [hint, joined?_eq_none_iff, aggregated_of_dims hdims] at hnone
    rw [hnone]
    exact fun name hname => absurd hname List.not_mem_nil

end

/--
With dims the tool is asked to aggregate all the columns, and the row has a metric for each whose
name is not reserved, here without a number in the raw row.
-/
theorem metrics_of_one_row :
    let s : Spec := .ofOptions .table ⟨some ["host"], ["latency", "_id"], [], none, none, none, none⟩
    let g : Gateway := .empty 0 0
    let g' := (g.step 0 (.request 7 (.run (.bare "t") s false))).1
    let c : Call := ⟨.query, [.switch .print, .switch .json, .switch .laq, .opt .group "host",
      .opt .int "latency,_id", .opt .timeCol "time", .opt .table "t"], []⟩
    let r : Row := ⟨[("host", .str "a")], [("latency", .nan)], .null⟩
    .call 0 c ∈ (g.step 0 (.request 7 (.run (.bare "t") s false))).2 ∧
      g'.purpose? 0 = some (.run 7 s) ∧
      .answer 7 (.ok (.output (.rows [r]))) ∈
        (g'.step 5 (.reply 0 (.ok (.arr [.obj [("host", .str "a")]])))).2 ∧
      (∀ text, c.arguments.valueOf? .int = some text → text = commaJoin s.cols) ∧
      ∀ name, name ∈ r.metrics.names ↔ name ∈ s.cols ∧ name ∉ reservedNames := by
  intro s g g' c r
  have hcall : .call 0 c ∈ (g.step 0 (.request 7 (.run (.bare "t") s false))).2 :=
    List.mem_singleton.2 rfl
  have hpurpose : g'.purpose? 0 = some (.run 7 s) := rfl
  have hanswer : .answer 7 (.ok (.output (.rows [r]))) ∈
      (g'.step 5 (.reply 0 (.ok (.arr [.obj [("host", .str "a")]])))).2 := List.mem_singleton.2 rfl
  obtain ⟨hmetrics, htext, -⟩ := metrics_of_run (.inl rfl) hcall hpurpose hanswer
  exact ⟨hcall, hpurpose, hanswer, htext, (hmetrics r List.mem_cons_self).2⟩

/--
Without dims the tool is not asked to aggregate, and still the row has a metric: the raw field that
happens to have the name of the column, or not a number when there is none.
-/
theorem metrics_without_aggregation :
    let s : Spec := .ofOptions .table ⟨none, ["latency"], [], none, none, none, none⟩
    let as : Arguments := [.switch .print, .switch .json, .switch .laq, .opt .timeCol "time",
      .opt .table "t"]
    let r : Row := ⟨[], [("latency", .nan)], .null⟩
    viewArguments "t" s = .ok as ∧ as.valueOf? .int = none ∧
      queryResult s (.ok (.arr [.obj []])) = .ok (.output (.rows [r])) ∧ r.metrics ≠ [] :=
  ⟨rfl, rfl, rfl, by decide⟩

end StoreGateway.Gateway
