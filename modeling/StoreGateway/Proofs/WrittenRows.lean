import StoreGateway.Proofs.ReadValues
import StoreGateway.Proofs.RowWise
import StoreGateway.Proofs.SpecReading

/-!
# Written rows are not mistaken

The metrics of a row are written among its other members, between the group and the row count. No
metric has the name of one of these, so no member hides another one, and a reader who keeps the last
value of each name finds the whole row.

* `RawIn`, `ValueFrom`, `RowFrom`: the raw row that a row comes from, and where its values come from;
* `exists_rowFrom`: every row of every view comes from a raw row;
* `Apart`: the names of a written row;
* `Shown`, `Recovered`: what a reader finds;
* `readWith_obj`: the object that is read from the text of members in any order;
* `rows_written_apart`: the main statement.
-/

namespace StoreGateway.Query

open StoreGateway.Number

/-! ## Where rows come from -/

/-- A raw row of an output, which is an array or has arrays as buckets. -/
inductive RawIn : Json → Fields Json → Prop where
  | row {vs : List Json} {raw : Fields Json} (h : .obj raw ∈ vs) : RawIn (.arr vs) raw
  | bucket {buckets : Fields Json} {name : String} {vs : List Json} {raw : Fields Json}
      (hbucket : (name, .arr vs) ∈ buckets) (h : .obj raw ∈ vs) : RawIn (.obj buckets) raw

/-- A value stands in a raw row, or in an array there, or has no parts. -/
inductive ValueFrom (raw : Fields Json) : Json → Prop where
  | field {f : String × Json} (h : f ∈ raw) : ValueFrom raw f.2
  | label {name : String} {labels : List Json} {label : Json} (h : (name, .arr labels) ∈ raw)
      (hlabel : label ∈ labels) : ValueFrom raw label
  | scalar {v : Json} (h : v.depth = 0) : ValueFrom raw v

/-- A row has the metrics of a raw row, or none, and its other values come from there. -/
structure RowFrom (cols : List String) (raw : Fields Json) (r : Row) : Prop where
  metrics : r.metrics = Query.metrics raw cols ∨ r.metrics = []
  id_ascending : r.id.Ascending
  id : ∀ f ∈ r.id, ValueFrom raw f.2
  count : ValueFrom raw r.count

theorem depth_ofBinary64 (x : Binary64) : (Json.ofBinary64 x).depth = 0 := by
  cases x <;> rfl

theorem depth_ofInt (i : Int) : (Json.ofInt i).depth = 0 := by
  unfold Json.ofInt
  split
  · rfl
  · split <;> rfl

theorem mem_of_mem_project {raw : Fields Json} {dims : List String} {f : String × Json}
    (h : f ∈ project raw dims) : f ∈ raw := by
  obtain ⟨d, -, hd⟩ := List.mem_filterMap.1 (Fields.mem_of_mem_ofList h)
  obtain ⟨v, hv, rfl⟩ := Option.map_eq_some_iff.1 hd
  exact Fields.mem_of_get? hv

theorem rowFrom_tableRow (cols dims : List String) (raw : Fields Json) :
    RowFrom cols raw (tableRow cols dims raw) where
  metrics := .inl rfl
  id_ascending := Fields.ascending_ofList _
  id f hf := .field (mem_of_mem_project hf)
  count := by
    show ValueFrom raw ((raw.get? rawCount).getD .null)
    cases hcount : raw.get? rawCount with
    | none => exact .scalar rfl
    | some v => exact .field (Fields.mem_of_get? hcount)

theorem RowFrom.stamp {cols : List String} {raw : Fields Json} {r : Row} (h : RowFrom cols raw r)
    (time : Option Int) :
    RowFrom cols raw { r with id := r.id.insert bucketName (time.elim .null Json.ofInt) } where
  metrics := h.metrics
  id_ascending := Fields.ascending_insert h.id_ascending _ _
  id f hf := by
    rcases Fields.mem_insert hf with rfl | hf
    · cases time with
      | none => exact .scalar rfl
      | some n => exact .scalar (depth_ofInt n)
    · exact h.id f hf
  count := h.count

theorem rowFrom_labelRows {col : String} (cols dims : List String) {raw : Fields Json} {r : Row}
    (h : r ∈ labelRows col dims raw) : RowFrom cols raw r := by
  unfold labelRows at h
  split at h
  · next labels hlabels =>
    obtain ⟨label, hlabel, rfl⟩ := List.mem_map.1 h
    refine ⟨.inr rfl, Fields.ascending_insert (Fields.ascending_ofList _) _ _, fun f hf => ?_,
      .scalar (depth_ofBinary64 _)⟩
    rcases Fields.mem_insert hf with rfl | hf
    · exact .label (Fields.mem_of_get? hlabels) hlabel
    · exact .field (mem_of_mem_project hf)
  · cases h

theorem obj_mem_of_rowObjects {view : View} {v : Json} {raws : List (Fields Json)}
    (h : rowObjects view v = .ok raws) {raw : Fields Json} (hraw : raw ∈ raws) :
    ∃ vs, v = .arr vs ∧ .obj raw ∈ vs := by
  rcases rowObjects_cases view v with ⟨-, hok⟩ | ⟨raws', rfl, hok⟩ | ⟨e, herror, -⟩
  · rw [hok] at h
    cases h
    cases hraw
  · rw [hok] at h
    cases h
    exact ⟨_, rfl, List.mem_map_of_mem hraw⟩
  · rw [herror] at h
    cases h

theorem rawIn_of_rowObjects {view : View} {v : Json} {raws : List (Fields Json)}
    (h : rowObjects view v = .ok raws) {raw : Fields Json} (hraw : raw ∈ raws) : RawIn v raw := by
  obtain ⟨vs, rfl, hmem⟩ := obj_mem_of_rowObjects h hraw
  exact .row hmem

section

variable {cols dims : List String} {v : Json} {rs : List Row} {r : Row}

theorem exists_rowFrom_tableRows (h : tableRows cols dims v = .ok rs) (hr : r ∈ rs) :
    ∃ raw, RawIn v raw ∧ RowFrom cols raw r := by
  obtain ⟨raws, hraws, rfl⟩ := exists_of_map_ok h
  obtain ⟨raw, hraw, rfl⟩ := List.mem_map.1 hr
  exact ⟨raw, rawIn_of_rowObjects hraws hraw, rowFrom_tableRow cols dims raw⟩

theorem exists_rowFrom_timeRows (h : timeRows cols dims v = .ok rs) (hr : r ∈ rs) :
    ∃ raw, RawIn v raw ∧ RowFrom cols raw r := by
  unfold timeRows at h
  split at h
  · cases h
    cases hr
  · next buckets =>
    obtain ⟨parts, hparts, rfl⟩ := exists_of_map_ok h
    obtain ⟨part, hpart, hr⟩ := List.mem_flatten.1 hr
    obtain ⟨b, hb, hrows⟩ := exists_of_mem_mapM hparts hpart
    obtain ⟨raws, hraws, rfl⟩ := exists_of_map_ok hrows
    obtain ⟨raw, hraw, rfl⟩ := List.mem_map.1 hr
    obtain ⟨vs, hvs, hmem⟩ := obj_mem_of_rowObjects hraws hraw
    obtain ⟨⟨name, w⟩, hbucket, rfl⟩ := List.mem_map.1 ((List.mergeSort_perm _ _).mem_iff.1 hb)
    obtain rfl : w = .arr vs := hvs
    exact ⟨raw, .bucket hbucket hmem, (rowFrom_tableRow cols dims raw).stamp _⟩
  · cases h

theorem exists_rowFrom_histRows (h : histRows cols dims v = .ok rs) (hr : r ∈ rs) :
    ∃ raw, RawIn v raw ∧ RowFrom cols raw r := by
  obtain ⟨raws, hraws, rfl⟩ := exists_of_map_ok h
  cases cols with
  | nil => cases hr
  | cons col cols =>
    obtain ⟨raw, hraw, hr⟩ := List.mem_flatMap.1 hr
    exact ⟨raw, rawIn_of_rowObjects hraws hraw, rowFrom_labelRows _ dims hr⟩

/-- Every row of every view comes from a raw row. -/
theorem exists_rowFrom {view : View} (h : Output.ofJson view cols dims v = .ok (.rows rs))
    (hr : r ∈ rs) : ∃ raw, RawIn v raw ∧ RowFrom cols raw r := by
  cases view with
  | table =>
    obtain ⟨rs', hrows, heq⟩ := exists_of_map_ok h
    cases heq
    exact exists_rowFrom_tableRows hrows hr
  | time =>
    obtain ⟨rs', hrows, heq⟩ := exists_of_map_ok h
    cases heq
    exact exists_rowFrom_timeRows hrows hr
  | hist =>
    obtain ⟨rs', hrows, heq⟩ := exists_of_map_ok h
    cases heq
    exact exists_rowFrom_histRows hrows hr
  | samples =>
    obtain ⟨ss, -, heq⟩ := exists_of_map_ok h
    cases heq

end

/-! ## What a reader finds -/

/-- The names of a written row: the group, the metrics as they ascend, and the row count. -/
structure Apart (r : Row) (members : List (String × Json)) : Prop where
  order : members.map (·.1) = "_id" :: (r.metrics.names ++ ["count"])
  ascending : r.metrics.Ascending
  distinct : (members.map (·.1)).Nodup

/-- A double as it is written; null stands for what is not finite. -/
inductive Shown : Binary64 → Json → Prop where
  | finite (x : Finite) : Shown (.finite x) (.float x)
  | infinity (negative : Bool) : Shown (.infinity negative) .null
  | nan : Shown .nan .null

/-- A reader finds the group, every metric and the row count, and nothing else. -/
structure Recovered (r : Row) (kept : Fields Json) : Prop where
  id : kept.get? "_id" = some (.obj r.id)
  metric : ∀ m ∈ r.metrics, ∃ w, kept.get? m.1 = some w ∧ Shown m.2 w
  count : kept.get? "count" = some r.count
  names : ∀ name, name ∈ kept.names ↔ name = "_id" ∨ name ∈ r.metrics.names ∨ name = "count"

theorem shown_ofBinary64 (x : Binary64) : Shown x (Json.ofBinary64 x) := by
  cases x with
  | finite x => exact .finite x
  | infinity negative => exact .infinity negative
  | nan => exact .nan

theorem map_fst_members (r : Row) :
    r.members.map (·.1) = "_id" :: (r.metrics.names ++ ["count"]) := by
  have hmetrics : (r.metrics.mapValues Json.ofBinary64).map (·.1) = r.metrics.names := List.map_map
  rw [Row.members, List.cons_append, List.map_cons, List.map_append, hmetrics]
  rfl

namespace RowFrom

variable {cols : List String} {raw : Fields Json} {r : Row} (h : RowFrom cols raw r)
include h

theorem metrics_ascending : r.metrics.Ascending := by
  rcases h.metrics with hr | hr <;> rw [hr]
  · exact Fields.ascending_ofList _
  · exact List.Pairwise.nil

theorem not_reserved {name : String} (hname : name ∈ r.metrics.names) : name ∉ reservedNames := by
  rcases h.metrics with hr | hr <;> rw [hr] at hname
  · exact (names_metrics.1 hname).2
  · cases hname

/-- No metric has the name of the group or of the row count. -/
theorem apart : Apart r r.members where
  order := map_fst_members r
  ascending := h.metrics_ascending
  distinct := by
    have hid : "_id" ∉ r.metrics.names := fun hmem => h.not_reserved hmem (by decide)
    have hcount : "count" ∉ r.metrics.names := fun hmem => h.not_reserved hmem (by decide)
    rw [map_fst_members, List.nodup_cons, List.nodup_append, List.mem_append, List.mem_singleton]
    refine ⟨fun hmem => hmem.elim hid (by decide), Fields.nodup_names h.metrics_ascending,
      List.nodup_singleton _, fun name hname other hother heq => ?_⟩
    rw [heq, List.mem_singleton.1 hother] at hname
    exact hcount hname

theorem recovered : Recovered r (Fields.ofList r.members) := by
  have hget {m : String × Json} (hm : m ∈ r.members) :
      (Fields.ofList r.members).get? m.1 = some m.2 :=
    Fields.get?_ofList_of_mem h.apart.distinct hm
  refine ⟨hget List.mem_cons_self, fun m hm => ?_, ?_, fun name => ?_⟩
  · have hmem : (m.1, Json.ofBinary64 m.2) ∈ r.members :=
      List.mem_cons_of_mem _ (List.mem_append_left _ (List.mem_map.2 ⟨m, hm, rfl⟩))
    exact ⟨_, hget hmem, shown_ofBinary64 m.2⟩
  · exact hget (List.mem_cons_of_mem _ (List.mem_append_right _ List.mem_cons_self))
  · rw [Fields.mem_names_ofList, map_fst_members, List.mem_cons, List.mem_append, List.mem_singleton]

end RowFrom

/-! ## What is read from the text -/

/-- A value stands somewhere inside another one. -/
structure Within (w v : Json) : Prop where
  depth : w.depth < v.depth
  canonical : v.Canonical → w.Canonical

theorem within_arr {vs : List Json} {w : Json} (h : w ∈ vs) : Within w (.arr vs) where
  depth := Nat.lt_succ_of_le (Json.depthElements_le_iff.1 (Nat.le_refl _) w h)
  canonical hv := Json.canonicalElements_iff.1 hv w h

theorem within_obj {ms : List (String × Json)} {m : String × Json} (h : m ∈ ms) :
    Within m.2 (.obj ms) where
  depth := Nat.lt_succ_of_le (Json.depthMembers_le_iff.1 (Nat.le_refl _) m h)
  canonical hv := Json.canonicalMembers_iff.1 hv.2 m h

theorem Within.trans {u v w : Json} (h : Within u v) (h' : Within v w) : Within u w where
  depth := Nat.lt_trans h.depth h'.depth
  canonical hw := h.canonical (h'.canonical hw)

theorem RawIn.within {v : Json} {raw : Fields Json} (h : RawIn v raw) : Within (.obj raw) v := by
  cases h with
  | row h => exact within_arr h
  | bucket hbucket h => exact (within_arr h).trans (within_obj hbucket)

theorem canonical_of_depth_zero {v : Json} (h : v.depth = 0) : v.Canonical := by
  cases v with
  | arr vs => cases h
  | obj ms => cases h
  | _ => trivial

theorem ValueFrom.within {raw : Fields Json} {w : Json} (h : ValueFrom raw w) :
    Within w (.obj raw) := by
  cases h with
  | field h => exact within_obj h
  | label h hlabel => exact (within_arr hlabel).trans (within_obj h)
  | scalar h => exact ⟨h ▸ Nat.succ_pos _, fun _ => canonical_of_depth_zero h⟩

/-- From the text of members in any order, the last value of each name is read. -/
theorem readWith_obj {double : Spelling → Binary64} {ms : List (String × Json)}
    (hcanonical : ∀ m ∈ ms, m.2.Canonical)
    (hdepth : (Json.obj ms).depth ≤ Json.Document.depthLimit)
    (hdurable : (Json.obj ms).Durable double) :
    Json.readWith double (Json.obj ms).chars = some (.obj (Fields.ofList ms)) := by
  unfold Json.readWith
  rw [Json.readWith_chars hdepth, Json.reread_eq_document _ hdurable]
  show (Json.Document.memberValues? (Json.memberDocuments ms)).map _ = _
  rw [Json.Document.memberValues?_memberDocuments ms (Json.canonicalMembers_iff.2 hcanonical)]
  rfl

theorem RowFrom.members_within {cols : List String} {v : Json} {raw : Fields Json} {r : Row}
    (h : RowFrom cols raw r) (hraw : RawIn v raw) (hv : v.Canonical) :
    ∀ m ∈ r.members, m.2.Canonical ∧ m.2.depth < v.depth := by
  have hwithin := hraw.within
  have hfrom {w : Json} (hw : ValueFrom raw w) : w.Canonical ∧ w.depth < v.depth :=
    ⟨(hw.within.trans hwithin).canonical hv, (hw.within.trans hwithin).depth⟩
  intro m hm
  rcases List.mem_append.1 hm with hm | hm
  · rcases List.mem_cons.1 hm with rfl | hm
    · refine ⟨⟨h.id_ascending, Json.canonicalMembers_iff.2 fun f hf => (hfrom (h.id f hf)).1⟩, ?_⟩
      -- the group is no deeper than the raw row
      have hdepth : Json.depthMembers r.id ≤ Json.depthMembers raw :=
        Json.depthMembers_le_iff.2 fun f hf => Nat.le_of_lt_succ (h.id f hf).within.depth
      exact Nat.lt_of_le_of_lt (Nat.succ_le_succ hdepth) hwithin.depth
    · obtain ⟨x, -, rfl⟩ := List.mem_map.1 hm
      exact hfrom (.scalar (depth_ofBinary64 x.2))
  · rw [List.mem_singleton.1 hm]
    exact hfrom h.count

/--
**Written rows are not mistaken.** In every view the names of a written row are all different: the
group, the metrics as they ascend, and the row count. So a reader that keeps the last value of each
name recovers the row. That is what is read from its text when every number is read as the nearest
double, and in any other way of reading numbers that gives back the doubles of the row.
-/
theorem rows_written_apart {view : View} {cols dims : List String} {v : Json} {rs : List Row}
    (h : Output.ofJson view cols dims v = .ok (.rows rs)) :
    ∀ r ∈ rs, ∃ members, r.toJson = .obj members ∧ Apart r members ∧
      Recovered r (Fields.ofList members) ∧
      (v.WellFormed →
        Json.readWith Spelling.round r.toJson.compact.toList =
          some (.obj (Fields.ofList members)) ∧
        ∀ double, r.toJson.Durable double →
          Json.readWith double r.toJson.compact.toList = some (.obj (Fields.ofList members))) := by
  intro r hr
  obtain ⟨raw, hraw, hrow⟩ := exists_rowFrom h hr
  refine ⟨r.members, rfl, hrow.apart, hrow.recovered, fun hv => ?_⟩
  have hmembers := hrow.members_within hraw hv.canonical
  have hdepth : r.toJson.depth ≤ Json.Document.depthLimit := by
    have hpos := hraw.within.depth
    have hle : Json.depthMembers r.members ≤ v.depth - 1 :=
      Json.depthMembers_le_iff.2 fun m hm => Nat.le_sub_one_of_lt (hmembers m hm).2
    have hshallow := hv.shallow
    show Json.depthMembers r.members + 1 ≤ _
    omega
  have hread (double : Spelling → Binary64) (hdurable : r.toJson.Durable double) :
      Json.readWith double r.toJson.compact.toList = some (.obj (Fields.ofList r.members)) := by
    rw [Json.compact, String.toList_ofList]
    exact readWith_obj (fun m hm => (hmembers m hm).1) hdepth hdurable
  exact ⟨hread _ r.toJson.durable_round, hread⟩

/--
Columns that are named like the group and the row count, or twice, give no member of their own, and
what is no number is written as `null`.
-/
theorem rows_written_apart_reserved_columns :
    let cols := ["a", "_id", "count", "Z", "a"]
    let group : Json := .obj [("host", .str "b")]
    let v : Json := .arr [.obj [("Count", .int 3 (by decide)), ("Z", .str "NaN"), ("_id", .str "7"),
      ("a", .str "1e400"), ("host", .str "b")]]
    let row : Row := ⟨[("host", .str "b")], [("Z", .nan), ("a", .infinity false)], .int 3 (by decide)⟩
    Output.ofJson .table cols ["host"] v = .ok (.rows [row]) ∧ Apart row row.members ∧
      Json.readWith Spelling.round row.toJson.compact.toList =
        some (.obj [("Z", .null), ("_id", group), ("a", .null), ("count", .int 3 (by decide))]) := by
  intro cols group v row
  have hrows : Output.ofJson .table cols ["host"] v = .ok (.rows [row]) := by decide +kernel
  have hv : v.WellFormed :=
    ⟨⟨⟨by decide +kernel, trivial, trivial, trivial, trivial, trivial, trivial⟩, trivial⟩, by decide⟩
  have hkept : Fields.ofList row.members =
      [("Z", .null), ("_id", group), ("a", .null), ("count", .int 3 (by decide))] := by decide +kernel
  obtain ⟨_, ⟨⟩, hapart, -, hread⟩ := rows_written_apart hrows row List.mem_cons_self
  exact ⟨hrows, hapart, hkept ▸ (hread hv).1⟩

end StoreGateway.Query
