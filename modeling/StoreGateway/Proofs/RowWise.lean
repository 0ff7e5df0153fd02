import StoreGateway.Proofs.Aggregation

/-!
# Output is reshaped row by row

Three of the views look at each raw row on its own. If one of the raw rows has the wrong shape there
are no rows at all, and the error tells of the first such row.

* `Misshapen`: output of the wrong shape, and what is said of it;
* `rowObjects_cases`: every output is null, an array of raw rows, or misshapen;
* `RowWise`: a view has the rows of its raw rows one after the other, or fails as a whole;
* `rowWise_map`: that is so whenever the rows of a part are a part of the rows;
* `TableRow`: what a row of the table view takes from its raw row;
* `views_row_wise`: the table, distribution and samples views are row by row.
-/

namespace StoreGateway.Query

/-! ## Shapes -/

/--
Output that is no array, or an array in which something that is no object comes first after raw
rows; and the text that tells of it.
-/
inductive Misshapen (view : View) : Json → String → Prop where
  | notRows {v : Json} (hnull : v ≠ .null) (harr : ∀ vs, v ≠ .arr vs) :
      Misshapen view v
        (view.name ++ " query returned " ++ v.kind ++ " instead of an array of rows")
  | notObject (raws : List (Fields Json)) {v : Json} (hobj : ∀ fields, v ≠ .obj fields)
      (rest : List Json) :
      Misshapen view (.arr (raws.map .obj ++ v :: rest))
        (view.name ++ " query returned a " ++ v.kind ++ " row")

theorem rowObject_of_ne {view : View} {v : Json} (h : ∀ fields, v ≠ .obj fields) :
    rowObject view v = .error (.rowNotObject view v.kind) := by
  unfold rowObject
  split
  · exact absurd rfl (h _)
  · rfl

theorem mapM_rowObject (view : View) (raws : List (Fields Json)) :
    (raws.map Json.obj).mapM (rowObject view) = .ok raws := by
  induction raws with
  | nil => rfl
  | cons raw raws ih =>
    rw [List.map_cons, List.mapM_cons, ih]
    rfl

/-- Raw rows are read up to the first value that is no object. -/
theorem mapM_rowObject_append (view : View) (raws : List (Fields Json)) {v : Json}
    (h : ∀ fields, v ≠ .obj fields) (rest : List Json) :
    (raws.map Json.obj ++ v :: rest).mapM (rowObject view) = .error (.rowNotObject view v.kind) := by
  rw [List.mapM_append, mapM_rowObject, List.mapM_cons, rowObject_of_ne h]
  rfl

theorem exists_first_not_object (vs : List Json) :
    (∃ raws : List (Fields Json), vs = raws.map .obj) ∨
      ∃ (raws : List (Fields Json)) (v : Json) (rest : List Json),
        vs = raws.map .obj ++ v :: rest ∧ ∀ fields, v ≠ .obj fields := by
  induction vs with
  | nil => exact .inl ⟨[], rfl⟩
  | cons v vs ih =>
    by_cases hv : ∃ fields, v = .obj fields
    · obtain ⟨fields, rfl⟩ := hv
      rcases ih with ⟨raws, rfl⟩ | ⟨raws, w, rest, rfl, hw⟩
      · exact .inl ⟨fields :: raws, rfl⟩
      · exact .inr ⟨fields :: raws, w, rest, rfl, hw⟩
    · exact .inr ⟨[], v, vs, rfl, not_exists.1 hv⟩

theorem rowObjects_arr (view : View) (raws : List (Fields Json)) :
    rowObjects view (.arr (raws.map .obj)) = .ok raws :=
  mapM_rowObject view raws

/-- Output is null, an array of raw rows, or misshapen. -/
theorem rowObjects_cases (view : View) (v : Json) :
    (v = .null ∧ rowObjects view v = .ok []) ∨
    (∃ raws : List (Fields Json), v = .arr (raws.map .obj) ∧ rowObjects view v = .ok raws) ∨
    ∃ e, rowObjects view v = .error e ∧ Misshapen view v e.message := by
  have hother : v ≠ .null → (∀ vs, v ≠ .arr vs) →
      rowObjects view v = .error (.notRows view v.kind) := by
    intro hnull harr
    unfold rowObjects
    split
    · exact absurd rfl hnull
    · exact absurd rfl (harr _)
    · rfl
  by_cases hnull : v = .null
  · subst hnull
    exact .inl ⟨rfl, rfl⟩
  by_cases harr : ∃ vs, v = .arr vs
  · obtain ⟨vs, rfl⟩ := harr
    rcases exists_first_not_object vs with ⟨raws, rfl⟩ | ⟨raws, w, rest, rfl, hw⟩
    · exact .inr (.inl ⟨raws, rfl, rowObjects_arr view raws⟩)
    · exact .inr (.inr ⟨_, mapM_rowObject_append view raws hw rest, .notObject raws hw rest⟩)
  · have harr := not_exists.1 harr
    exact .inr (.inr ⟨_, hother hnull harr, .notRows hnull harr⟩)

/-- Misshapen output is neither null nor an array of objects only. -/
theorem Misshapen.not_rows {view : View} {v : Json} {text : String} (h : Misshapen view v text) :
    v ≠ .null ∧ ∀ vs, v = .arr vs → ∃ w ∈ vs, ∀ fields, w ≠ .obj fields := by
  cases h with
  | notRows hnull harr => exact ⟨hnull, fun vs hvs => absurd hvs (harr vs)⟩
  | notObject raws hobj rest =>
    refine ⟨nofun, ?_⟩
    rintro vs ⟨rfl⟩
    exact ⟨_, List.mem_append_right _ List.mem_cons_self, hobj⟩

/-- Raw rows cannot be had exactly from what is neither null nor an array of objects only. -/
theorem rowObjects_eq_error_iff {view : View} {v : Json} :
    (∃ e, rowObjects view v = .error e) ↔
      v ≠ .null ∧ ∀ vs, v = .arr vs → ∃ w ∈ vs, ∀ fields, w ≠ .obj fields := by
  rcases rowObjects_cases view v with ⟨rfl, hok⟩ | ⟨raws, rfl, hok⟩ | ⟨e, herror, hmis⟩
  · rw [hok]
    exact ⟨nofun, fun h => absurd rfl h.1⟩
  · rw [hok]
    refine ⟨nofun, fun h => ?_⟩
    obtain ⟨w, hw, hobj⟩ := h.2 _ rfl
    obtain ⟨fields, -, rfl⟩ := List.mem_map.1 hw
    exact absurd rfl (hobj fields)
  · exact ⟨fun _ => hmis.not_rows, fun _ => ⟨e, herror⟩⟩

/-! ## Row by row -/

/-- A view that has the rows of its raw rows one after the other, or fails as a whole. -/
structure RowWise {α : Type} (view : View) (rows : Json → Except ShapeError (List α)) : Prop where
  null : rows .null = .ok []
  fails_iff : ∀ v, (∃ e, rows v = .error e) ↔
    v ≠ .null ∧ ∀ vs, v = .arr vs → ∃ w ∈ vs, ∀ fields, w ≠ .obj fields
  message : ∀ v e, rows v = .error e → ∃ text, e.toError = .protocol text ∧ Misshapen view v text
  append : ∀ vs ws rs ss, rows (.arr vs) = .ok rs → rows (.arr ws) = .ok ss →
    rows (.arr (vs ++ ws)) = .ok (rs ++ ss)

theorem map_eq_error_iff {ε α β : Type} {f : α → β} {x : Except ε α} {e : ε} :
    x.map f = .error e ↔ x = .error e := by
  cases x with
  | error e' =>
    show Except.error e' = Except.error e ↔ _
    rw [Except.error.injEq, Except.error.injEq]
  | ok a => exact ⟨nofun, nofun⟩

/-- Views of the rows of the parts of an array are views row by row. -/
theorem rowWise_map {α : Type} (view : View) {f : List (Fields Json) → List α} (hnil : f [] = [])
    (happend : ∀ raws more, f (raws ++ more) = f raws ++ f more) :
    RowWise view fun v => (rowObjects view v).map f where
  null := congrArg Except.ok hnil
  fails_iff v := by
    simp only [map_eq_error_iff]
    exact rowObjects_eq_error_iff
  message v e h := by
    rw [map_eq_error_iff] at h
    rcases rowObjects_cases view v with ⟨-, hok⟩ | ⟨raws, -, hok⟩ | ⟨e', herror, hmis⟩
    · rw [hok] at h
      cases h
    · rw [hok] at h
      cases h
    · rw [herror] at h
      cases h
      exact ⟨e.message, rfl, hmis⟩
  append vs ws rs ss hvs hws := by
    obtain ⟨raws, hraws, rfl⟩ := exists_of_map_ok hvs
    obtain ⟨more, hmore, rfl⟩ := exists_of_map_ok hws
    have hall : rowObjects view (.arr (vs ++ ws)) = .ok (raws ++ more) := by
      change vs.mapM (rowObject view) = .ok raws at hraws
      change ws.mapM (rowObject view) = .ok more at hmore
      show (vs ++ ws).mapM (rowObject view) = _
      rw [List.mapM_append, hraws, hmore]
      rfl
    rw [hall, ← happend]
    rfl

theorem rowWise_tableRows (cols dims : List String) : RowWise .table (tableRows cols dims) :=
  rowWise_map .table rfl fun _ _ => List.map_append

/-- Without columns there is nothing to show of the raw rows, but they are still looked at. -/
theorem rowWise_histRows (cols dims : List String) : RowWise .hist (histRows cols dims) := by
  unfold histRows
  cases cols with
  | nil => exact rowWise_map .hist rfl fun _ _ => rfl
  | cons col cols => exact rowWise_map .hist rfl fun _ _ => List.flatMap_append

theorem rowWise_samples : RowWise .samples samples :=
  rowWise_map .samples rfl fun _ _ => List.map_append

/-! ## Rows of the table view -/

theorem get?_project (raw : Fields Json) (dims : List String) (name : String) :
    (project raw dims).get? name = if name ∈ dims then raw.get? name else none := by
  have hvalues : ∀ f ∈ dims.filterMap fun d => (raw.get? d).map fun v => (d, v),
      raw.get? f.1 = some f.2 := by
    intro f hf
    obtain ⟨d, -, hd⟩ := List.mem_filterMap.1 hf
    obtain ⟨v, hv, rfl⟩ := Option.map_eq_some_iff.1 hd
    exact hv
  unfold project
  rw [Fields.get?_ofList raw.get? hvalues]
  by_cases hname : name ∈ dims
  · rw [if_pos hname]
    split
    · rfl
    · next hmem =>
      -- A dim that is not among the fields is not in the raw row.
      cases hget : raw.get? name with
      | none => rfl
      | some v =>
        refine absurd (List.mem_map.2 ⟨(name, v), List.mem_filterMap.2 ⟨name, hname, ?_⟩, rfl⟩) hmem
        rw [hget]
        rfl
  · rw [if_neg hname, if_neg]
    intro hmem
    obtain ⟨f, hf, rfl⟩ := List.mem_map.1 hmem
    obtain ⟨d, hd, hdf⟩ := List.mem_filterMap.1 hf
    obtain ⟨v, -, rfl⟩ := Option.map_eq_some_iff.1 hdf
    exact hname hd

theorem get?_metrics (raw : Fields Json) (cols : List String) (name : String) :
    (metrics raw cols).get? name =
      if name ∈ cols ∧ name ∉ reservedNames then some (lenientFloat (raw.get? name)) else none := by
  have hvalues : ∀ f ∈ (cols.filter fun c => !reservedNames.contains c).map fun c =>
      (c, lenientFloat (raw.get? c)), some (lenientFloat (raw.get? f.1)) = some f.2 := by
    intro f hf
    obtain ⟨c, -, rfl⟩ := List.mem_map.1 hf
    rfl
  have hnames : name ∈ (metrics raw cols).names ↔ _ := names_metrics
  unfold metrics at hnames ⊢
  rw [Fields.mem_names_ofList] at hnames
  rw [Fields.get?_ofList (fun c => some (lenientFloat (raw.get? c))) hvalues]
  by_cases hname : name ∈ cols ∧ name ∉ reservedNames
  · rw [if_pos hname, if_pos (hnames.2 hname)]
  · rw [if_neg hname, if_neg fun hmem => hname (hnames.1 hmem)]

/-- What a row of the table view takes from its raw row. -/
structure TableRow (cols dims : List String) (raw : Fields Json) (r : Row) : Prop where
  id_ascending : r.id.Ascending
  id : ∀ name, r.id.get? name = if name ∈ dims then raw.get? name else none
  metrics_ascending : r.metrics.Ascending
  metrics : ∀ name, r.metrics.get? name =
    if name ∈ cols ∧ name ∉ ["_id", "count"] then some (lenientFloat (raw.get? name)) else none
  count : r.count = (raw.get? "Count").getD .null

theorem tableRow_takes (cols dims : List String) (raw : Fields Json) :
    TableRow cols dims raw (tableRow cols dims raw) where
  id_ascending := Fields.ascending_ofList _
  id := get?_project raw dims
  metrics_ascending := Fields.ascending_ofList _
  metrics := get?_metrics raw cols
  count := rfl

/-- A raw row has only one row. -/
theorem TableRow.unique {cols dims cols' dims' : List String} {raw : Fields Json} {r r' : Row}
    (h : TableRow cols dims raw r) (h' : TableRow cols' dims' raw r') (hcols : ∀ c, c ∈ cols ↔ c ∈ cols')
    (hdims : ∀ d, d ∈ dims ↔ d ∈ dims') : r = r' := by
  have hid : r.id = r'.id := by
    refine Fields.eq_of_get? h.id_ascending h'.id_ascending fun name => ?_
    rw [h.id, h'.id]
    simp only [hdims]
  have hmetrics : r.metrics = r'.metrics := by
    refine Fields.eq_of_get? h.metrics_ascending h'.metrics_ascending fun name => ?_
    rw [h.metrics, h'.metrics]
    simp only [hcols]
  have hcount : r.count = r'.count := h.count.trans h'.count.symm
  cases r
  cases r'
  cases hid
  cases hmetrics
  cases hcount
  rfl

theorem tableRows_arr (cols dims : List String) (raws : List (Fields Json)) :
    tableRows cols dims (.arr (raws.map .obj)) = .ok (raws.map (tableRow cols dims)) := by
  unfold tableRows
  rw [rowObjects_arr]
  rfl

/--
**Three views are row by row.** The table, distribution and samples views fail exactly on output
that is neither null nor an array of objects, with an error that tells the kind of the output or of
the first element that is no object. Otherwise the rows of an array are those of its parts, one after
the other. The table view has one row for each raw row, and it depends on the columns and dims only
as sets.
-/
theorem views_row_wise (cols dims : List String) :
    RowWise .table (tableRows cols dims) ∧ RowWise .hist (histRows cols dims) ∧
    RowWise .samples samples ∧
    (∀ raws : List (Fields Json), ∃ rs, tableRows cols dims (.arr (raws.map .obj)) = .ok rs ∧
      List.Forall₂ (TableRow cols dims) raws rs) ∧
    ∀ cols' dims', (∀ c, c ∈ cols ↔ c ∈ cols') → (∀ d, d ∈ dims ↔ d ∈ dims') →
      tableRows cols' dims' = tableRows cols dims := by
  refine ⟨rowWise_tableRows cols dims, rowWise_histRows cols dims, rowWise_samples, fun raws => ?_, ?_⟩
  · refine ⟨_, tableRows_arr cols dims raws, ?_⟩
    rw [List.forall₂_map_right_iff, List.forall₂_same]
    exact fun raw _ => tableRow_takes cols dims raw
  · intro cols' dims' hcols hdims
    have hrow : tableRow cols' dims' = tableRow cols dims := by
      funext raw
      exact ((tableRow_takes cols dims raw).unique (tableRow_takes cols' dims' raw) hcols hdims).symm
    funext v
    unfold tableRows
    rw [hrow]

end StoreGateway.Query
