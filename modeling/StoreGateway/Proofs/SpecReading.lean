import StoreGateway.Catalog.Table
import StoreGateway.Query.Spec
import StoreGateway.Proofs.ReadValues

/-!
# Specs are read back

A record is read when each of its fields is, so what is read is told field by field. From this a
written spec gives itself, and what is read lies in the range in which it can be written.

* `Spec.ofDocument_eq_some_iff` and its like: a record is read field by field;
* `Spec.InRange`: what the fields of a spec can hold;
* `Spec.inRange_of_ofDocument`: every spec that is read is in range;
* `Spec.ofDocument_toJson`: every spec in range is read back;
* `Spec.ofText_compact`: also from its text, when that is not nested too deep and its doubles are read
  back;
* `TableRef.ofJson_toJson`: every table reference is read back.
-/

namespace StoreGateway.Json

variable {α : Type} {read : Document → Option α} {write : α → Json}

theorem documents_eq_map (vs : List Json) : documents vs = vs.map document := by
  induction vs with
  | nil => rfl
  | cons v vs ih => rw [documents, ih, List.map_cons]

/-- The document of a durable value that is not nested too deep is read from the value's text. -/
theorem documentRead_chars {v : Json} (h : v.depth ≤ Document.depthLimit)
    (hdurable : v.Durable Number.Spelling.scaled) : Document.read v.chars = some v.document := by
  unfold Document.read
  rw [readWith_chars h, reread_eq_document v hdurable]

/-! ## Fields -/

theorem optional_of_ne_null {d : Document} (h : d ≠ .null) :
    optional read (some d) = (read d).map some := by
  unfold optional
  split
  · next heq => exact absurd (Option.some.inj heq) h
  · next heq => cases heq
  · next heq => rw [Option.some.inj heq]

/-- What an optional field holds was read from what stands in it. -/
theorem exists_of_optional {x : Option Document} {a : α} (h : optional read x = some (some a)) :
    ∃ d, x = some d ∧ read d = some a := by
  unfold optional at h
  split at h
  · cases h
  · cases h
  · next d _ =>
    obtain ⟨b, hb, heq⟩ := Option.map_eq_some_iff.1 h
    exact ⟨d, rfl, by rw [hb, Option.some.inj heq]⟩

/-- What a list holds was read from its elements. -/
theorem exists_of_list {d : Document} {as : List α} (h : list read d = some as) {a : α}
    (ha : a ∈ as) : ∃ e, read e = some a := by
  unfold list at h
  split at h
  · obtain ⟨e, -, he⟩ := Document.exists_of_mem_mapM_some h ha
    exact ⟨e, he⟩
  · cases h

theorem mapM_map_eq_some {as : List α} (h : ∀ a ∈ as, read (write a).document = some a) :
    (as.map fun a => (write a).document).mapM read = some as := by
  induction as with
  | nil => rfl
  | cons a as ih =>
    rw [List.map_cons, List.mapM_cons, h a List.mem_cons_self,
      ih fun b hb => h b (List.mem_cons_of_mem a hb)]
    rfl

/-- A list is read back when its elements are. -/
theorem list_arr {as : List α} (h : ∀ a ∈ as, read (write a).document = some a) :
    list read (Json.arr (as.map write)).document = some as := by
  rw [document, documents_eq_map, List.map_map]
  exact mapM_map_eq_some h

end StoreGateway.Json

namespace StoreGateway.Query

open StoreGateway.Json

variable {α : Type} {read : Document → Option α} {write : α → Json}

theorem list_texts (ss : List String) : list text (texts ss).document = some ss :=
  list_arr fun _ _ => rfl

/-- An optional field is read back when what it holds is, if its reader refuses null. -/
theorem optional_orNull {x : Option α} (hnull : read .null = none)
    (h : ∀ a ∈ x, read (write a).document = some a) :
    optional read (some (orNull write x).document) = some x := by
  cases x with
  | none => rfl
  | some a =>
    have hread := h a rfl
    have hne : (write a).document ≠ .null := fun heq => by
      rw [heq, hnull] at hread
      cases hread
    show optional read (some (write a).document) = _
    rw [optional_of_ne_null hne, hread]
    rfl

/-! ## Records, field by field -/

theorem Condition.ofDocument_eq_some_iff {d : Document} {c : Condition} :
    Condition.ofDocument d = some c ↔ ∃ op value,
      Record.fields ["op", "value"] d = some [op, value] ∧ required text op = some c.op ∧
      withDefault Document.value? .null value = some c.value := by
  unfold Condition.ofDocument
  constructor
  · intro h
    split at h
    · next hf =>
      simp only [Option.bind_eq_bind, Option.bind_eq_some_iff, Option.pure_def] at h
      obtain ⟨_, hop, _, hvalue, ⟨⟩⟩ := h
      exact ⟨_, _, hf, hop, hvalue⟩
    · cases h
  · rintro ⟨_, _, hf, hop, hvalue⟩
    simp [hf, hop, hvalue]

theorem Filter.ofDocument_eq_some_iff {d : Document} {f : Filter} :
    Filter.ofDocument d = some f ↔ ∃ column conditions,
      Record.fields ["column", "conditions"] d = some [column, conditions] ∧
      required text column = some f.column ∧
      withDefault (list Condition.ofDocument) [] conditions = some f.conditions := by
  unfold Filter.ofDocument
  constructor
  · intro h
    split at h
    · next hf =>
      simp only [Option.bind_eq_bind, Option.bind_eq_some_iff, Option.pure_def] at h
      obtain ⟨_, hcolumn, _, hconditions, ⟨⟩⟩ := h
      exact ⟨_, _, hf, hcolumn, hconditions⟩
    · cases h
  · rintro ⟨_, _, hf, hcolumn, hconditions⟩
    simp [hf, hcolumn, hconditions]

theorem Options.ofDocument_eq_some_iff {d : Document} {o : Options} :
    Options.ofDocument d = some o ↔ ∃ dims cols filters startMs endMs timeBucket limit,
      Record.fields ["dims", "cols", "filters", "start_ms", "end_ms", "time_bucket", "limit"] d =
        some [dims, cols, filters, startMs, endMs, timeBucket, limit] ∧
      optional (list text) dims = some o.dims ∧
      withDefault (list text) [] cols = some o.cols ∧
      withDefault (list Filter.ofDocument) [] filters = some o.filters ∧
      optional integer startMs = some o.startMs ∧
      optional integer endMs = some o.endMs ∧
      optional bucketText timeBucket = some o.timeBucket ∧
      optional natural limit = some o.limit := by
  unfold Options.ofDocument
  constructor
  · intro h
    split at h
    · next hf =>
      simp only [Option.bind_eq_bind, Option.bind_eq_some_iff, Option.pure_def] at h
      obtain ⟨_, hdims, _, hcols, _, hfilters, _, hstart, _, hend, _, hbucket, _, hlimit, ⟨⟩⟩ := h
      exact ⟨_, _, _, _, _, _, _, hf, hdims, hcols, hfilters, hstart, hend, hbucket, hlimit⟩
    · cases h
  · rintro ⟨_, _, _, _, _, _, _, hf, hdims, hcols, hfilters, hstart, hend, hbucket, hlimit⟩
    simp [hf, hdims, hcols, hfilters, hstart, hend, hbucket, hlimit]

theorem TableMetadata.ofDocument_eq_some_iff {d : Document} {t : TableMetadata} :
    TableMetadata.ofDocument d = some t ↔ ∃ timeCol,
      Record.fields ["time_col"] d = some [timeCol] ∧ optional text timeCol = some t.timeCol := by
  unfold TableMetadata.ofDocument
  constructor
  · intro h
    split at h
    · next hf =>
      obtain ⟨_, htimeCol, ⟨⟩⟩ := Option.map_eq_some_iff.1 h
      exact ⟨_, hf, htimeCol⟩
    · cases h
  · rintro ⟨_, hf, htimeCol⟩
    simp [hf, htimeCol]

theorem Meta.ofDocument_eq_some_iff {d : Document} {m : Meta} :
    Meta.ofDocument d = some m ↔ ∃ metadata, Record.fields ["metadata"] d = some [metadata] ∧
      optional TableMetadata.ofDocument metadata = some m.metadata := by
  unfold Meta.ofDocument
  constructor
  · intro h
    split at h
    · next hf =>
      obtain ⟨_, hmetadata, ⟨⟩⟩ := Option.map_eq_some_iff.1 h
      exact ⟨_, hf, hmetadata⟩
    · cases h
  · rintro ⟨_, hf, hmetadata⟩
    simp [hf, hmetadata]

theorem Spec.ofDocument_eq_some_iff {d : Document} {s : Spec} :
    Spec.ofDocument d = some s ↔ ∃ view opts info,
      Record.fields ["view", "opts", "meta"] d = some [view, opts, info] ∧
      withDefault View.ofDocument .table view = some s.view ∧
      optional Options.ofDocument opts = some s.opts ∧
      optional Meta.ofDocument info = some s.info := by
  unfold Spec.ofDocument
  constructor
  · intro h
    split at h
    · next hf =>
      simp only [Option.bind_eq_bind, Option.bind_eq_some_iff, Option.pure_def] at h
      obtain ⟨_, hview, _, hopts, _, hinfo, ⟨⟩⟩ := h
      exact ⟨_, _, _, hf, hview, hopts, hinfo⟩
    · cases h
  · rintro ⟨_, _, _, hf, hview, hopts, hinfo⟩
    simp [hf, hview, hopts, hinfo]

/-! ## The range of a spec -/

/-- The integers of sixty-four bits with sign. -/
def Signed (i : Int) : Prop :=
  -Int.pow 2 63 ≤ i ∧ i < Int.pow 2 63

def Condition.InRange (c : Condition) : Prop :=
  c.value.Canonical

def Filter.InRange (f : Filter) : Prop :=
  ∀ c ∈ f.conditions, c.InRange

/-- Bounds have sixty-four bits with sign, the limit has sixty-four bits without. -/
structure Options.InRange (o : Options) : Prop where
  filters : ∀ f ∈ o.filters, f.InRange
  startMs : ∀ i ∈ o.startMs, Signed i
  endMs : ∀ i ∈ o.endMs, Signed i
  limit : ∀ n ∈ o.limit, n < Nat.pow 2 64

/-- What the fields of a spec can hold. -/
def Spec.InRange (s : Spec) : Prop :=
  ∀ o ∈ s.opts, o.InRange

theorem signed_of_integer {d : Document} {i : Int} (h : integer d = some i) : Signed i := by
  unfold integer at h
  split at h
  · next j hfits =>
    split at h
    · next hlt =>
      cases h
      exact ⟨hfits.1, hlt⟩
    · cases h
  · cases h

theorem lt_of_natural {d : Document} {n : Nat} (h : natural d = some n) : n < Nat.pow 2 64 := by
  unfold natural at h
  split at h
  · next i hfits =>
    split at h
    · next hle =>
      cases h
      have hlt : i < Int.pow 2 64 := hfits.2
      have hpow : Int.pow 2 64 = ((Nat.pow 2 64 : Nat) : Int) := by decide
      omega
    · cases h
  · cases h

theorem Condition.inRange_of_ofDocument {d : Document} {c : Condition}
    (h : Condition.ofDocument d = some c) : c.InRange := by
  obtain ⟨_, value, -, -, hvalue⟩ := Condition.ofDocument_eq_some_iff.1 h
  cases value with
  | none =>
    have hnull : Json.null = c.value := Option.some.inj hvalue
    show c.value.Canonical
    exact hnull ▸ trivial
  | some d => exact Document.canonical_of_value? d hvalue

theorem Filter.inRange_of_ofDocument {d : Document} {f : Filter}
    (h : Filter.ofDocument d = some f) : f.InRange := by
  obtain ⟨_, conditions, -, -, hconditions⟩ := Filter.ofDocument_eq_some_iff.1 h
  intro c hc
  cases conditions with
  | none =>
    have hnil : [] = f.conditions := Option.some.inj hconditions
    rw [← hnil] at hc
    cases hc
  | some d =>
    obtain ⟨_, he⟩ := exists_of_list hconditions hc
    exact Condition.inRange_of_ofDocument he

theorem Options.inRange_of_ofDocument {d : Document} {o : Options}
    (h : Options.ofDocument d = some o) : o.InRange := by
  obtain ⟨_, _, filters, _, _, _, _, -, -, -, hfilters, hstart, hend, -, hlimit⟩ :=
    Options.ofDocument_eq_some_iff.1 h
  constructor
  case filters =>
    intro f hf
    cases filters with
    | none =>
      have hnil : [] = o.filters := Option.some.inj hfilters
      rw [← hnil] at hf
      cases hf
    | some d =>
      obtain ⟨_, he⟩ := exists_of_list hfilters hf
      exact Filter.inRange_of_ofDocument he
  case startMs =>
    intro i hi
    rw [Option.mem_def.1 hi] at hstart
    obtain ⟨_, -, hread⟩ := exists_of_optional hstart
    exact signed_of_integer hread
  case endMs =>
    intro i hi
    rw [Option.mem_def.1 hi] at hend
    obtain ⟨_, -, hread⟩ := exists_of_optional hend
    exact signed_of_integer hread
  case limit =>
    intro n hn
    rw [Option.mem_def.1 hn] at hlimit
    obtain ⟨_, -, hread⟩ := exists_of_optional hlimit
    exact lt_of_natural hread

/-- Every spec that is read is in range. -/
theorem Spec.inRange_of_ofDocument {d : Document} {s : Spec} (h : Spec.ofDocument d = some s) :
    s.InRange := by
  obtain ⟨_, _, _, -, -, hopts, -⟩ := Spec.ofDocument_eq_some_iff.1 h
  intro o ho
  rw [Option.mem_def.1 ho] at hopts
  obtain ⟨_, -, hread⟩ := exists_of_optional hopts
  exact Options.inRange_of_ofDocument hread

/-! ## What is written is read back -/

theorem document_ofInt {i : Int} (h : FitsInteger i) : (Json.ofInt i).document = .int i h := by
  unfold Json.ofInt
  rw [dif_pos h]
  rfl

theorem integer_ofInt {i : Int} (h : Signed i) : integer (Json.ofInt i).document = some i := by
  have hpow : Int.pow 2 63 < Int.pow 2 64 := by decide
  have hfits : FitsInteger i := ⟨h.1, h.2.trans hpow⟩
  rw [document_ofInt hfits]
  exact if_pos h.2

theorem natural_ofNat {n : Nat} (h : n < Nat.pow 2 64) :
    natural (Json.ofNat n).document = some n := by
  have hpow : Int.pow 2 64 = ((Nat.pow 2 64 : Nat) : Int) := by decide
  have hneg : -Int.pow 2 63 ≤ 0 := by decide
  have hfits : FitsInteger n := ⟨by omega, by omega⟩
  unfold Json.ofNat
  rw [document_ofInt hfits]
  show (if (0 : Int) ≤ n then some (n : Int).toNat else none) = _
  rw [if_pos (Int.natCast_nonneg n), Int.toNat_natCast]

theorem View.ofDocument_name (v : View) : View.ofDocument (.str v.name) = some v := by
  cases v <;> decide

theorem Condition.ofDocument_toJson {c : Condition} (h : c.InRange) :
    Condition.ofDocument c.toJson.document = some c :=
  Condition.ofDocument_eq_some_iff.2 ⟨some (.str c.op), some c.value.document, rfl, rfl,
    Document.value?_document c.value h⟩

theorem Filter.ofDocument_toJson {f : Filter} (h : f.InRange) :
    Filter.ofDocument f.toJson.document = some f :=
  Filter.ofDocument_eq_some_iff.2 ⟨some (.str f.column), _, rfl, rfl,
    list_arr fun c hc => Condition.ofDocument_toJson (h c hc)⟩

theorem Options.ofDocument_toJson {o : Options} (h : o.InRange) :
    Options.ofDocument o.toJson.document = some o :=
  Options.ofDocument_eq_some_iff.2 ⟨_, _, _, _, _, _, _, rfl,
    optional_orNull rfl fun ss _ => list_texts ss,
    list_texts o.cols,
    list_arr fun f hf => Filter.ofDocument_toJson (h.filters f hf),
    optional_orNull rfl fun i hi => integer_ofInt (h.startMs i hi),
    optional_orNull rfl fun i hi => integer_ofInt (h.endMs i hi),
    optional_orNull rfl fun _ _ => rfl,
    optional_orNull rfl fun n hn => natural_ofNat (h.limit n hn)⟩

theorem TableMetadata.ofDocument_toJson (t : TableMetadata) :
    TableMetadata.ofDocument t.toJson.document = some t :=
  TableMetadata.ofDocument_eq_some_iff.2 ⟨_, rfl,
    optional_orNull rfl fun _ _ => rfl⟩

theorem Meta.ofDocument_toJson (m : Meta) : Meta.ofDocument m.toJson.document = some m :=
  Meta.ofDocument_eq_some_iff.2 ⟨_, rfl,
    optional_orNull rfl fun t _ => t.ofDocument_toJson⟩

/-- Every spec in range is read back. -/
theorem Spec.ofDocument_toJson {s : Spec} (h : s.InRange) :
    Spec.ofDocument s.toJson.document = some s :=
  Spec.ofDocument_eq_some_iff.2 ⟨some (.str s.view.name), _, _, rfl, s.view.ofDocument_name,
    optional_orNull rfl fun o ho => Options.ofDocument_toJson (h o ho),
    optional_orNull rfl fun m _ => m.ofDocument_toJson⟩

/-- Exactly the specs in range are read back. -/
theorem Spec.ofJson_toJson_iff {s : Spec} : Spec.ofJson s.toJson = some s ↔ s.InRange :=
  ⟨Spec.inRange_of_ofDocument, Spec.ofDocument_toJson⟩

/-- A spec in range that is not nested too deep is read back from its text, if its doubles are. -/
theorem Spec.ofText_compact {s : Spec} (h : s.InRange)
    (hdepth : s.toJson.depth ≤ Document.depthLimit)
    (hdurable : s.toJson.Durable Number.Spelling.scaled) : Spec.ofText s.toJson.compact = some s := by
  unfold Spec.ofText Json.compact
  rw [String.toList_ofList, documentRead_chars hdepth hdurable]
  exact Spec.ofDocument_toJson h

end StoreGateway.Query

namespace StoreGateway.Catalog

open StoreGateway.Json

/-- Every table reference is read back. -/
theorem TableRef.ofJson_toJson (t : TableRef) : TableRef.ofJson t.toJson = some t := by
  cases t with
  | bare name => rfl
  | object name => rfl

theorem TableRef.ofText_compact (t : TableRef) : TableRef.ofText t.toJson.compact = some t := by
  have hdepth : t.toJson.depth ≤ Document.depthLimit := by cases t <;> simp [toJson, depth,
    depthMembers, Document.depthLimit]
  have hdurable : t.toJson.Durable Number.Spelling.scaled := by
    cases t <;> exact fun _ hx => absurd hx List.not_mem_nil
  unfold TableRef.ofText Json.compact
  rw [String.toList_ofList, documentRead_chars hdepth hdurable]
  exact t.ofJson_toJson

end StoreGateway.Catalog
