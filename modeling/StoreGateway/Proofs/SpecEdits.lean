import Mathlib.Logic.Relation
import StoreGateway.Query.Invocation
import StoreGateway.Proofs.SpecReading

/-!
# Edits that a spec does not notice

Clients write specs that are older or newer than the reader: some leave fields out, others have
fields of their own. In the document of a spec, a key that no field has may be added to any record,
and a key may be left out whose value is the default of its field.

* `Part`, `Part.fields`: the records in a spec, with what their fields hold and have as defaults;
* `Edit`: one key added or left out, in a record anywhere in the document;
* `FieldsKept`: field by field, what stands in one record for what stood in another;
* `fieldsKept_fields`, `Part.read_of_fieldsKept`: an edit of a record in terms of its fields, and
  what that is to its reader;
* `kept_of_edit`: an edit changes nothing that is read;
* `Spec.written_and_edited`: what is read is read back, and edits leave it alone.
-/

namespace StoreGateway.Query

open StoreGateway.Json StoreGateway.Catalog

/-! ## Parts of a spec -/

/-- The records that occur in a spec. -/
inductive Part where
  | spec | options | info | tableMetadata | filter | condition
deriving DecidableEq, Repr

/-- What stands in a document: records, one or a list of them, or something else. -/
inductive Content where
  | plain
  | record (p : Part)
  | records (p : Part)
deriving DecidableEq, Repr

/-- A field, the documents that say its default, and what it holds. -/
structure Field where
  name : String
  defaults : List Document
  content : Content

def Part.fields : Part → List Field
  | spec => [
    ⟨"view", [.str "table", .obj [("table", .null)]], .plain⟩,
    ⟨"opts", [.null], .record options⟩,
    ⟨"meta", [.null], .record info⟩]
  | options => [
    ⟨"dims", [.null], .plain⟩,
    ⟨"cols", [.arr []], .plain⟩,
    ⟨"filters", [.arr []], .records filter⟩,
    ⟨"start_ms", [.null], .plain⟩,
    ⟨"end_ms", [.null], .plain⟩,
    ⟨"time_bucket", [.null], .plain⟩,
    ⟨"limit", [.null], .plain⟩]
  | info => [⟨"metadata", [.null], .record tableMetadata⟩]
  | tableMetadata => [⟨"time_col", [.null], .plain⟩]
  | filter => [⟨"column", [], .plain⟩, ⟨"conditions", [.arr []], .records condition⟩]
  | condition => [⟨"op", [], .plain⟩, ⟨"value", [.null], .plain⟩]

def Part.names (p : Part) : List String :=
  p.fields.map Field.name

/-- What is read from the record. -/
abbrev Part.Value : Part → Type
  | spec => Spec
  | options => Options
  | info => Meta
  | tableMetadata => TableMetadata
  | filter => Filter
  | condition => Condition

def Part.read : (p : Part) → Document → Option p.Value
  | spec => Spec.ofDocument
  | options => Options.ofDocument
  | info => Meta.ofDocument
  | tableMetadata => TableMetadata.ofDocument
  | filter => Filter.ofDocument
  | condition => Condition.ofDocument

/-- One key that no field has is added, or one with the default of its field is left out. -/
inductive Edit : Content → Document → Document → Prop where
  | add {p : Part} (before after : List (String × Document)) {key : String} (d : Document) :
      key ∉ p.names →
      Edit (.record p) (.obj (before ++ after)) (.obj (before ++ (key, d) :: after))
  | remove {p : Part} (before after : List (String × Document)) {f : Field} {d : Document} :
      f ∈ p.fields → d ∈ f.defaults →
      Edit (.record p) (.obj (before ++ (f.name, d) :: after)) (.obj (before ++ after))
  | member {p : Part} (before after : List (String × Document)) {f : Field} {d d' : Document} :
      f ∈ p.fields → Edit f.content d d' →
      Edit (.record p) (.obj (before ++ (f.name, d) :: after))
        (.obj (before ++ (f.name, d') :: after))
  | position {p : Part} (before after : List Document) {f : Field} {d d' : Document} :
      p.fields[before.length]? = some f → Edit f.content d d' →
      Edit (.record p) (.arr (before ++ d :: after)) (.arr (before ++ d' :: after))
  | element {p : Part} (before after : List Document) {d d' : Document} :
      Edit (.record p) d d' →
      Edit (.records p) (.arr (before ++ d :: after)) (.arr (before ++ d' :: after))

/-! ## What readers cannot tell apart -/

/-- What is read from the first document is read from the second. -/
def Content.Kept : Content → Document → Document → Prop
  | .plain, _, _ => False
  | .record p, d, d' => d ≠ .null ∧ d' ≠ .null ∧ ∀ v, p.read d = some v → p.read d' = some v
  | .records p, d, d' => ∀ vs, list p.read d = some vs → list p.read d' = some vs

/-- What stands in a field for what stood in it. -/
inductive Field.Kept (f : Field) : Option Document → Option Document → Prop where
  | same (x : Option Document) : f.Kept x x
  | omitted {d : Document} : d ∈ f.defaults → f.Kept (some d) none
  | inner {d d' : Document} : f.content.Kept d d' → f.Kept (some d) (some d')

inductive FieldsKept : List Field → List (Option Document) → List (Option Document) → Prop where
  | nil : FieldsKept [] [] []
  | cons {f : Field} {fs : List Field} {x x' : Option Document} {xs xs' : List (Option Document)} :
      f.Kept x x' → FieldsKept fs xs xs' → FieldsKept (f :: fs) (x :: xs) (x' :: xs')

/-! ## Readers of fields -/

section Readers

variable {α : Type} {name : String} {x x' : Option Document}

theorem eq_of_kept_required (h : Field.Kept ⟨name, [], .plain⟩ x x') : x' = x := by
  cases h with
  | same => rfl
  | omitted hd => cases hd
  | inner h => cases h

theorem withDefault_of_kept {read : Document → Option α} {default : α} {defaults : List Document}
    (hdefaults : ∀ d ∈ defaults, read d = some default)
    (h : Field.Kept ⟨name, defaults, .plain⟩ x x') :
    withDefault read default x' = withDefault read default x := by
  cases h with
  | same => rfl
  | omitted hd => exact (hdefaults _ hd).symm
  | inner h => cases h

theorem optional_of_kept (read : Document → Option α)
    (h : Field.Kept ⟨name, [.null], .plain⟩ x x') : optional read x' = optional read x := by
  cases h with
  | same => rfl
  | omitted hd =>
    obtain rfl := List.mem_singleton.1 hd
    rfl
  | inner h => cases h

theorem list_of_kept {p : Part} {vs : List p.Value}
    (h : Field.Kept ⟨name, [.arr []], .records p⟩ x x')
    (hread : withDefault (list p.read) [] x = some vs) :
    withDefault (list p.read) [] x' = some vs := by
  cases h with
  | same => exact hread
  | omitted hd =>
    obtain rfl := List.mem_singleton.1 hd
    exact hread
  | inner h => exact h vs hread

theorem record_of_kept {p : Part} {v : Option p.Value}
    (h : Field.Kept ⟨name, [.null], .record p⟩ x x')
    (hread : optional p.read x = some v) : optional p.read x' = some v := by
  cases h with
  | same => exact hread
  | omitted hd =>
    obtain rfl := List.mem_singleton.1 hd
    exact hread
  | inner h =>
    obtain ⟨hne, hne', hkept⟩ := h
    rw [optional_of_ne_null hne] at hread
    obtain ⟨w, hw, rfl⟩ := Option.map_eq_some_iff.1 hread
    rw [optional_of_ne_null hne', hkept w hw]
    rfl

end Readers

/-! ## Readers of records -/

/-- A record whose fields are kept is read as before. -/
theorem Part.read_of_fieldsKept (p : Part) {d d' : Document}
    (h : ∀ xs, Record.fields p.names d = some xs →
      ∃ xs', Record.fields p.names d' = some xs' ∧ FieldsKept p.fields xs xs')
    {v : p.Value} (hv : p.read d = some v) : p.read d' = some v := by
  cases p with
  | spec =>
    obtain ⟨_, _, _, hf, hview, hopts, hinfo⟩ := Spec.ofDocument_eq_some_iff.1 hv
    obtain ⟨_, hf', _ | ⟨kview, _ | ⟨kopts, _ | ⟨kinfo, _ | _⟩⟩⟩⟩ := h _ hf
    have hdefaults : ∀ d ∈ [Document.str "table", .obj [("table", .null)]],
        View.ofDocument d = some .table := by
      intro d hd
      rcases List.mem_pair.1 hd with rfl | rfl <;> rfl
    exact Spec.ofDocument_eq_some_iff.2 ⟨_, _, _, hf', withDefault_of_kept hdefaults kview ▸ hview,
      record_of_kept (p := options) kopts hopts, record_of_kept (p := info) kinfo hinfo⟩
  | options =>
    obtain ⟨_, _, _, _, _, _, _, hf, hdims, hcols, hfilters, hstart, hend, hbucket, hlimit⟩ :=
      Options.ofDocument_eq_some_iff.1 hv
    obtain ⟨_, hf', _ | ⟨kdims, _ | ⟨kcols, _ | ⟨kfilters, _ | ⟨kstart, _ | ⟨kend, _ | ⟨kbucket,
      _ | ⟨klimit, _ | _⟩⟩⟩⟩⟩⟩⟩⟩ := h _ hf
    have hdefaults : ∀ d ∈ [Document.arr []], list text d = some [] := by
      intro d hd
      obtain rfl := List.mem_singleton.1 hd
      rfl
    exact Options.ofDocument_eq_some_iff.2 ⟨_, _, _, _, _, _, _, hf',
      optional_of_kept _ kdims ▸ hdims, withDefault_of_kept hdefaults kcols ▸ hcols,
      list_of_kept (p := filter) kfilters hfilters, optional_of_kept _ kstart ▸ hstart,
      optional_of_kept _ kend ▸ hend, optional_of_kept _ kbucket ▸ hbucket,
      optional_of_kept _ klimit ▸ hlimit⟩
  | info =>
    obtain ⟨_, hf, hmetadata⟩ := Meta.ofDocument_eq_some_iff.1 hv
    obtain ⟨_, hf', _ | ⟨kmetadata, _ | _⟩⟩ := h _ hf
    exact Meta.ofDocument_eq_some_iff.2
      ⟨_, hf', record_of_kept (p := tableMetadata) kmetadata hmetadata⟩
  | tableMetadata =>
    obtain ⟨_, hf, htimeCol⟩ := TableMetadata.ofDocument_eq_some_iff.1 hv
    obtain ⟨_, hf', _ | ⟨ktimeCol, _ | _⟩⟩ := h _ hf
    exact TableMetadata.ofDocument_eq_some_iff.2 ⟨_, hf', optional_of_kept _ ktimeCol ▸ htimeCol⟩
  | filter =>
    obtain ⟨_, _, hf, hcolumn, hconditions⟩ := Filter.ofDocument_eq_some_iff.1 hv
    obtain ⟨_, hf', _ | ⟨kcolumn, _ | ⟨kconditions, _ | _⟩⟩⟩ := h _ hf
    exact Filter.ofDocument_eq_some_iff.2 ⟨_, _, hf', eq_of_kept_required kcolumn ▸ hcolumn,
      list_of_kept (p := condition) kconditions hconditions⟩
  | condition =>
    obtain ⟨_, _, hf, hop, hvalue⟩ := Condition.ofDocument_eq_some_iff.1 hv
    obtain ⟨_, hf', _ | ⟨kop, _ | ⟨kvalue, _ | _⟩⟩⟩ := h _ hf
    have hdefaults : ∀ d ∈ [Document.null], d.value? = some .null := by
      intro d hd
      obtain rfl := List.mem_singleton.1 hd
      rfl
    exact Condition.ofDocument_eq_some_iff.2 ⟨_, _, hf', eq_of_kept_required kop ▸ hop,
      withDefault_of_kept hdefaults kvalue ▸ hvalue⟩

/-! ## Edits of records -/

/-- What a field holds when these documents are written for it. -/
def held : List Document → Option (Option Document)
  | [] => some none
  | [d] => some (some d)
  | _ => none

theorem fields_obj (names : List String) (members : List (String × Document)) :
    Record.fields names (.obj members) =
      names.mapM fun name => held (Record.written members name) := rfl

theorem written_append_cons (before after : List (String × Document)) (key name : String)
    (d : Document) :
    Record.written (before ++ (key, d) :: after) name = Record.written before name ++
      (if key = name then [d] else []) ++ Record.written after name := by
  unfold Record.written
  by_cases h : key = name <;> simp [h]

theorem written_append (before after : List (String × Document)) (name : String) :
    Record.written (before ++ after) name =
      Record.written before name ++ Record.written after name := by
  simp [Record.written]

/-- A document that a field holds is the only one written for it. -/
theorem held_around {before after : List Document} {d : Document} {x : Option Document}
    (h : held (before ++ [d] ++ after) = some x) : before = [] ∧ after = [] ∧ x = some d := by
  rcases before with _ | ⟨b, _ | ⟨c, bs⟩⟩
  · rcases after with _ | ⟨a, as⟩
    · exact ⟨rfl, rfl, (Option.some.inj h).symm⟩
    · cases h
  · cases h
  · cases h

theorem names_nodup (p : Part) : p.names.Nodup := by
  cases p <;> decide

/-- No two fields of a record have one name. -/
theorem field_ext {p : Part} {f g : Field} (hf : f ∈ p.fields) (hg : g ∈ p.fields)
    (h : f.name = g.name) : f = g :=
  List.inj_on_of_nodup_map (names_nodup p) hf hg h

theorem FieldsKept.of_mapM {fs : List Field} {g g' : String → Option (Option Document)}
    (h : ∀ f ∈ fs, ∀ x, g f.name = some x → ∃ x', g' f.name = some x' ∧ f.Kept x x')
    {xs : List (Option Document)} (hxs : (fs.map Field.name).mapM g = some xs) :
    ∃ xs', (fs.map Field.name).mapM g' = some xs' ∧ FieldsKept fs xs xs' := by
  induction fs generalizing xs with
  | nil =>
    cases hxs
    exact ⟨[], rfl, .nil⟩
  | cons f fs ih =>
    rw [List.map_cons, List.mapM_cons] at hxs
    obtain ⟨x, hx, hxs⟩ := Option.bind_eq_some_iff.1 hxs
    obtain ⟨xs, hrest, ⟨⟩⟩ := Option.bind_eq_some_iff.1 hxs
    obtain ⟨x', hx', hkept⟩ := h f List.mem_cons_self x hx
    obtain ⟨xs', hrest', hkepts⟩ := ih (fun g hg => h g (List.mem_cons_of_mem f hg)) hrest
    refine ⟨x' :: xs', ?_, .cons hkept hkepts⟩
    rw [List.map_cons, List.mapM_cons, hx', hrest']
    rfl

/-- An object is kept when each field is. -/
theorem kept_obj {p : Part} {members members' : List (String × Document)}
    (h : ∀ f ∈ p.fields, ∀ x, held (Record.written members f.name) = some x →
      ∃ x', held (Record.written members' f.name) = some x' ∧ f.Kept x x') :
    Content.Kept (.record p) (.obj members) (.obj members') := by
  refine ⟨nofun, nofun, fun v hv => p.read_of_fieldsKept (fun xs hxs => ?_) hv⟩
  rw [fields_obj] at hxs ⊢
  exact FieldsKept.of_mapM h hxs

section Members

variable {p : Part} {before after : List (String × Document)} {f : Field} {d d' : Document}

theorem kept_add {key : String} (hkey : key ∉ p.names) :
    Content.Kept (.record p) (.obj (before ++ after)) (.obj (before ++ (key, d) :: after)) := by
  refine kept_obj fun g hg x hx => ⟨x, ?_, .same x⟩
  have hne : key ≠ g.name := fun heq => hkey (heq ▸ List.mem_map_of_mem hg)
  rwa [written_append_cons, if_neg hne, List.append_nil, ← written_append]

theorem kept_remove (hf : f ∈ p.fields) (hd : d ∈ f.defaults) :
    Content.Kept (.record p) (.obj (before ++ (f.name, d) :: after)) (.obj (before ++ after)) := by
  refine kept_obj fun g hg x hx => ?_
  rw [written_append_cons] at hx
  rw [written_append]
  by_cases hname : f.name = g.name
  · obtain rfl := field_ext hf hg hname
    rw [if_pos rfl] at hx
    obtain ⟨hbefore, hafter, rfl⟩ := held_around hx
    exact ⟨none, by rw [hbefore, hafter]; rfl, .omitted hd⟩
  · rw [if_neg hname, List.append_nil] at hx
    exact ⟨x, hx, .same x⟩

theorem kept_member (hf : f ∈ p.fields) (h : f.content.Kept d d') :
    Content.Kept (.record p) (.obj (before ++ (f.name, d) :: after))
      (.obj (before ++ (f.name, d') :: after)) := by
  refine kept_obj fun g hg x hx => ?_
  rw [written_append_cons] at hx ⊢
  by_cases hname : f.name = g.name
  · obtain rfl := field_ext hf hg hname
    rw [if_pos rfl] at hx ⊢
    obtain ⟨hbefore, hafter, rfl⟩ := held_around hx
    exact ⟨some d', by rw [hbefore, hafter]; rfl, .inner h⟩
  · rw [if_neg hname] at hx ⊢
    exact ⟨x, hx, .same x⟩

end Members

theorem FieldsKept.refl {fs : List Field} {xs : List (Option Document)}
    (h : xs.length = fs.length) : FieldsKept fs xs xs := by
  induction fs generalizing xs with
  | nil =>
    obtain rfl := List.length_eq_zero_iff.1 h
    exact .nil
  | cons f fs ih =>
    obtain ⟨x, xs, rfl⟩ := List.exists_cons_of_length_eq_add_one h
    exact .cons (.same x) (ih (Nat.succ.inj h))

theorem FieldsKept.at_position {fs : List Field} {f : Field} {before after : List (Option Document)}
    {x x' : Option Document} (hf : fs[before.length]? = some f)
    (hlength : (before ++ x :: after).length = fs.length) (h : f.Kept x x') :
    FieldsKept fs (before ++ x :: after) (before ++ x' :: after) := by
  induction before generalizing fs with
  | nil =>
    cases fs with
    | nil => cases hf
    | cons g fs =>
      obtain rfl : g = f := Option.some.inj hf
      exact .cons h (.refl (Nat.succ.inj hlength))
  | cons b before ih =>
    cases fs with
    | nil => cases hf
    | cons g fs => exact .cons (.same b) (ih hf (Nat.succ.inj hlength))

/-- Of a record in the array form, the document at the place of one field may be replaced. -/
theorem kept_position {p : Part} {before after : List Document} {f : Field} {d d' : Document}
    (hf : p.fields[before.length]? = some f) (h : f.content.Kept d d') :
    Content.Kept (.record p) (.arr (before ++ d :: after)) (.arr (before ++ d' :: after)) := by
  refine ⟨nofun, nofun, fun _ => p.read_of_fieldsKept fun xs hxs => ?_⟩
  unfold Record.fields at hxs ⊢
  dsimp only at hxs ⊢
  split at hxs
  · next hle =>
    cases hxs
    have hlength : (before ++ d' :: after).length = (before ++ d :: after).length := by simp
    rw [hlength, if_pos hle]
    refine ⟨_, rfl, ?_⟩
    simp only [List.map_append, List.map_cons, List.append_assoc, List.cons_append]
    refine FieldsKept.at_position (by simpa using hf) ?_ (.inner h)
    have hnames : p.names.length = p.fields.length := List.length_map _
    simp only [List.length_append, List.length_cons, List.length_map,
      List.length_replicate] at hle ⊢
    omega
  · cases hxs

/-- One element of a list of records may be replaced. -/
theorem kept_element {p : Part} {before after : List Document} {d d' : Document}
    (h : ∀ v, p.read d = some v → p.read d' = some v) :
    Content.Kept (.records p) (.arr (before ++ d :: after)) (.arr (before ++ d' :: after)) := by
  intro vs hvs
  show (before ++ d' :: after).mapM p.read = some vs
  have hvs : (before ++ d :: after).mapM p.read = some vs := hvs
  simp only [List.mapM_append, List.mapM_cons, Option.bind_eq_bind, Option.bind_eq_some_iff,
    Option.pure_def] at hvs ⊢
  obtain ⟨us, hus, ws, ⟨v, hv, vs', hvs', heq⟩, hall⟩ := hvs
  exact ⟨us, hus, ws, ⟨v, h v hv, vs', hvs', heq⟩, hall⟩

/-- An edit changes nothing that is read. -/
theorem kept_of_edit {c : Content} {d d' : Document} (h : Edit c d d') : c.Kept d d' := by
  induction h with
  | add before after d hkey => exact kept_add hkey
  | remove before after hf hd => exact kept_remove hf hd
  | member before after hf _ ih => exact kept_member hf ih
  | position before after hf _ ih => exact kept_position hf ih
  | element before after _ ih => exact kept_element ih.2.2

/-- Edits in any number leave the spec alone that is read. -/
theorem Spec.ofDocument_of_edits {d d' : Document} {s : Spec}
    (h : Relation.ReflTransGen (Edit (.record .spec)) d d') (hs : Spec.ofDocument d = some s) :
    Spec.ofDocument d' = some s := by
  induction h with
  | refl => exact hs
  | tail _ hedit ih => exact (kept_of_edit hedit).2.2 s ih

/--
**Specs survive being written back, and edits that say nothing new.**

* A spec is read back from what is written for it exactly when its fields are in range, and then
  also from its text, if that is not nested too deep and the doubles in its filters are read back.
* Every document that is read as a spec gives one in range, so the spec is read back. The document
  may be an object or an array of fields, and the bucket size a text, a number or null.
* In a document that is read as a spec, any number of keys may be added that the record has no field
  for, and of keys left out whose value is the default of their field, in the spec itself and in
  every record within it. The same spec is read, so the fragment and the arguments of the query tool
  are the same.
* A table reference is read back, be it a bare name or an object.
-/
theorem Spec.survives_writing :
    (∀ s : Spec, Spec.ofJson s.toJson = some s ↔ s.InRange) ∧
    (∀ s : Spec, s.InRange → s.toJson.depth ≤ Document.depthLimit →
      s.toJson.Durable Number.Spelling.scaled → Spec.ofText s.toJson.compact = some s) ∧
    (∀ (d : Document) (s : Spec), Spec.ofDocument d = some s →
      s.InRange ∧ Spec.ofJson s.toJson = some s) ∧
    (∀ (d d' : Document) (s : Spec), Spec.ofDocument d = some s →
      Relation.ReflTransGen (Edit (.record .spec)) d d' →
      Spec.ofDocument d' = some s ∧ (Spec.ofDocument d').map fragment = some (fragment s) ∧
        ∀ table, (Spec.ofDocument d').map (viewArguments table) = some (viewArguments table s)) ∧
    ∀ t : TableRef, TableRef.ofJson t.toJson = some t ∧
      TableRef.ofText t.toJson.compact = some t := by
  refine ⟨fun _ => Spec.ofJson_toJson_iff, fun _ => Spec.ofText_compact, ?_, ?_,
    fun t => ⟨t.ofJson_toJson, t.ofText_compact⟩⟩
  · intro d s hs
    have hrange := Spec.inRange_of_ofDocument hs
    exact ⟨hrange, Spec.ofDocument_toJson hrange⟩
  · intro d d' s hs hedits
    have hs' := Spec.ofDocument_of_edits hedits hs
    refine ⟨hs', ?_, fun table => ?_⟩ <;> rw [hs'] <;> rfl

/-- A record in the array form holds one in the object form, with a key that no field has. -/
example : Edit (.record .spec)
    (.arr [.str "time", .obj [("time_bucket", .int 60 (by decide))]])
    (.arr [.str "time", .obj [("time_bucket", .int 60 (by decide)), ("theme", .bool true)]]) :=
  .position [.str "time"] [] rfl (.add [_] [] _ (by decide))

end StoreGateway.Query
