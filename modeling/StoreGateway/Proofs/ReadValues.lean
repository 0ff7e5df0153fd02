import StoreGateway.Proofs.DocumentText

/-!
# What is read is well-formed

A document is put together from its innermost parts, and arrays and objects that are nested too deep
are marked on the way, so a document that denotes a value is shallow everywhere. A value that is read
back from its text is well-formed for that reason, and each of its doubles must have been read back.

* `canonical_of_value?`: what a document denotes is in canonical form;
* `Document.Shallow`: what a document denotes may stand inside some arrays and objects;
* `Document.State.Good`: all documents of a state are shallow where they stand;
* `good_step`, `good_foldlM`: one token keeps that, and so do many;
* `wellFormed_of_readWith`: every value that is read is well-formed;
* `durable_of_reread`: a value that its text denotes has doubles that are read back;
* `readWith_chars_iff`: exactly the readable values are read back from their texts.
-/

namespace StoreGateway.Json

open StoreGateway.Number

/-! ## Parts of arrays and objects -/

theorem canonicalElements_iff {vs : List Json} : CanonicalElements vs ↔ ∀ v ∈ vs, v.Canonical := by
  induction vs with
  | nil => simp [CanonicalElements]
  | cons v vs ih => simp [CanonicalElements, ih]

theorem canonicalMembers_iff {ms : List (String × Json)} :
    CanonicalMembers ms ↔ ∀ m ∈ ms, m.2.Canonical := by
  induction ms with
  | nil => simp [CanonicalMembers]
  | cons m ms ih => simp [CanonicalMembers, ih]

theorem depthElements_le_iff {vs : List Json} {n : Nat} :
    depthElements vs ≤ n ↔ ∀ v ∈ vs, v.depth ≤ n := by
  induction vs with
  | nil => simp [depthElements]
  | cons v vs ih => simp [depthElements, ih]

theorem depthMembers_le_iff {ms : List (String × Json)} {n : Nat} :
    depthMembers ms ≤ n ↔ ∀ m ∈ ms, m.2.depth ≤ n := by
  induction ms with
  | nil => simp [depthMembers]
  | cons m ms ih => simp [depthMembers, ih]

/-! ## Canonical form -/

namespace Document

theorem values?_cons {d : Document} {ds : List Document} {ws : List Json}
    (h : values? (d :: ds) = some ws) : ∃ v vs, d.value? = some v ∧ values? ds = some vs ∧
      ws = v :: vs := by
  unfold values? at h
  split at h
  · next v vs hv hvs => exact ⟨v, vs, hv, hvs, (Option.some.inj h).symm⟩
  · cases h

theorem memberValues?_cons {k : String} {d : Document} {ms : List (String × Document)}
    {fs : List (String × Json)} (h : memberValues? ((k, d) :: ms) = some fs) :
    ∃ v gs, d.value? = some v ∧ memberValues? ms = some gs ∧ fs = (k, v) :: gs := by
  unfold memberValues? at h
  split at h
  · next v gs hv hgs => exact ⟨v, gs, hv, hgs, (Option.some.inj h).symm⟩
  · cases h

theorem exists_of_mem_values {ds : List Document} {vs : List Json} (h : values? ds = some vs)
    {v : Json} (hv : v ∈ vs) : ∃ d ∈ ds, d.value? = some v := by
  induction ds generalizing vs with
  | nil =>
    cases h
    cases hv
  | cons d ds ih =>
    obtain ⟨w, ws, hw, hws, rfl⟩ := values?_cons h
    rcases List.mem_cons.1 hv with rfl | hv
    · exact ⟨d, List.mem_cons_self, hw⟩
    · obtain ⟨e, he, hev⟩ := ih hws hv
      exact ⟨e, List.mem_cons_of_mem d he, hev⟩

theorem exists_of_mem_memberValues {ms : List (String × Document)} {fs : List (String × Json)}
    (h : memberValues? ms = some fs) {f : String × Json} (hf : f ∈ fs) :
    ∃ m ∈ ms, m.2.value? = some f.2 := by
  induction ms generalizing fs with
  | nil =>
    cases h
    cases hf
  | cons m ms ih =>
    obtain ⟨w, gs, hw, hgs, rfl⟩ := memberValues?_cons (k := m.1) (d := m.2) h
    rcases List.mem_cons.1 hf with rfl | hf
    · exact ⟨m, List.mem_cons_self, hw⟩
    · obtain ⟨n, hn, hnv⟩ := ih hgs hf
      exact ⟨n, List.mem_cons_of_mem m hn, hnv⟩

/-- What a document denotes is in canonical form. -/
theorem canonical_of_value? : (d : Document) → {v : Json} → d.value? = some v → v.Canonical
  | unreadable, _, h => nomatch h
  | null, _, rfl | bool _, _, rfl | int _ _, _, rfl | float _, _, rfl | str _, _, rfl => trivial
  | arr ds, _, h => by
    obtain ⟨vs, hvs, rfl⟩ := Option.map_eq_some_iff.1 h
    refine canonicalElements_iff.2 fun v hv => ?_
    obtain ⟨d, hd, hdv⟩ := exists_of_mem_values hvs hv
    exact canonical_of_value? d hdv
  | obj ms, _, h => by
    obtain ⟨fs, hfs, rfl⟩ := Option.map_eq_some_iff.1 h
    refine ⟨Fields.ascending_ofList fs, canonicalMembers_iff.2 fun f hf => ?_⟩
    obtain ⟨⟨k, d⟩, hm, hmv⟩ := exists_of_mem_memberValues hfs (Fields.mem_of_mem_ofList hf)
    exact canonical_of_value? d hmv
termination_by d => sizeOf d
decreasing_by
  · have hlt := List.sizeOf_lt_of_mem hd
    rw [arr.sizeOf_spec]
    omega
  · have hlt := List.sizeOf_lt_of_mem hm
    rw [Prod.mk.sizeOf_spec] at hlt
    rw [obj.sizeOf_spec]
    omega

/-! ## What is read is not nested too deep -/

/-- Whatever the document denotes, it may stand inside `k` arrays and objects. -/
def Shallow (k : Nat) (d : Document) : Prop :=
  ∀ v, d.value? = some v → v.depth ≤ depthLimit - k

theorem shallow_of_depth_zero {d : Document} (h : ∀ v, d.value? = some v → v.depth = 0) (k : Nat) :
    d.Shallow k := fun v hv => by
  rw [h v hv]
  exact Nat.zero_le _

theorem shallow_unreadable (k : Nat) : Shallow k unreadable := nofun

theorem shallow_ofNumber (double : Spelling → Binary64) (k : Nat) (s : Spelling) :
    Shallow k (ofNumber double s) := by
  unfold ofNumber
  dsimp only
  split
  · exact shallow_of_depth_zero (by rintro v ⟨⟩; rfl) k
  · split
    · exact shallow_of_depth_zero (by rintro v ⟨⟩; rfl) k
    · exact shallow_unreadable k

theorem exists_of_mem_mapM_some {α β : Type} {f : α → Option β} {as : List α} {bs : List β}
    (h : as.mapM f = some bs) {b : β} (hb : b ∈ bs) : ∃ a ∈ as, f a = some b := by
  induction as generalizing bs with
  | nil =>
    cases h
    cases hb
  | cons a as ih =>
    rw [List.mapM_cons] at h
    obtain ⟨c, hc, h⟩ := Option.bind_eq_some_iff.1 h
    obtain ⟨cs, hcs, h⟩ := Option.bind_eq_some_iff.1 h
    cases h
    rcases List.mem_cons.1 hb with rfl | hb
    · exact ⟨a, List.mem_cons_self, hc⟩
    · obtain ⟨a', ha', hf⟩ := ih hcs hb
      exact ⟨a', List.mem_cons_of_mem a ha', hf⟩

section

variable {k : Nat} (hk : k < depthLimit)
include hk

theorem shallow_arr {ds : List Document} (h : ∀ d ∈ ds, d.Shallow (k + 1)) : Shallow k (arr ds) := by
  intro v hv
  obtain ⟨vs, hvs, rfl⟩ := Option.map_eq_some_iff.1 hv
  have hdepth : depthElements vs ≤ depthLimit - (k + 1) := depthElements_le_iff.2 fun v hv => by
    obtain ⟨d, hd, hdv⟩ := exists_of_mem_values hvs hv
    exact h d hd v hdv
  show depthElements vs + 1 ≤ _
  omega

theorem shallow_obj {ms : List (String × Document)} (h : ∀ m ∈ ms, m.2.Shallow (k + 1)) :
    Shallow k (obj ms) := by
  intro v hv
  obtain ⟨fs, hfs, rfl⟩ := Option.map_eq_some_iff.1 hv
  have hdepth : depthMembers (Fields.ofList fs) ≤ depthLimit - (k + 1) :=
    depthMembers_le_iff.2 fun f hf => by
      obtain ⟨m, hm, hmv⟩ := exists_of_mem_memberValues hfs (Fields.mem_of_mem_ofList hf)
      exact h m hm f.2 hmv
  show depthMembers (Fields.ofList fs) + 1 ≤ _
  omega

theorem shallow_ofMembers {before : List (Option String × Document)}
    (h : ∀ m ∈ before, m.2.Shallow (k + 1)) : Shallow k (ofMembers before) := by
  unfold ofMembers
  split
  · next ms heq =>
    refine shallow_obj hk fun m hm => ?_
    obtain ⟨a, ha, hkey⟩ := exists_of_mem_mapM_some heq hm
    obtain ⟨key, -, rfl⟩ := Option.map_eq_some_iff.1 hkey
    exact h a (List.mem_reverse.1 ha)
  · exact shallow_unreadable k

end

/-- The documents that wait in a context may stand where they do. -/
def Context.Good : Context → Prop
  | .top => True
  | .element before outer => (∀ d ∈ before, d.Shallow (outer.depth + 1)) ∧ outer.Good
  | .member before _ outer => (∀ m ∈ before, m.2.Shallow (outer.depth + 1)) ∧ outer.Good

/-- The documents of a state may stand where they do. -/
def State.Good : State → Prop
  | .value place => place.Good
  | .firstElement outer | .firstKey outer => outer.Good
  | .afterElement before outer => (∀ d ∈ before, d.Shallow (outer.depth + 1)) ∧ outer.Good
  | .nextKey before outer | .colon before _ outer | .afterMember before outer =>
    (∀ m ∈ before, m.2.Shallow (outer.depth + 1)) ∧ outer.Good
  | .done d => d.Shallow 0

theorem good_complete {d : Document} {place : Context} (hd : d.Shallow place.depth)
    (h : place.Good) : (complete d place).Good := by
  cases place with
  | top => exact hd
  | element before outer => exact ⟨List.forall_mem_cons.2 ⟨hd, h.1⟩, h.2⟩
  | member before key outer => exact ⟨List.forall_mem_cons.2 ⟨hd, h.1⟩, h.2⟩

theorem good_close {d : Document} {outer : Context}
    (hd : outer.depth < depthLimit → d.Shallow outer.depth) (h : outer.Good) : (close d outer).Good := by
  refine good_complete ?_ h
  split
  · next hdepth => exact hd hdepth
  · exact shallow_unreadable _

section

variable {double : Spelling → Binary64}

theorem good_begin {place : Context} (h : place.Good) {t : Token} {s : State}
    (hs : begin double place t = some s) : s.Good := by
  cases t with
  | openArray | openObject =>
    cases hs
    exact h
  | null | bool | string =>
    cases hs
    exact good_complete (shallow_of_depth_zero (by rintro v ⟨⟩; rfl) _) h
  | number x =>
    cases hs
    exact good_complete (shallow_ofNumber double _ x) h
  | unpaired =>
    cases hs
    exact good_complete (shallow_unreadable _) h
  | _ => cases hs

/-- One token leaves no document where it is nested too deep. -/
theorem good_step {s s' : State} {t : Token} (h : s.Good) (hs : step double s t = some s') : s'.Good := by
  cases s with
  | value place => exact good_begin h hs
  | firstElement outer =>
    by_cases hclose : t = .closeArray
    · subst hclose
      cases hs
      exact good_close (fun hdepth => shallow_arr hdepth (by simp)) h
    · rw [step_firstElement double hclose] at hs
      exact good_begin (show Context.Good (.element [] outer) from ⟨by simp, h⟩) hs
  | afterElement before outer =>
    cases t with
    | comma =>
      cases hs
      exact h
    | closeArray =>
      cases hs
      exact good_close
        (fun hdepth => shallow_arr hdepth fun d hd => h.1 d (List.mem_reverse.1 hd)) h.2
    | _ => cases hs
  | firstKey outer =>
    cases t with
    | closeObject =>
      cases hs
      exact good_close (fun hdepth => shallow_ofMembers hdepth (by simp)) h
    | string | unpaired =>
      cases hs
      exact ⟨by simp, h⟩
    | _ => cases hs
  | nextKey before outer =>
    cases t with
    | string | unpaired =>
      cases hs
      exact h
    | _ => cases hs
  | colon before key outer =>
    cases t with
    | colon =>
      cases hs
      exact h
    | _ => cases hs
  | afterMember before outer =>
    cases t with
    | comma =>
      cases hs
      exact h
    | closeObject =>
      cases hs
      exact good_close (fun hdepth => shallow_ofMembers hdepth h.1) h.2
    | _ => cases hs
  | done d => cases hs

theorem good_foldlM {ts : List Token} {s s' : State} (h : s.Good)
    (hs : ts.foldlM (step double) s = some s') : s'.Good := by
  induction ts generalizing s with
  | nil =>
    cases hs
    exact h
  | cons t ts ih =>
    rw [List.foldlM_cons] at hs
    obtain ⟨r, hr, hrest⟩ := Option.bind_eq_some_iff.1 hs
    exact ih (good_step h hr) hrest

theorem shallow_of_ofTokens? {ts : List Token} {d : Document} (h : ofTokens? double ts = some d) :
    d.Shallow 0 := by
  unfold ofTokens? at h
  split at h
  · next d' hd =>
    cases h
    exact good_foldlM (s := .value .top) trivial hd
  · cases h

end

/-! ## What is read back -/

theorem names_memberValues? {ms : List (String × Document)} {fs : List (String × Json)}
    (h : memberValues? ms = some fs) : fs.map Prod.fst = ms.map Prod.fst := by
  induction ms generalizing fs with
  | nil =>
    cases h
    rfl
  | cons m ms ih =>
    obtain ⟨w, gs, -, hgs, rfl⟩ := memberValues?_cons (k := m.1) (d := m.2) h
    rw [List.map_cons, List.map_cons, ih hgs]

end Document

theorem names_rereadMembers (double : Spelling → Binary64) (ms : List (String × Json)) :
    (rereadMembers double ms).map Prod.fst = ms.map Prod.fst := by
  induction ms with
  | nil => rfl
  | cons m ms ih => rw [rereadMembers, List.map_cons, List.map_cons, ih]

/-- Members that come back under ascending names come back in their places. -/
theorem memberValues?_of_obj {double : Spelling → Binary64} {ms : List (String × Json)}
    (h : (reread double (.obj ms)).value? = some (.obj ms)) :
    Document.memberValues? (rereadMembers double ms) = some ms := by
  obtain ⟨fs, hfs, heq⟩ := Option.map_eq_some_iff.1 h
  have hms : Fields.ofList fs = ms := Json.obj.inj heq
  have hnames : fs.map Prod.fst = ms.map Prod.fst :=
    (Document.names_memberValues? hfs).trans (names_rereadMembers double ms)
  have hascending : Fields.Ascending fs := by
    have hsorted : (ms.map Prod.fst).Pairwise (· < ·) :=
      List.pairwise_map.2 (hms ▸ Fields.ascending_ofList fs)
    rw [← hnames] at hsorted
    exact List.pairwise_map.1 hsorted
  rw [hfs, ← hms, Fields.ofList_eq_self hascending]

section

variable {double : Spelling → Binary64}

mutual

/-- A value that its text denotes has doubles that are read back. -/
theorem durable_of_reread : (v : Json) → (v.reread double).value? = some v → v.Durable double
  | .null, _ | .bool _, _ | .int _ _, _ | .str _, _ => fun _ hx => absurd hx List.not_mem_nil
  | .float x, h => by
    intro y hy
    rw [List.mem_singleton.1 hy]
    rw [reread, ofNumber_floatSpelling] at h
    split at h
    · next z hz =>
      rw [hz, Json.float.inj (Option.some.inj h)]
    · cases h
  | .arr vs, h => by
    obtain ⟨ws, hws, heq⟩ := Option.map_eq_some_iff.1 h
    exact durable_of_rereadElements vs (Json.arr.inj heq ▸ hws)
  | .obj ms, h => durable_of_rereadMembers ms (memberValues?_of_obj h)

theorem durable_of_rereadElements : (vs : List Json) →
    Document.values? (rereadElements double vs) = some vs →
    ∀ x ∈ elementDoubles vs, double (floatSpelling x) = .finite x
  | [], _ => fun _ hx => absurd hx List.not_mem_nil
  | v :: vs, h => by
    obtain ⟨w, ws, hw, hws, heq⟩ := Document.values?_cons h
    obtain ⟨rfl, rfl⟩ := List.cons.inj heq
    exact List.forall_mem_append.2 ⟨durable_of_reread v hw, durable_of_rereadElements vs hws⟩

theorem durable_of_rereadMembers : (ms : List (String × Json)) →
    Document.memberValues? (rereadMembers double ms) = some ms →
    ∀ x ∈ memberDoubles ms, double (floatSpelling x) = .finite x
  | [], _ => fun _ hx => absurd hx List.not_mem_nil
  | (k, v) :: ms, h => by
    obtain ⟨w, fs, hw, hfs, heq⟩ := Document.memberValues?_cons h
    obtain ⟨hm, rfl⟩ := List.cons.inj heq
    obtain rfl := (Prod.mk.inj hm).2
    exact List.forall_mem_append.2 ⟨durable_of_reread v hw, durable_of_rereadMembers ms hfs⟩

end

/-- Every value that is read is well-formed. -/
theorem wellFormed_of_readWith {cs : List Char} {v : Json} (h : readWith double cs = some v) :
    v.WellFormed := by
  obtain ⟨d, hd, hv⟩ := Option.bind_eq_some_iff.1 h
  obtain ⟨ts, -, hts⟩ := Option.bind_eq_some_iff.1 hd
  exact ⟨Document.canonical_of_value? d hv, Document.shallow_of_ofTokens? hts v hv⟩

/-- Exactly the readable values are read back from their texts. -/
theorem readWith_chars_iff {v : Json} : readWith double v.chars = some v ↔ v.Readable double := by
  refine ⟨fun h => ?_, read_chars⟩
  have hformed := wellFormed_of_readWith h
  unfold readWith at h
  rw [readWith_chars hformed.shallow, Option.bind_some] at h
  exact ⟨hformed, durable_of_reread v h⟩

end

end StoreGateway.Json
