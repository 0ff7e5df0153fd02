import StoreGateway.Fields.Order
import StoreGateway.Json.Document
import StoreGateway.Json.Printer
import StoreGateway.Proofs.ShortestReads
import StoreGateway.Proofs.TokenText

/-!
# A value is read back from its text

The text of a value says what the value is, but for its doubles: these are written in full, and come
back as whatever the reader makes of the decimals. So a value is read back when its doubles are, and
a reader that takes the nearest double reads back all of them.

* `Json.WellFormed`: values in canonical form that are not nested too deep;
* `Json.Readable`: such values, when their doubles are read back;
* `Json.reread`: the document that the text of a value says;
* `written_tokens`: the tokens of a value can be told apart in its text;
* `foldlM_tokens`: the tokens of a value complete its document at any place that is not too deep;
* `value?_document`: a value in canonical form is what its document denotes;
* `read_chars`: a readable value is read back from its text.
-/

namespace StoreGateway.Json

open StoreGateway.Text StoreGateway.Number

/-- The names of every object ascend, and arrays and objects are nested no deeper than is read. -/
structure WellFormed (v : Json) : Prop where
  canonical : v.Canonical
  shallow : v.depth ≤ Document.depthLimit

mutual

/-- The doubles in a value, in the order of its text. -/
def doubles : Json → List Finite
  | float x => [x]
  | arr vs => elementDoubles vs
  | obj ms => memberDoubles ms
  | _ => []

def elementDoubles : List Json → List Finite
  | [] => []
  | v :: vs => v.doubles ++ elementDoubles vs

def memberDoubles : List (String × Json) → List Finite
  | [] => []
  | (_, v) :: ms => v.doubles ++ memberDoubles ms

end

section

variable (double : Spelling → Binary64)

/-- Every double in a value is read back from its own text. -/
def Durable (v : Json) : Prop :=
  ∀ x ∈ v.doubles, double (floatSpelling x) = .finite x

/-- A value is well-formed, and its doubles are read back. -/
structure Readable (v : Json) : Prop extends WellFormed v where
  durable : v.Durable double

mutual

/-- The document that the text of a value says. -/
def reread : Json → Document
  | null => .null
  | bool b => .bool b
  | int i h => .int i h
  | float x => Document.ofNumber double (floatSpelling x)
  | str s => .str s
  | arr vs => .arr (rereadElements vs)
  | obj ms => .obj (rereadMembers ms)

def rereadElements : List Json → List Document
  | [] => []
  | v :: vs => v.reread :: rereadElements vs

def rereadMembers : List (String × Json) → List (String × Document)
  | [] => []
  | (k, v) :: ms => (k, v.reread) :: rereadMembers ms

end

end

/-! ## Numbers -/

theorem strict_iff {s : Spelling} : Token.strict s = true ↔ s.sign ≠ .plus ∧ s.whole ≠ [] ∧
    (s.whole.length = 1 ∨ s.whole.head? ≠ some '0') ∧ s.fraction ≠ some [] := by
  simp [Token.strict, and_assoc]

/-- Laid out digits have no needless zero in front. -/
theorem strict_spell (l : Layout) (x : Finite) {ds : List Char} {e : Int} (hne : ds ≠ [])
    (hzero : ds.head? = some '0' → e = 0) : Token.strict (l.spell x.sign ds e) = true := by
  obtain ⟨d, ds, rfl⟩ := List.exists_cons_of_ne_nil hne
  have hsign : x.sign ≠ .plus := by
    unfold Finite.sign
    split <;> exact nofun
  rw [strict_iff]
  unfold Layout.spell
  split
  · split
    · exact ⟨hsign, by simp, .inl rfl, by simp⟩
    · refine ⟨hsign, by simp, ?_, ?_⟩
      · by_cases he : e = 0
        · exact .inl (by simp [he])
        · exact .inr fun hhead => he (hzero hhead)
      · dsimp only
        split
        · simp
        · next hfraction => simpa using hfraction
  · refine ⟨hsign, by simp, .inl (by simp), ?_⟩
    split
    · simp
    · next hlong => simpa using hlong

theorem writable_floatSpelling (x : Finite) : (Token.number (floatSpelling x)).Writable := by
  obtain ⟨ds, e, heq, hne, hds, hzero⟩ := layout.shortest_eq_spell x
  unfold floatSpelling
  rw [heq]
  exact ⟨layout.wellFormed_spell _ _ hne hds, strict_spell layout x hne hzero⟩

/-- A double is never taken for an integer. -/
theorem ofNumber_floatSpelling (double : Spelling → Binary64) (x : Finite) :
    Document.ofNumber double (floatSpelling x) = match double (floatSpelling x) with
      | .finite y => .float y
      | _ => .unreadable := by
  obtain ⟨ds, e, heq, -⟩ := layout.shortest_eq_spell x
  have hpoint : (floatSpelling x).isInteger = false := by
    unfold floatSpelling
    rw [heq]
    exact layout.not_isInteger_spell x.sign e
  exact dif_neg (by rw [hpoint]; simp)

/-- To the nearest double, every double is read back. -/
theorem durable_round (v : Json) : v.Durable Spelling.round := fun x _ => layout.round_shortest x

theorem writable_intSpelling (i : Int) : (Token.number (intSpelling i)).Writable := by
  have hsign : (intSpelling i).sign ≠ .plus := by
    unfold intSpelling
    dsimp only
    split <;> exact nofun
  have hzero : (digits i.natAbs).length = 1 ∨ (digits i.natAbs).head? ≠ some '0' := by
    by_cases h : i.natAbs = 0
    · rw [h]
      exact .inl rfl
    · exact .inr (head?_digits h)
  exact ⟨⟨fun c => isDigit_of_mem_digits, by rintro f ⟨⟩, fun _ => digits_ne_nil _, by rintro e ⟨⟩⟩,
    strict_iff.2 ⟨hsign, digits_ne_nil _, hzero, nofun⟩⟩

theorem ofNumber_intSpelling (double : Spelling → Binary64) {i : Int} (h : FitsInteger i) :
    Document.ofNumber double (intSpelling i) = .int i h := by
  have hvalue : (intSpelling i).sign.apply (value (intSpelling i).whole) = i := by
    unfold intSpelling
    rw [value_digits]
    split
    · show -(i.natAbs : Int) = i
      omega
    · show (i.natAbs : Int) = i
      omega
  have hminus : ¬((intSpelling i).sign = .minus ∧ i = 0) := by
    rintro ⟨hsign, rfl⟩
    cases hsign
  unfold Document.ofNumber
  simp only [hvalue]
  exact dif_pos ⟨rfl, h, hminus⟩

/-! ## Tokens of a value -/

mutual

/-- The tokens of a value can be told apart in its text. -/
theorem written_tokens : (v : Json) → Token.Written v.tokens
  | null | bool _ | str _ => .singleton trivial
  | int i _ => .singleton (writable_intSpelling i)
  | float x => .singleton (writable_floatSpelling x)
  | arr vs => (written_elementTokens vs).cons rfl |>.append_cons (t := .closeArray) rfl .nil
  | obj ms => (written_memberTokens ms).cons rfl |>.append_cons (t := .closeObject) rfl .nil

theorem written_elementTokens : (vs : List Json) → Token.Written (elementTokens vs)
  | [] => .nil
  | [v] => written_tokens v
  | v :: w :: vs => (written_tokens v).append_cons (t := .comma) rfl (written_elementTokens (w :: vs))

theorem written_memberTokens : (ms : List (String × Json)) → Token.Written (memberTokens ms)
  | [] => .nil
  | [(k, v)] => .append_cons (.singleton (t := .string k) trivial) (t := .colon) rfl (written_tokens v)
  | (k, v) :: m :: ms =>
    .append_cons (.singleton (t := .string k) trivial) (t := .colon) rfl
      ((written_tokens v).append_cons (t := .comma) rfl (written_memberTokens (m :: ms)))

end

theorem exists_head_tokens (v : Json) : ∃ t ts, v.tokens = t :: ts ∧ t ≠ .closeArray := by
  cases v with
  | null | bool | int | float | str => exact ⟨_, _, rfl, nofun⟩
  | arr | obj => exact ⟨_, _, rfl, nofun⟩

/-! ## From tokens to the document -/

namespace Document

section

variable (double : Spelling → Binary64)

/-- Where the array may also end, an element begins as anywhere else. -/
theorem step_firstElement {t : Token} (h : t ≠ .closeArray) (outer : Context) :
    step double (.firstElement outer) t = begin double (.element [] outer) t := by
  cases t <;> first | rfl | exact absurd rfl h

theorem foldlM_firstElement (v : Json) (ts : List Token) (outer : Context) :
    (v.tokens ++ ts).foldlM (step double) (.firstElement outer) =
      (v.tokens ++ ts).foldlM (step double) (.value (.element [] outer)) := by
  obtain ⟨t, us, heq, hne⟩ := v.exists_head_tokens
  rw [heq, List.cons_append, List.foldlM_cons, List.foldlM_cons, step_firstElement double hne]
  rfl

theorem ofMembers_reverse (ms : List (String × Document)) :
    ofMembers (ms.map fun m => (some m.1, m.2)).reverse = obj ms := by
  have hkeys : (ms.map fun m => (some m.1, m.2)).mapM (fun m => m.1.map fun k => (k, m.2)) = some ms := by
    induction ms with
    | nil => rfl
    | cons m ms ih => simp [ih]
  unfold ofMembers
  rw [List.reverse_reverse, hkeys]

theorem close_of_depth {d : Document} {outer : Context} (h : outer.depth < depthLimit) :
    close d outer = complete d outer := by
  unfold close
  rw [if_pos h]

mutual

/-- The tokens of a value complete its document, wherever the value is not nested too deep. -/
theorem foldlM_tokens : (v : Json) → (place : Context) → v.depth + place.depth ≤ depthLimit →
    v.tokens.foldlM (step double) (.value place) = some (complete (v.reread double) place)
  | .null, _, _ | .bool _, _, _ | .float _, _, _ | .str _, _, _ => rfl
  | .int i h, place, _ => by
    show some (complete (ofNumber double (intSpelling i)) place) = _
    rw [ofNumber_intSpelling double h]
    rfl
  | .arr [], place, h => by
    show some (close (arr []) place) = _
    rw [close_of_depth (show place.depth < depthLimit by simp [Json.depth] at h; omega)]
    rfl
  | .arr (v :: vs), place, h => by
    have hdepth : depthElements (v :: vs) + (place.depth + 1) ≤ depthLimit := by
      simp only [Json.depth] at h
      omega
    have hfirst : (elementTokens (v :: vs)).foldlM (step double) (.firstElement place) =
        (elementTokens (v :: vs)).foldlM (step double) (.value (.element [] place)) := by
      cases vs with
      | nil =>
        have h := foldlM_firstElement double v [] place
        rwa [List.append_nil] at h
      | cons w vs => exact foldlM_firstElement double v _ place
    show (elementTokens (v :: vs) ++ [Token.closeArray]).foldlM (step double) (.firstElement place) = _
    rw [List.foldlM_append, hfirst,
      foldlM_elementTokens (v :: vs) (List.cons_ne_nil v vs) [] place hdepth]
    show some (close (arr ((rereadElements double (v :: vs)).reverse ++ []).reverse) place) = _
    rw [List.append_nil, List.reverse_reverse, close_of_depth (by omega)]
    rfl
  | .obj [], place, h => by
    show some (close (ofMembers []) place) = _
    rw [close_of_depth (show place.depth < depthLimit by simp [Json.depth] at h; omega)]
    rfl
  | .obj (m :: ms), place, h => by
    have hdepth : depthMembers (m :: ms) + (place.depth + 1) ≤ depthLimit := by
      simp only [Json.depth] at h
      omega
    have hfirst : (memberTokens (m :: ms)).foldlM (step double) (.firstKey place) =
        (memberTokens (m :: ms)).foldlM (step double) (.nextKey [] place) := by
      cases ms <;> rfl
    show (memberTokens (m :: ms) ++ [Token.closeObject]).foldlM (step double) (.firstKey place) = _
    rw [List.foldlM_append, hfirst, foldlM_memberTokens (m :: ms) (List.cons_ne_nil m ms) [] place hdepth,
      List.append_nil]
    show some (close (ofMembers _) place) = _
    rw [ofMembers_reverse, close_of_depth (by omega)]
    rfl

theorem foldlM_elementTokens : (vs : List Json) → vs ≠ [] → (before : List Document) →
    (outer : Context) → depthElements vs + (outer.depth + 1) ≤ depthLimit →
    (elementTokens vs).foldlM (step double) (.value (.element before outer)) =
      some (.afterElement ((rereadElements double vs).reverse ++ before) outer)
  | [], hne, _, _, _ => absurd rfl hne
  | [v], _, before, outer, h => by
    have hdepth : v.depth + (outer.depth + 1) ≤ depthLimit := by
      simp only [depthElements] at h
      omega
    exact foldlM_tokens v (.element before outer) hdepth
  | v :: w :: vs, _, before, outer, h => by
    simp only [depthElements] at h
    have hhead : v.depth + (outer.depth + 1) ≤ depthLimit := by omega
    have htail : depthElements (w :: vs) + (outer.depth + 1) ≤ depthLimit := by
      simp only [depthElements]
      omega
    show (v.tokens ++ .comma :: elementTokens (w :: vs)).foldlM (step double) _ = _
    rw [List.foldlM_append, foldlM_tokens v (.element before outer) hhead]
    show (elementTokens (w :: vs)).foldlM (step double)
      (.value (.element (v.reread double :: before) outer)) = _
    rw [foldlM_elementTokens (w :: vs) (List.cons_ne_nil w vs) _ outer htail]
    simp [rereadElements]

theorem foldlM_memberTokens : (ms : List (String × Json)) → ms ≠ [] →
    (before : List (Option String × Document)) → (outer : Context) →
    depthMembers ms + (outer.depth + 1) ≤ depthLimit →
    (memberTokens ms).foldlM (step double) (.nextKey before outer) =
      some (.afterMember
        (((rereadMembers double ms).map fun m => (some m.1, m.2)).reverse ++ before) outer)
  | [], hne, _, _, _ => absurd rfl hne
  | [(k, v)], _, before, outer, h => by
    have hdepth : v.depth + (outer.depth + 1) ≤ depthLimit := by
      simp only [depthMembers] at h
      omega
    exact foldlM_tokens v (.member before (some k) outer) hdepth
  | (k, v) :: m :: ms, _, before, outer, h => by
    simp only [depthMembers] at h
    have hhead : v.depth + (outer.depth + 1) ≤ depthLimit := by omega
    have htail : depthMembers (m :: ms) + (outer.depth + 1) ≤ depthLimit := by
      simp only [depthMembers]
      omega
    show (v.tokens ++ .comma :: memberTokens (m :: ms)).foldlM (step double)
      (.value (.member before (some k) outer)) = _
    rw [List.foldlM_append, foldlM_tokens v (.member before (some k) outer) hhead]
    show (memberTokens (m :: ms)).foldlM (step double)
      (.nextKey ((some k, v.reread double) :: before) outer) = _
    rw [foldlM_memberTokens (m :: ms) (List.cons_ne_nil m ms) _ outer htail]
    simp [rereadMembers]

end

/-- The document of a value is read from the value's tokens. -/
theorem ofTokens?_tokens {v : Json} (h : v.depth ≤ depthLimit) :
    ofTokens? double v.tokens = some (v.reread double) := by
  unfold ofTokens?
  rw [foldlM_tokens double v .top h]
  rfl

end

/-! ## From the document to the value -/

mutual

/-- A value in canonical form is what its document denotes. -/
theorem value?_document : (v : Json) → v.Canonical → v.document.value? = some v
  | .null, _ | .bool _, _ | .int _ _, _ | .float _, _ | .str _, _ => rfl
  | .arr vs, h => by
    show (values? (documents vs)).map Json.arr = _
    rw [values?_documents vs h]
    rfl
  | .obj ms, h => by
    show (memberValues? (memberDocuments ms)).map (fun fs => Json.obj (Fields.ofList fs)) = _
    rw [memberValues?_memberDocuments ms h.2, Option.map_some, Fields.ofList_eq_self h.1]

theorem values?_documents : (vs : List Json) → CanonicalElements vs →
    values? (documents vs) = some vs
  | [], _ => rfl
  | v :: vs, h => by
    simp only [documents, values?, value?_document v h.1, values?_documents vs h.2]

theorem memberValues?_memberDocuments : (ms : List (String × Json)) → CanonicalMembers ms →
    memberValues? (memberDocuments ms) = some ms
  | [], _ => rfl
  | (k, v) :: ms, h => by
    simp only [memberDocuments, memberValues?, value?_document v h.1,
      memberValues?_memberDocuments ms h.2]

end

end Document

/-! ## Values and texts -/

section

variable {double : Spelling → Binary64}

mutual

/-- A value whose doubles are read back has a text that says exactly this value. -/
theorem reread_eq_document : (v : Json) → v.Durable double → v.reread double = v.document
  | .null, _ | .bool _, _ | .int _ _, _ | .str _, _ => rfl
  | .float x, h => by
    show Document.ofNumber double (floatSpelling x) = .float x
    rw [ofNumber_floatSpelling, h x List.mem_cons_self]
  | .arr vs, h => congrArg Document.arr (rereadElements_eq_documents vs h)
  | .obj ms, h => congrArg Document.obj (rereadMembers_eq_memberDocuments ms h)

theorem rereadElements_eq_documents : (vs : List Json) →
    (∀ x ∈ elementDoubles vs, double (floatSpelling x) = .finite x) →
    rereadElements double vs = documents vs
  | [], _ => rfl
  | v :: vs, h => by
    obtain ⟨hv, hvs⟩ := List.forall_mem_append.1 h
    rw [rereadElements, reread_eq_document v hv, rereadElements_eq_documents vs hvs]
    rfl

theorem rereadMembers_eq_memberDocuments : (ms : List (String × Json)) →
    (∀ x ∈ memberDoubles ms, double (floatSpelling x) = .finite x) →
    rereadMembers double ms = memberDocuments ms
  | [], _ => rfl
  | (k, v) :: ms, h => by
    obtain ⟨hv, hms⟩ := List.forall_mem_append.1 h
    rw [rereadMembers, reread_eq_document v hv, rereadMembers_eq_memberDocuments ms hms]
    rfl

end

theorem scan_chars (v : Json) : Token.scan v.chars = some v.tokens :=
  Token.scan_texts (written_tokens v)

/-- What the text of a value says. -/
theorem readWith_chars {v : Json} (h : v.depth ≤ Document.depthLimit) :
    Document.readWith double v.chars = some (v.reread double) := by
  unfold Document.readWith
  rw [scan_chars, Option.bind_some, Document.ofTokens?_tokens double h]

/-- A readable value is read back from its text. -/
theorem read_chars {v : Json} (h : v.Readable double) : readWith double v.chars = some v := by
  unfold readWith
  rw [readWith_chars h.shallow, Option.bind_some, reread_eq_document v h.durable,
    Document.value?_document v h.canonical]

end

end StoreGateway.Json
