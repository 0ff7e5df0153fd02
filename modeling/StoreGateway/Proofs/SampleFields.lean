import StoreGateway.Proofs.RowWise
import StoreGateway.Proofs.WrittenIntegers

/-!
# A sample splits its raw row

The fields of a raw row that are not null are split between the two parts of its sample, each by its
own value, and nothing else is in either part.

* `Placed`: where a field goes, for every kind of value;
* `get?_integer_foldl_put`, `get?_string_foldl_put`: what many fields make of the two parts;
* `SampleOf`: what a sample has from its raw row;
* `samples_split`: the samples view splits every raw row.
-/

namespace StoreGateway.Query

open StoreGateway.Text StoreGateway.Number

/-! ## One value -/

/--
Where a field goes: what it is in the raw row, among the integers and among the texts. A text that
spells an integer is that integer, and other texts stay as they are. A number is its integer part, if
that is an integer of sixty-four bits; other numbers, truth values, arrays and objects are written
out.
-/
inductive Placed : Option Json → Option Int → Option String → Prop where
  | absent : Placed none none none
  | null : Placed (some .null) none none
  | spelled {s : String} {n : Int} (h : Spells s n) : Placed (some (.str s)) (some n) none
  | text {s : String} (h : ∀ n, ¬Spells s n) : Placed (some (.str s)) none (some s)
  | int {n : Int} {fits : FitsInteger n} (h : n < Int.pow 2 63) :
      Placed (some (.int n fits)) (some n) none
  | largeInt {n : Int} {fits : FitsInteger n} (h : Int.pow 2 63 ≤ n) :
      Placed (some (.int n fits)) none (some (toString n))
  | float {x : Finite} (hlow : -Int.pow 2 63 ≤ x.trunc) (hhigh : x.trunc < Int.pow 2 63) :
      Placed (some (.float x)) (some x.trunc) none
  | farFloat {x : Finite} (h : ¬(-Int.pow 2 63 ≤ x.trunc ∧ x.trunc < Int.pow 2 63)) :
      Placed (some (.float x)) none (some (Json.float x).compact)
  | bool (b : Bool) : Placed (some (.bool b)) none (some (toString b))
  | arr (vs : List Json) : Placed (some (.arr vs)) none (some (Json.arr vs).compact)
  | obj (ms : List (String × Json)) : Placed (some (.obj ms)) none (some (Json.obj ms).compact)

namespace Cell

/-- The integer of a cell. -/
def integer? : Cell → Option Int
  | .integer n => some n
  | .text _ => none

/-- The text of a cell. -/
def text? : Cell → Option String
  | .integer _ => none
  | .text s => some s

/-- An integer if there is one, else a text. -/
def pick : Option Int → String → Cell
  | some n, _ => .integer n
  | none, s => .text s

@[simp]
theorem integer?_pick (n : Option Int) (s : String) : (pick n s).integer? = n := by
  cases n <;> rfl

end Cell

theorem cell?_str (s : String) :
    cell? (.str s) = some (.pick ((readSigned (trim s.toList)).bind signed64?) s) := by
  unfold cell?
  dsimp only
  cases (readSigned (trim s.toList)).bind signed64? <;> rfl

theorem cell?_int (n : Int) (fits : FitsInteger n) :
    cell? (.int n fits) = some (.pick (signed64? n) (Json.int n fits).compact) := by
  unfold cell?
  dsimp only
  cases signed64? n <;> rfl

theorem cell?_float (x : Finite) :
    cell? (.float x) = some (.pick (signed64? x.trunc) (Json.float x).compact) := by
  unfold cell?
  dsimp only
  cases signed64? x.trunc <;> rfl

/-- Integers are written with all their digits. -/
theorem compact_int (n : Int) (fits : FitsInteger n) : (Json.int n fits).compact = toString n := by
  rw [← ofList_signed]
  show String.ofList (([.number (Json.intSpelling n)] : List Json.Token).flatMap Json.Token.text) = _
  congr 1
  rw [List.flatMap_singleton]
  cases n with
  | ofNat n =>
    have hsign : ¬(Int.ofNat n < 0) := Int.not_lt.2 (Int.natCast_nonneg n)
    show (Json.intSpelling (Int.ofNat n)).text = digits n
    rw [Json.intSpelling, if_neg hsign]
    simp [Spelling.text, signText]
  | negSucc n =>
    have hsign : Int.negSucc n < 0 := Int.negSucc_lt_zero n
    show (Json.intSpelling (Int.negSucc n)).text = '-' :: digits (n + 1)
    rw [Json.intSpelling, if_pos hsign]
    simp [Spelling.text, signText]

/-- The cell of a value is where the value goes. -/
theorem placed_cell? (v : Option Json) :
    Placed v ((v.bind cell?).bind Cell.integer?) ((v.bind cell?).bind Cell.text?) := by
  rcases v with _ | (_ | b | ⟨n, fits⟩ | x | s | vs | ms)
  · exact .absent
  · exact .null
  · cases b <;> exact .bool _
  · rw [Option.bind_some, cell?_int, compact_int]
    cases hn : signed64? n with
    | none =>
      refine .largeInt (Int.not_lt.1 fun hlt => ?_)
      exact signed64?_eq_none_iff.1 hn ⟨fits.1, hlt⟩
    | some m =>
      obtain ⟨rfl, -, hhigh⟩ := signed64?_eq_some_iff.1 hn
      exact .int hhigh
  · rw [Option.bind_some, cell?_float]
    cases hn : signed64? x.trunc with
    | none => exact .farFloat (signed64?_eq_none_iff.1 hn)
    | some m =>
      obtain ⟨rfl, hlow, hhigh⟩ := signed64?_eq_some_iff.1 hn
      exact .float hlow hhigh
  · rw [Option.bind_some, cell?_str]
    cases hn : (readSigned (trim s.toList)).bind signed64? with
    | none =>
      refine .text fun n hspells => ?_
      rw [trimmedInt_eq_some_iff.2 hspells] at hn
      cases hn
    | some n => exact .spelled (trimmedInt_eq_some_iff.1 hn)
  · exact .arr vs
  · exact .obj ms

/-- Each value that is not null goes to one place. -/
theorem Placed.isSome_iff {v : Option Json} {n : Option Int} {s : Option String}
    (h : Placed v n s) :
    (n.isSome = true ∨ s.isSome = true ↔ ∃ w, v = some w ∧ w ≠ .null) ∧
      ¬(n.isSome = true ∧ s.isSome = true) := by
  cases h <;> simp

/-! ## All fields -/

theorem get?_integer_put (s : Sample) (f : String × Json) (name : String) :
    (s.put f).integer.get? name =
      if f.1 = name then ((cell? f.2).bind Cell.integer?).or (s.integer.get? name)
      else s.integer.get? name := by
  unfold Sample.put
  split
  · next hcell => simp [hcell]
  · next n hcell => simp [hcell, Fields.get?_insert, Cell.integer?]
  · next t hcell => simp [hcell, Cell.integer?]

theorem get?_string_put (s : Sample) (f : String × Json) (name : String) :
    (s.put f).string.get? name =
      if f.1 = name then ((cell? f.2).bind Cell.text?).or (s.string.get? name)
      else s.string.get? name := by
  unfold Sample.put
  split
  · next hcell => simp [hcell]
  · next n hcell => simp [hcell, Cell.text?]
  · next t hcell => simp [hcell, Fields.get?_insert, Cell.text?]

theorem ascending_put {s : Sample} (hinteger : s.integer.Ascending) (hstring : s.string.Ascending)
    (f : String × Json) : (s.put f).integer.Ascending ∧ (s.put f).string.Ascending := by
  unfold Sample.put
  split
  · exact ⟨hinteger, hstring⟩
  · exact ⟨Fields.ascending_insert hinteger _ _, hstring⟩
  · exact ⟨hinteger, Fields.ascending_insert hstring _ _⟩

theorem ascending_foldl_put (raw : Fields Json) {s : Sample} (hinteger : s.integer.Ascending)
    (hstring : s.string.Ascending) :
    (raw.foldl Sample.put s).integer.Ascending ∧ (raw.foldl Sample.put s).string.Ascending := by
  induction raw generalizing s with
  | nil => exact ⟨hinteger, hstring⟩
  | cons f raw ih =>
    obtain ⟨hinteger', hstring'⟩ := ascending_put hinteger hstring f
    exact ih hinteger' hstring'

section

variable {α : Type} {part : Sample → Fields α} {cellPart : Cell → Option α}
  (hput : ∀ (s : Sample) (f : String × Json) (name : String), (part (s.put f)).get? name =
    if f.1 = name then ((cell? f.2).bind cellPart).or ((part s).get? name) else (part s).get? name)
include hput

/-- What fields make of a part that each of them changes under its own name only. -/
theorem get?_foldl_put {raw : Fields Json} (h : raw.Ascending) (s : Sample) (name : String) :
    (part (raw.foldl Sample.put s)).get? name =
      (((raw.get? name).bind cell?).bind cellPart).or ((part s).get? name) := by
  induction raw generalizing s with
  | nil => rfl
  | cons f raw ih =>
    obtain ⟨hlt, hraw⟩ := List.pairwise_cons.1 h
    rw [List.foldl_cons, ih hraw, hput]
    by_cases hname : f.1 = name
    · subst hname
      rw [Fields.get?_eq_none_of_lt hlt, if_pos rfl, Fields.get?, if_pos rfl]
      rfl
    · rw [if_neg hname, Fields.get?, if_neg hname]

end

theorem get?_integer_sample {raw : Fields Json} (h : raw.Ascending) (name : String) :
    (sample raw).integer.get? name = ((raw.get? name).bind cell?).bind Cell.integer? := by
  unfold sample
  rw [get?_foldl_put get?_integer_put h]
  exact Option.or_none

theorem get?_string_sample {raw : Fields Json} (h : raw.Ascending) (name : String) :
    (sample raw).string.get? name = ((raw.get? name).bind cell?).bind Cell.text? := by
  unfold sample
  rw [get?_foldl_put get?_string_put h]
  exact Option.or_none

/-! ## Samples -/

/-- What a sample has from its raw row. -/
structure SampleOf (raw : Fields Json) (s : Sample) : Prop where
  integer_ascending : s.integer.Ascending
  string_ascending : s.string.Ascending
  placed : ∀ name, Placed (raw.get? name) (s.integer.get? name) (s.string.get? name)
  covers : ∀ name, name ∈ s.integer.names ∨ name ∈ s.string.names ↔
    ∃ v, raw.get? name = some v ∧ v ≠ .null
  disjoint : ∀ name, ¬(name ∈ s.integer.names ∧ name ∈ s.string.names)
  text_iff : ∀ name t, raw.get? name = some (.str t) →
    ∀ n, s.integer.get? name = some n ↔ Spells t n

theorem sampleOf_sample {raw : Fields Json} (h : raw.Ascending) : SampleOf raw (sample raw) := by
  have hplaced : ∀ name, Placed (raw.get? name) ((sample raw).integer.get? name)
      ((sample raw).string.get? name) := by
    intro name
    rw [get?_integer_sample h, get?_string_sample h]
    exact placed_cell? _
  obtain ⟨hinteger, hstring⟩ := ascending_foldl_put raw (s := ⟨[], []⟩) .nil .nil
  refine ⟨hinteger, hstring, hplaced, fun name => ?_, fun name => ?_, fun name t ht n => ?_⟩
  · rw [← Fields.isSome_get?_iff, ← Fields.isSome_get?_iff]
    exact (hplaced name).isSome_iff.1
  · rw [← Fields.isSome_get?_iff, ← Fields.isSome_get?_iff]
    exact (hplaced name).isSome_iff.2
  · rw [get?_integer_sample h, ht, Option.bind_some, cell?_str, Option.bind_some, Cell.integer?_pick]
    exact trimmedInt_eq_some_iff

/--
**The samples view splits every raw row.** It has one sample for each raw row, in order. Each field
that is not null is in one of the two parts of its sample, by its own value, and nothing else is
there: a text is among the integers exactly if it spells one, and else among the texts as it is; an
integer of sixty-four bits is among the integers, and a greater one is written out with all its
digits.
-/
theorem samples_split {raws : List (Fields Json)} (h : ∀ raw ∈ raws, raw.Ascending) :
    ∃ ss, samples (.arr (raws.map .obj)) = .ok ss ∧ List.Forall₂ SampleOf raws ss := by
  refine ⟨raws.map sample, ?_, ?_⟩
  · unfold samples
    rw [rowObjects_arr]
    rfl
  · rw [List.forall₂_map_right_iff, List.forall₂_same]
    exact fun raw hraw => sampleOf_sample (h raw hraw)

/--
Of this row the numeral with blanks around it is among the integers, and the integer that does not
fit is among the texts.
-/
theorem samples_split_mixed_row :
    let raw : Fields Json := [("bytes", .int 18446744073709551615 (by decide)), ("gone", .null),
      ("name", .str "7a"), ("port", .int 80 (by decide)), ("status", .str " -0042\n")]
    let s : Sample := ⟨[("port", 80), ("status", -42)],
      [("bytes", "18446744073709551615"), ("name", "7a")]⟩
    raw.Ascending ∧ samples (.arr [.obj raw]) = .ok [s] ∧ SampleOf raw s := by
  intro raw s
  have hraw : raw.Ascending := by decide +kernel
  have hs : samples (.arr [.obj raw]) = .ok [s] := by decide +kernel
  obtain ⟨ss, hss, hall⟩ := samples_split (List.forall_mem_singleton.2 hraw)
  rw [List.map_singleton, hs] at hss
  cases hss
  obtain ⟨hsample, -⟩ := List.forall₂_cons.1 hall
  exact ⟨hraw, hs, hsample⟩

end StoreGateway.Query
