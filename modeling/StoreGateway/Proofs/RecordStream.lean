import StoreGateway.CommandLine.Run
import StoreGateway.Proofs.Encoding
import StoreGateway.Proofs.Pieces
import StoreGateway.Proofs.ReadValues
import StoreGateway.Proofs.ScaledNumbers

/-!
# Record streams are read back

A record is written without any control character, so its line ends where its line feed stands, and
it shows more than blanks, so its line is not skipped. So every stream falls into the lines of its
records, and all of these are read back if each of them is.

* `recordBytes`, `streamBytes`: the encoding of a record and of a stream;
* `Lined`: a stream has one line for each record;
* `Carried`: it is also read back, by the command line too;
* `readRecords_writeRecords_iff`: exactly the readable records are read back from their stream;
* `wellFormed_of_readRecords`: all records that are read are well-formed;
* `records_carried`: exactly the readable records are carried.
-/

namespace StoreGateway.Command

open StoreGateway.Text StoreGateway.Number StoreGateway.CommandLine StoreGateway.Settings

/-! ## Bytes of a text -/

/-- The bytes of a text. -/
def textBytes (cs : List Char) : List UInt8 :=
  (String.ofList cs).toUTF8.data.toList

theorem textBytes_eq (cs : List Char) : textBytes cs = cs.flatMap String.utf8EncodeChar := by
  rw [textBytes, bytes_eq, String.toList_ofList]

theorem textBytes_append (cs ds : List Char) : textBytes (cs ++ ds) = textBytes cs ++ textBytes ds := by
  simp [textBytes_eq]

theorem textBytes_lineFeed : textBytes ['\n'] = [0x0A] := by
  rw [textBytes_eq]
  rfl

theorem mem_textBytes {cs : List Char} {b : UInt8} (hb : b.toNat < 128) (h : b ∈ textBytes cs) :
    ∃ c ∈ cs, c.toNat = b.toNat := by
  rw [textBytes_eq] at h
  obtain ⟨c, hc, hmem⟩ := List.mem_flatMap.1 h
  exact ⟨c, hc, mem_utf8EncodeChar hb hmem⟩

/-! ## Streams -/

def recordBytes (v : Json) : List UInt8 :=
  textBytes v.chars

/-- The bytes that are written for a stream. -/
def streamBytes (vs : List Json) : ByteArray :=
  (String.ofList (writeRecords vs)).toUTF8

/-- A stream has one line for each record, and no line is broken. -/
structure Lined (vs : List Json) : Prop where
  lines : (streamBytes vs).data.toList = (vs.map recordBytes).flatMap (· ++ [0x0A])
  unbroken : ∀ v ∈ vs, 0x0A ∉ recordBytes v ∧ 0x0D ∉ recordBytes v

/-- The records are also read back in order, and a command that is given the stream writes them. -/
structure Carried (vs : List Json) : Prop extends Lined vs where
  readBack : readRecords (writeRecords vs) = .ok vs
  requested (h : Host) (c : Config) (dataset subset : String) :
    request { h with stdin := streamBytes vs } c (.ingest dataset subset standardInput) =
      .ok (.add dataset subset vs)

theorem writeRecords_eq (vs : List Json) :
    writeRecords vs = (vs.map Json.chars).flatMap (· ++ ['\n']) := by
  rw [List.flatMap_map]
  rfl

theorem bytes_writeRecords (vs : List Json) :
    textBytes (writeRecords vs) = (vs.map recordBytes).flatMap (· ++ [0x0A]) := by
  induction vs with
  | nil => rfl
  | cons v vs ih =>
    show textBytes (recordLine v ++ writeRecords vs) = _
    rw [textBytes_append, ih, recordLine, textBytes_append, textBytes_lineFeed]
    rfl

theorem le_of_mem_chars {v : Json} {c : Char} (h : c ∈ v.chars) : 0x20 ≤ c.toNat := by
  obtain ⟨t, ht, hc⟩ := List.mem_flatMap.1 h
  exact Json.Token.le_of_mem_text ((Json.written_tokens v).writable t ht) hc

theorem not_mem_chars {v : Json} {c : Char} (h : c.toNat < 0x20) : c ∉ v.chars := fun hc =>
  absurd (le_of_mem_chars hc) (Nat.not_le.2 h)

theorem not_mem_recordBytes {v : Json} {b : UInt8} (h : b.toNat < 0x20) : b ∉ recordBytes v := by
  intro hb
  obtain ⟨c, hc, heq⟩ := mem_textBytes (by omega) hb
  exact not_mem_chars (by omega) hc

/-- A record is no blank line. -/
theorem not_blank_chars (v : Json) : blank v.chars = false := by
  obtain ⟨t, ts, hts, -⟩ := v.exists_head_tokens
  have ht := (Json.written_tokens v).writable t (hts ▸ List.mem_cons_self)
  obtain ⟨c, hc, hshown⟩ := Json.Token.exists_mem_text ht
  have hmem : c ∈ v.chars := List.mem_flatMap.2 ⟨t, hts ▸ List.mem_cons_self, hc⟩
  exact List.all_eq_false.2 ⟨c, hmem, by simp [hshown]⟩

theorem lines_writeRecords (vs : List Json) : lines (writeRecords vs) = vs.map Json.chars := by
  rw [writeRecords_eq]
  refine lines_flatMap fun l hl => ?_
  obtain ⟨v, -, rfl⟩ := List.mem_map.1 hl
  exact ⟨not_mem_chars (by decide), not_mem_chars (by decide)⟩

/-! ## Reading -/

/-- Numbered lines are read exactly when each of them is. -/
theorem readNumbered_eq_ok_iff {ls : List (List Char × Nat)} {vs : List Json} :
    readNumbered ls = .ok vs ↔ ls.map (fun l => Json.read l.1) = vs.map some := by
  induction ls generalizing vs with
  | nil =>
    rw [readNumbered, Except.ok.injEq, List.map_nil, eq_comm, eq_comm (a := []), List.map_eq_nil_iff]
  | cons l ls ih =>
    unfold readNumbered
    rw [List.map_cons]
    cases hline : Json.read l.1 with
    | none =>
      refine iff_of_false nofun fun h => ?_
      cases vs with
      | nil => cases h
      | cons w ws => cases (List.cons.inj h).1
    | some v =>
      cases hrest : readNumbered ls with
      | ok us =>
        have hus := ih.1 hrest
        show Except.ok (v :: us) = .ok vs ↔ _
        rw [hus, Except.ok.injEq, ← List.map_cons,
          (List.map_injective_iff.2 (Option.some_injective Json)).eq_iff]
      | error n =>
        refine iff_of_false nofun fun h => ?_
        cases vs with
        | nil => cases h
        | cons w ws =>
          rw [ih.2 (List.cons.inj h).2] at hrest
          cases hrest

/-- Exactly the readable records are read back from their stream. -/
theorem readRecords_writeRecords_iff {vs : List Json} :
    readRecords (writeRecords vs) = .ok vs ↔ ∀ v ∈ vs, v.Readable Spelling.scaled := by
  have hkept : (((vs.map Json.chars).zipIdx 1).filter fun l => !blank l.1) =
      (vs.map Json.chars).zipIdx 1 := by
    refine List.filter_eq_self.2 fun l hl => ?_
    obtain ⟨v, -, heq⟩ := List.mem_map.1 (List.fst_mem_of_mem_zipIdx hl)
    rw [← heq, not_blank_chars]
    rfl
  have hread : ((vs.map Json.chars).zipIdx 1).map (fun l => Json.read l.1) =
      vs.map fun v => Json.read v.chars := by
    calc ((vs.map Json.chars).zipIdx 1).map (fun l => Json.read l.1)
        = (((vs.map Json.chars).zipIdx 1).map Prod.fst).map Json.read := List.map_map.symm
      _ = vs.map fun v => Json.read v.chars := by rw [List.zipIdx_map_fst, List.map_map]; rfl
  unfold readRecords
  rw [lines_writeRecords, hkept, readNumbered_eq_ok_iff, hread, List.map_inj_left]
  exact forall₂_congr fun v _ => Json.readWith_chars_iff

/-- All records that are read are well-formed. -/
theorem wellFormed_of_readRecords {cs : List Char} {vs : List Json} (h : readRecords cs = .ok vs) :
    ∀ v ∈ vs, v.WellFormed := by
  intro v hv
  have hmem := List.mem_map_of_mem (f := some) hv
  rw [← readNumbered_eq_ok_iff.1 h] at hmem
  obtain ⟨l, -, hread⟩ := List.mem_map.1 hmem
  exact Json.wellFormed_of_readWith hread

theorem readInput_streamBytes (h : Host) (vs : List Json) :
    readInput { h with stdin := streamBytes vs } standardInput = .ok (String.ofList (writeRecords vs)) := by
  have htext : String.fromUTF8? (streamBytes vs) = some (String.ofList (writeRecords vs)) :=
    dif_pos (String.ofList (writeRecords vs)).isValidUTF8
  unfold readInput readInputBytes
  rw [if_pos rfl]
  simp only [Except.bind, htext]

theorem lined (vs : List Json) : Lined vs where
  lines := bytes_writeRecords vs
  unbroken _ _ := ⟨not_mem_recordBytes (by decide), not_mem_recordBytes (by decide)⟩

theorem carried_of_readable {vs : List Json} (h : ∀ v ∈ vs, v.Readable Spelling.scaled) :
    Carried vs where
  toLined := lined vs
  readBack := readRecords_writeRecords_iff.2 h
  requested host c dataset subset := by
    unfold request
    dsimp only
    rw [readInput_streamBytes]
    show ((readRecords (String.ofList (writeRecords vs)).toList).mapError badRecord).map _ = _
    rw [String.toList_ofList, readRecords_writeRecords_iff.2 h]
    rfl

/-- Records that were read are carried if their doubles are read back. -/
theorem carried_of_readRecords {cs : List Char} {vs : List Json} (h : readRecords cs = .ok vs)
    (hdurable : ∀ v ∈ vs, v.Durable Spelling.scaled) : Carried vs :=
  carried_of_readable fun v hv => ⟨wellFormed_of_readRecords h v hv, hdurable v hv⟩

/--
**Record streams are read back.**

* Every stream has one line for each record, and no line is broken.
* Records are carried exactly if each has its names in order, is nested no deeper than is read, and
  has only doubles that are read back.
* Records that were read from a text are carried exactly if their doubles are read back.
* Doubles with a short spelling are read back, as are integers, of which nothing is asked.
-/
theorem records_carried :
    (∀ vs, Lined vs) ∧
    (∀ vs, Carried vs ↔ ∀ v ∈ vs, v.Readable Spelling.scaled) ∧
    (∀ cs vs, readRecords cs = .ok vs → (Carried vs ↔ ∀ v ∈ vs, v.Durable Spelling.scaled)) ∧
    ∀ v : Json, (∀ x ∈ v.doubles, (Json.floatSpelling x).Short) → v.Durable Spelling.scaled := by
  have hreadable {vs : List Json} (h : Carried vs) : ∀ v ∈ vs, v.Readable Spelling.scaled :=
    readRecords_writeRecords_iff.1 h.readBack
  refine ⟨lined, fun vs => ⟨hreadable, carried_of_readable⟩, fun cs vs hread => ?_, ?_⟩
  · exact ⟨fun h v hv => (hreadable h v hv).durable, carried_of_readRecords hread⟩
  · intro v hshort x hx
    rw [Spelling.scaled_eq_round (hshort x hx)]
    exact v.durable_round x hx

/-- A record with line breaks in a name and in a value, and a record that is a blank text. -/
def brokenRecords : List Json :=
  [.obj [("a\n", .str "\r\n\"\x01"), ("b", .arr [.float (.zero true), .int (-5) (by decide)])], .str " "]

/-- The double that `5e32` is read as, which is written `5.0000000000000004e+32`. -/
def neighbour : Finite :=
  ⟨false, 6938893903907229, 56, by decide⟩

/--
These records are carried, and so are records between blank lines and line ends of both kinds. A
record is not if its number, once read, is written so that it reads as another one.
-/
theorem brokenRecords_carried :
    (∀ v ∈ brokenRecords, v.Readable Spelling.scaled) ∧ Carried brokenRecords ∧
      readRecords " \n[-5]\r\n\n\" \"".toList = .ok [.arr [.int (-5) (by decide)], .str " "] ∧
      Carried [.arr [.int (-5) (by decide)], .str " "] ∧
      readRecords "5e32".toList = .ok [.float neighbour] ∧ ¬Carried [.float neighbour] := by
  have hdurable : ∀ v ∈ brokenRecords, v.Durable Spelling.scaled := by
    intro v hv
    rcases List.mem_pair.1 hv with rfl | rfl
    · exact List.forall_mem_singleton.2 (by decide +kernel)
    · exact fun _ hx => absurd hx List.not_mem_nil
  have hreadable : ∀ v ∈ brokenRecords, v.Readable Spelling.scaled := by
    intro v hv
    refine ⟨?_, hdurable v hv⟩
    rcases List.mem_pair.1 hv with rfl | rfl
    · exact ⟨⟨by decide, trivial, ⟨trivial, trivial, trivial⟩, trivial⟩, by decide⟩
    · exact ⟨trivial, by decide⟩
  have hkept : ((lines " \n[-5]\r\n\n\" \"".toList).zipIdx 1).filter (fun l => !blank l.1) =
      [(['[', '-', '5', ']'], 2), (['"', ' ', '"'], 4)] := by decide +kernel
  have hread : readRecords " \n[-5]\r\n\n\" \"".toList =
      .ok [.arr [.int (-5) (by decide)], .str " "] := by
    unfold readRecords
    rw [hkept]
    rfl
  have hintegers : ∀ v ∈ [Json.arr [.int (-5) (by decide)], .str " "],
      v.Durable Spelling.scaled := by
    intro v hv
    rcases List.mem_pair.1 hv with rfl | rfl <;> exact fun _ hx => absurd hx List.not_mem_nil
  have hneighbour : readRecords "5e32".toList = .ok [.float neighbour] := by decide +kernel
  have hlost : (Json.floatSpelling neighbour).scaled ≠ .finite neighbour := by decide +kernel
  obtain ⟨-, hcarried, hagain, -⟩ := records_carried
  exact ⟨hreadable, (hcarried brokenRecords).2 hreadable, hread, (hagain _ _ hread).2 hintegers,
    hneighbour, fun h => hlost ((hagain _ _ hneighbour).1 h _ List.mem_cons_self _ List.mem_cons_self)⟩

end StoreGateway.Command
