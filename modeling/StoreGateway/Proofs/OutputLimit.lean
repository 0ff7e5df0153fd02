import StoreGateway.Command.Reply
import StoreGateway.Proofs.DocumentText

/-!
# The limit of an output

The output of a program is read no further than one byte past the limit, in whatever pieces it
comes. That byte tells an output that is too long from one that is just long enough, so the beginning of an
output is never taken for all of it.

* `Execution.output`: the bytes of the output, without the complaints in between;
* `readOutput_eq`: what is read is the output up to the bound;
* `readOutput_of_full`: when the bound is reached nothing more is waited for;
* `verdict`, `Execution.reply_eq_verdict`: the reply is that to the output as a whole;
* `output_decides`: the output alone decides on the reply, and the limit is exact.
-/

namespace StoreGateway.Command

/-- What a chunk adds to the output. -/
def Chunk.printed : Chunk → ByteArray
  | .output bytes => bytes
  | .complaint _ => .empty

/-- The output that comes in some chunks. -/
def printed : List Chunk → ByteArray
  | [] => .empty
  | c :: cs => c.printed ++ printed cs

def Execution.output (e : Execution) : ByteArray :=
  printed e.chunks

/-! ## Reading -/

/-- What is cut off at a bound may be cut off sooner. -/
theorem extract_append_extract (a b : ByteArray) (n : Nat) :
    (a.extract 0 n ++ b).extract 0 n = (a ++ b).extract 0 n := by
  have hsize : n - (a.extract 0 n).size = n - a.size := by
    rw [ByteArray.size_extract]
    omega
  rw [ByteArray.extract_append, ByteArray.extract_append, hsize, ByteArray.extract_extract,
    Nat.zero_add, Nat.zero_add, Nat.zero_sub, Nat.zero_sub, Nat.min_self]

theorem extract_append_congr {a b c : ByteArray} {n : Nat}
    (h : b.extract 0 (n - a.size) = c.extract 0 (n - a.size)) :
    (a ++ b).extract 0 n = (a ++ c).extract 0 n := by
  rw [ByteArray.extract_append, ByteArray.extract_append, Nat.zero_sub, h]

theorem extract_of_size_le {a : ByteArray} {n : Nat} (h : a.size ≤ n) : a.extract 0 n = a := by
  have hsplit := ByteArray.extract_append_extract (a := a) (i := 0) (j := a.size) (k := n)
  rw [ByteArray.extract_zero_size, ByteArray.extract_eq_empty_iff.2 (Nat.min_le_right n a.size),
    ByteArray.append_empty, Nat.zero_min, Nat.max_eq_right h] at hsplit
  exact hsplit.symm

/-- **What is read is the output up to the bound, however it is cut in pieces.** -/
theorem readOutput_eq {bound : Nat} {read : ByteArray} (h : read.size ≤ bound)
    (chunks : List Chunk) :
    readOutput bound read chunks = (read ++ printed chunks).extract 0 bound := by
  induction chunks generalizing read with
  | nil =>
    show read = (read ++ ByteArray.empty).extract 0 bound
    rw [ByteArray.append_empty, extract_of_size_le h]
  | cons c cs ih =>
    unfold readOutput
    split
    · next hfull => exact (ByteArray.extract_append_eq_left (Nat.le_antisymm hfull h)).symm
    · cases c with
      | output bytes =>
        have hsize : (read ++ bytes.extract 0 (bound - read.size)).size ≤ bound := by
          rw [ByteArray.size_append, ByteArray.size_extract]
          omega
        have hcut : (bytes.extract 0 (bound - read.size) ++ printed cs).extract 0
            (bound - read.size) = (bytes ++ printed cs).extract 0 (bound - read.size) :=
          extract_append_extract _ _ _
        show readOutput bound (read ++ bytes.extract 0 (bound - read.size)) cs =
          (read ++ (bytes ++ printed cs)).extract 0 bound
        rw [ih hsize, ByteArray.append_assoc]
        exact extract_append_congr hcut
      | complaint bytes =>
        show readOutput bound read cs = (read ++ (ByteArray.empty ++ printed cs)).extract 0 bound
        rw [ih h, ByteArray.empty_append]

/-- When the bound is reached nothing more is waited for. -/
theorem readOutput_of_full {bound : Nat} {read : ByteArray} {chunks : List Chunk}
    (h : bound ≤ (readOutput bound read chunks).size) (more : List Chunk) :
    readOutput bound read (chunks ++ more) = readOutput bound read chunks := by
  induction chunks generalizing read with
  | nil =>
    change bound ≤ read.size at h
    cases more with
    | nil => rfl
    | cons c cs => exact if_pos h
  | cons c cs ih =>
    rw [List.cons_append]
    unfold readOutput at h ⊢
    split
    · rfl
    · next hmore =>
      rw [if_neg hmore] at h
      cases c with
      | output bytes => exact ih h
      | complaint bytes => exact ih h

/-! ## Whole outputs -/

/-- The reply to an output that lies there as a whole. -/
def verdict (limit : Nat) (output : ByteArray) : Except Error Json :=
  if limit < output.size then .error (.outputLimit limit)
  else match Json.readBytes output with
    | some v => .ok v
    | none => .error (.parse "the output is not one JSON text")

theorem verdict_cases (limit : Nat) (output : ByteArray) :
    (limit < output.size ∧ verdict limit output = .error (.outputLimit limit)) ∨
    (output.size ≤ limit ∧ ∃ v, Json.readBytes output = some v ∧ verdict limit output = .ok v) ∨
    (output.size ≤ limit ∧ Json.readBytes output = none ∧
      ∃ cause, verdict limit output = .error (.parse cause)) := by
  unfold verdict
  by_cases hlong : limit < output.size
  · exact .inl ⟨hlong, if_pos hlong⟩
  · rw [if_neg hlong]
    cases hread : Json.readBytes output with
    | some v => exact .inr (.inl ⟨Nat.le_of_not_lt hlong, v, rfl, rfl⟩)
    | none => exact .inr (.inr ⟨Nat.le_of_not_lt hlong, rfl, _, rfl⟩)

section

variable {limit : Nat} {output : ByteArray}

theorem verdict_eq_limit_iff :
    verdict limit output = .error (.outputLimit limit) ↔ limit < output.size := by
  rcases verdict_cases limit output with ⟨hlong, h⟩ | ⟨hshort, v, -, h⟩ | ⟨hshort, -, cause, h⟩
  · exact iff_of_true h hlong
  · exact iff_of_false (by rw [h]; nofun) (Nat.not_lt.2 hshort)
  · exact iff_of_false (by rw [h]; nofun) (Nat.not_lt.2 hshort)

theorem verdict_eq_ok_iff {v : Json} :
    verdict limit output = .ok v ↔ output.size ≤ limit ∧ Json.readBytes output = some v := by
  rcases verdict_cases limit output with ⟨hlong, h⟩ | ⟨hshort, w, hread, h⟩ | ⟨-, hread, cause, h⟩
  · exact iff_of_false (by rw [h]; nofun) fun hok => Nat.not_lt.2 hok.1 hlong
  · rw [h, hread, Except.ok.injEq, Option.some.injEq]
    exact (and_iff_right hshort).symm
  · exact iff_of_false (by rw [h]; nofun) (by rw [hread]; nofun)

theorem exists_verdict_eq_parse_iff :
    (∃ cause, verdict limit output = .error (.parse cause)) ↔
      output.size ≤ limit ∧ Json.readBytes output = none := by
  rcases verdict_cases limit output with ⟨hlong, h⟩ | ⟨-, w, hread, h⟩ | ⟨hshort, hread, h⟩
  · exact iff_of_false (by rw [h]; nofun) fun hok => Nat.not_lt.2 hok.1 hlong
  · exact iff_of_false (by rw [h]; nofun) (by rw [hread]; nofun)
  · exact iff_of_true h ⟨hshort, hread⟩

end

/-- The text of a readable value is read as that value. -/
theorem readBytes_compact {v : Json} (h : v.Readable Number.Spelling.scaled) :
    Json.readBytes v.compact.toUTF8 = some v := by
  have htext : String.fromUTF8? v.compact.toUTF8 = some v.compact := dif_pos v.compact.isValidUTF8
  unfold Json.readBytes Json.read
  rw [htext, Option.bind_some, Json.compact, String.toList_ofList, Json.read_chars h]

theorem readBytes_empty : Json.readBytes .empty = none := by
  decide +kernel

/-! ## Replies -/

section

variable {limit : Nat} (h : limit + 1 < 2 ^ 64) (e : Execution)
include h

/-- The first byte past the limit is read, if there is one. -/
theorem readOutput_readBound :
    readOutput (readBound limit) .empty e.chunks = e.output.extract 0 (limit + 1) := by
  have hbound : readBound limit = limit + 1 := Nat.mod_eq_of_lt h
  rw [hbound, readOutput_eq (Nat.zero_le _), ByteArray.empty_append]
  rfl

/-- **A reply that is read piece by piece is the reply to the whole output.** -/
theorem Execution.reply_eq_verdict : e.reply limit = verdict limit e.output := by
  show verdict limit (readOutput (readBound limit) .empty e.chunks) = verdict limit e.output
  rw [readOutput_readBound h e]
  by_cases hlong : limit < e.output.size
  · have hsize : limit < (e.output.extract 0 (limit + 1)).size := by
      rw [ByteArray.size_extract]
      omega
    rw [verdict_eq_limit_iff.2 hlong, verdict_eq_limit_iff.2 hsize]
  · rw [extract_of_size_le (Nat.le_succ_of_le (Nat.le_of_not_lt hlong))]

/-- An output that is too long is not waited for to its end. -/
theorem readOutput_append_of_long (hlong : limit < e.output.size) (more : List Chunk) :
    readOutput (readBound limit) .empty (e.chunks ++ more) =
      readOutput (readBound limit) .empty e.chunks := by
  refine readOutput_of_full ?_ more
  have hbound : readBound limit = limit + 1 := Nat.mod_eq_of_lt h
  rw [readOutput_readBound h e, hbound, ByteArray.size_extract]
  omega

end

/--
**The output decides, and the limit is exact.** Whatever a program prints and complains of, in
whatever pieces and order, and however it ends:

* its output is refused exactly if it is longer than the limit, whatever it begins with, and nothing
  is waited for beyond the first byte past the limit;
* the value of any other output is the reply, and an output that is not the text of one value, such
  as an empty one, is no reply;
* an output that is a value's own text is replied to with that value, if its doubles are read back;
* programs with the same output get the same reply, and so does every call that starts one of them.
-/
theorem output_decides {limit : Nat} (h : limit + 1 < 2 ^ 64) (e : Execution) :
    (e.reply limit = .error (.outputLimit limit) ↔ limit < e.output.size) ∧
    (limit < e.output.size → ∀ more,
      readOutput (readBound limit) .empty (e.chunks ++ more) =
        readOutput (readBound limit) .empty e.chunks) ∧
    (∀ v, e.reply limit = .ok v ↔ e.output.size ≤ limit ∧ Json.readBytes e.output = some v) ∧
    (∀ v : Json, v.Readable Number.Spelling.scaled → e.output = v.compact.toUTF8 →
      e.output.size ≤ limit → e.reply limit = .ok v) ∧
    ((∃ cause, e.reply limit = .error (.parse cause)) ↔
      e.output.size ≤ limit ∧ Json.readBytes e.output = none) ∧
    (e.output = .empty → ∃ cause, e.reply limit = .error (.parse cause)) ∧
    (∀ other : Execution, other.output = e.output → other.reply limit = e.reply limit) ∧
    ∀ (p : Program) (call : Call), p.output = e.output → call.tool = .query →
      call.arguments.passable = true → Command.reply limit (.ok p) call = e.reply limit := by
  rw [e.reply_eq_verdict h]
  refine ⟨verdict_eq_limit_iff, readOutput_append_of_long h e, fun v => verdict_eq_ok_iff, ?_,
    exists_verdict_eq_parse_iff, ?_, ?_, ?_⟩
  · intro v hv htext hsize
    exact verdict_eq_ok_iff.2 ⟨hsize, by rw [htext, readBytes_compact hv]⟩
  · intro hempty
    rw [exists_verdict_eq_parse_iff, hempty]
    exact ⟨Nat.zero_le limit, readBytes_empty⟩
  · intro other hother
    rw [other.reply_eq_verdict h, hother]
  · intro p call hp htool hpassable
    have hprinted : p.execution.output = e.output := by
      rw [← hp]
      show p.output ++ (ByteArray.empty ++ ByteArray.empty) = p.output
      rw [ByteArray.empty_append, ByteArray.append_empty]
    have hreply : Command.reply limit (.ok p) call = p.execution.reply limit := by
      obtain ⟨tool, arguments, records⟩ := call
      obtain rfl : tool = .query := htool
      exact if_pos hpassable
    rw [hreply, p.execution.reply_eq_verdict h, hprinted]

/-- A program that complains in the middle of its output and fails. -/
def brokenOff : Execution :=
  ⟨[.output "[1".toUTF8, .complaint "slow".toUTF8, .output "]2".toUTF8], 3⟩

/-- The first three bytes are the text of a value, but they are not all, so there is no value. -/
theorem output_decides_broken_off :
    3 + 1 < 2 ^ 64 ∧
      Json.readBytes (brokenOff.output.extract 0 3) = some (.arr [.int 1 (by decide)]) ∧
      brokenOff.reply 3 = .error (.outputLimit 3) ∧
      ∃ cause, brokenOff.reply 4 = .error (.parse cause) := by
  have hlimit : 4 + 1 < 2 ^ 64 := by decide
  refine ⟨by decide, by decide +kernel, ?_, ?_⟩
  · exact (output_decides (by decide) brokenOff).1.2 (by decide)
  · obtain ⟨-, -, -, -, hparse, -⟩ := output_decides hlimit brokenOff
    exact hparse.2 ⟨by decide, by decide +kernel⟩

end StoreGateway.Command
