import Mathlib.Data.List.Basic
import StoreGateway.Text.Numeral

/-!
# Characters and their bytes

A character below 128 is written as one byte, its number. All bytes of another character are 128 or
more, so what a byte below 128 says of itself it says of the character that stands there.

* `bytes_eq`: the bytes of a text are those of its characters, one after the other;
* `mem_utf8EncodeChar`: a byte below 128 encodes the character of its number;
* `leadByte`: the first byte of a character, and what it tells of the character;
* `Walked`: a text cut behind characters of one byte each, where index and length are the same.
-/

namespace StoreGateway.Text

/-- The bytes of a text. -/
theorem bytes_eq (s : String) : s.toUTF8.data.toList = s.toList.flatMap String.utf8EncodeChar := by
  have hbytes : s.toUTF8 = s.toList.utf8Encode := by
    rw [String.toUTF8_eq_toByteArray, ← String.toByteArray_ofList, String.ofList_toList]
  rw [hbytes]
  exact List.toList_data_toByteArray

theorem utf8ByteSize_eq (s : String) :
    s.utf8ByteSize = (s.toList.flatMap String.utf8EncodeChar).length := by
  rw [← bytes_eq]
  exact String.size_toByteArray.symm

theorem getElem?_bytes (s : String) (i : Nat) :
    s.toUTF8[i]? = (s.toList.flatMap String.utf8EncodeChar)[i]? := by
  rw [← bytes_eq, Array.getElem?_toList]
  rfl

/-- A byte below 128 encodes the character of its number and is part of no other. -/
theorem mem_utf8EncodeChar {c : Char} {b : UInt8} (hb : b.toNat < 128)
    (h : b ∈ String.utf8EncodeChar c) : c.toNat = b.toNat := by
  have hval : c.val.toNat = c.toNat := rfl
  unfold String.utf8EncodeChar at h
  rw [hval] at h
  dsimp only at h
  split at h
  · next hle =>
    rw [List.mem_singleton.1 h, UInt8.toNat_ofNat']
    omega
  · split at h
    · simp only [List.mem_cons, List.not_mem_nil, or_false] at h
      rcases h with rfl | rfl <;> rw [UInt8.toNat_ofNat'] at hb <;> omega
    · split at h <;> simp only [List.mem_cons, List.not_mem_nil, or_false] at h
      · rcases h with rfl | rfl | rfl <;> rw [UInt8.toNat_ofNat'] at hb <;> omega
      · rcases h with rfl | rfl | rfl | rfl <;> rw [UInt8.toNat_ofNat'] at hb <;> omega

/-! ## First bytes -/

/-- The first byte of a character. -/
def leadByte (c : Char) : UInt8 :=
  (String.utf8EncodeChar c).head String.utf8EncodeChar_ne_nil

theorem leadByte_mem (c : Char) : leadByte c ∈ String.utf8EncodeChar c :=
  List.head_mem _

theorem encode_of_lt {c : Char} (h : c.toNat < 128) : String.utf8EncodeChar c = [c.toUInt8] :=
  String.utf8EncodeChar_eq_singleton (Char.utf8Size_eq_one_iff.2 (Nat.le_of_lt_succ h))

theorem leadByte_of_lt {c : Char} (h : c.toNat < 128) : leadByte c = c.toUInt8 := by
  have hmem := leadByte_mem c
  rw [encode_of_lt h] at hmem
  exact List.mem_singleton.1 hmem

theorem toNat_toUInt8 {c : Char} (h : c.toNat < 128) : c.toUInt8.toNat = c.toNat := by
  show c.toNat % 256 = c.toNat
  omega

/-- The first byte is the number of the character, or both are 128 or more. -/
theorem toNat_leadByte_cases (c : Char) :
    (leadByte c).toNat = c.toNat ∨ 128 ≤ (leadByte c).toNat ∧ 128 ≤ c.toNat := by
  by_cases hc : c.toNat < 128
  · rw [leadByte_of_lt hc]
    exact .inl (toNat_toUInt8 hc)
  · by_cases hlead : (leadByte c).toNat < 128
    · exact .inl (mem_utf8EncodeChar hlead (leadByte_mem c)).symm
    · omega

/-- A character below 128 is known by its byte. -/
theorem leadByte_eq_iff {a c : Char} (ha : a.toNat < 128) : leadByte c = a.toUInt8 ↔ c = a := by
  constructor
  · intro h
    have hlead : (leadByte c).toNat = a.toNat := by rw [h, toNat_toUInt8 ha]
    have hcases := toNat_leadByte_cases c
    have hc : c.toNat = a.toNat := by omega
    exact Char.ext (UInt32.toNat_inj.1 hc)
  · rintro rfl
    exact leadByte_of_lt ha

theorem isDigit_iff {c : Char} : c.isDigit = true ↔ 48 ≤ c.toNat ∧ c.toNat ≤ 57 := by
  unfold Char.isDigit
  rw [Bool.and_eq_true, decide_eq_true_eq, decide_eq_true_eq]
  exact Iff.rfl

theorem lt_of_isDigit {c : Char} (h : c.isDigit = true) : c.toNat < 128 := by
  have hrange := isDigit_iff.1 h
  omega

/-! ## Texts behind characters of one byte -/

/--
The characters of `front` are of one byte each, and `rest` stands behind them. So the index of `rest` in
bytes is the length of `front`.
-/
structure Walked (s : String) (front rest : List Char) : Prop where
  text : s.toList = front ++ rest
  narrow : ∀ c ∈ front, c.toNat < 128

theorem length_encode {cs : List Char} (h : ∀ c ∈ cs, c.toNat < 128) :
    (cs.flatMap String.utf8EncodeChar).length = cs.length := by
  induction cs with
  | nil => rfl
  | cons c cs ih =>
    obtain ⟨hc, hcs⟩ := List.forall_mem_cons.1 h
    rw [List.flatMap_cons, List.length_append, ih hcs, encode_of_lt hc, List.length_singleton,
      List.length_cons, Nat.add_comm]

namespace Walked

variable {s : String} {front mid rest : List Char}

theorem start (s : String) : Walked s [] s.toList :=
  ⟨rfl, nofun⟩

theorem onward (h : Walked s front (mid ++ rest)) (hmid : ∀ c ∈ mid, c.toNat < 128) :
    Walked s (front ++ mid) rest := by
  refine ⟨by rw [h.text, List.append_assoc], fun c hc => ?_⟩
  rcases List.mem_append.1 hc with hc | hc
  · exact h.narrow c hc
  · exact hmid c hc

theorem next {c : Char} (h : Walked s front (c :: rest)) (hc : c.toNat < 128) :
    Walked s (front ++ [c]) rest :=
  @Walked.onward s front [c] rest h fun _ hd => List.mem_singleton.1 hd ▸ hc

/-- The index in bytes is the length of the front. -/
theorem size_front (h : Walked s front rest) : (String.ofList front).utf8ByteSize = front.length := by
  rw [utf8ByteSize_eq, String.toList_ofList, length_encode h.narrow]

theorem eq_append (h : Walked s front rest) : s = String.ofList front ++ String.ofList rest := by
  rw [← String.ofList_append, ← h.text, String.ofList_toList]

theorem size_eq (h : Walked s front rest) :
    s.utf8ByteSize = front.length + (String.ofList rest).utf8ByteSize := by
  rw [h.eq_append, String.utf8ByteSize_append, h.size_front]

theorem le_size (h : Walked s front rest) : front.length ≤ s.utf8ByteSize := by
  rw [h.size_eq]
  exact Nat.le_add_right _ _

/-- The text goes on exactly if the index is in front of its end. -/
theorem lt_size_iff (h : Walked s front rest) : front.length < s.utf8ByteSize ↔ rest ≠ [] := by
  rw [h.size_eq, Nat.lt_add_right_iff_pos, Nat.pos_iff_ne_zero, ne_eq, String.utf8ByteSize_eq_zero_iff,
    ← String.toList_eq_nil_iff, String.toList_ofList]

/-- The byte at the index is the first byte of the character that stands there. -/
theorem getElem?_eq {c : Char} (h : Walked s front (c :: rest)) :
    s.toUTF8[front.length]? = some (leadByte c) := by
  rw [getElem?_bytes, h.text, List.flatMap_append, List.getElem?_append_right, length_encode h.narrow,
    Nat.sub_self, List.flatMap_cons, ← List.head?_eq_getElem?,
    List.head?_append_of_ne_nil _ String.utf8EncodeChar_ne_nil]
  · exact List.head?_eq_some_head String.utf8EncodeChar_ne_nil
  · exact Nat.le_of_eq (length_encode h.narrow)

/-- The index is between two characters. -/
theorem isValid (h : Walked s front rest) : String.Pos.Raw.IsValid s ⟨front.length⟩ := by
  refine String.Pos.Raw.isValid_iff_exists_append.2 ⟨_, _, h.eq_append, ?_⟩
  rw [← h.size_front]
  rfl

theorem splits (h : Walked s front rest) :
    (s.pos ⟨front.length⟩ h.isValid).Splits (String.ofList front) (String.ofList rest) := by
  refine ⟨h.eq_append, ?_⟩
  exact congrArg String.Pos.Raw.mk h.size_front.symm

end Walked

end StoreGateway.Text
