import StoreGateway.Proofs.Encoding
import StoreGateway.Proofs.WrittenIntegers
import StoreGateway.Text.Scan

/-!
# Scans stay between characters

A scan goes on only over characters of one byte: signs, digits, points and exponent markers. So the
index in bytes stays between two characters, and what is read there is the first byte of the character
that stands there, even if that one has more bytes.

* `Yields`: a scan is not stopped, gives a result, and looks only where it may;
* `Yields.bind`: scans one after the other;
* `yields_next`, `yields_byteIs`, `yields_textFrom`, `yields_textTo`: steps where a scan has arrived;
* `yields_behindSign`, `yields_behindDigits`: the index behind a sign and behind digits.
-/

namespace StoreGateway.Text

open StoreGateway.Number

/-- A scan that is not stopped, gives `a`, and looks only where it may. -/
structure Yields {α : Type} (s : String) (m : Scan α) (a : α) : Prop where
  result : m.result = some a
  sound : ∀ look ∈ m.looks, look.Sound s

section

variable {α β : Type} {s : String}

theorem yields_pure (a : α) : Yields s (pure a) a :=
  ⟨rfl, nofun⟩

theorem Yields.bind {m : Scan α} {f : α → Scan β} {a : α} {b : β} (hm : Yields s m a)
    (hf : Yields s (f a) b) : Yields s (m >>= f) b := by
  obtain ⟨looks, result⟩ := m
  obtain rfl : result = some a := hm.result
  refine ⟨hf.result, fun look hlook => ?_⟩
  rcases List.mem_append.1 hlook with hlook | hlook
  · exact hm.sound look hlook
  · exact hf.sound look hlook

theorem yields_look {look : Look} {a : α} (h : look.Sound s) : Yields s ⟨[look], some a⟩ a := by
  refine ⟨rfl, fun other hother => ?_⟩
  rw [List.mem_singleton.1 hother]
  exact h

theorem yields_sum {m n : Nat} (h : m + n ≤ s.utf8ByteSize) : Yields s (sum m n) (m + n) :=
  yields_look h

/-- The difference of two indices is the length of what is between them. -/
theorem yields_difference (front mid : List Char) :
    Yields s (difference (front ++ mid).length front.length) mid.length := by
  refine ⟨?_, nofun⟩
  show (if _ ≤ _ then some _ else none) = _
  rw [List.length_append, if_pos (Nat.le_add_right _ _), Nat.add_sub_cancel_left]

end

theorem length_lt_append_iff (front mid : List Char) :
    front.length < (front ++ mid).length ↔ mid ≠ [] := by
  rw [List.length_append, Nat.lt_add_right_iff_pos, List.length_pos_iff]

/-! ## Steps -/

section

variable {s : String} {front rest : List Char}

theorem yields_byteAt {c : Char} (h : Walked s front (c :: rest)) :
    Yields s (byteAt s front.length) (leadByte c) := by
  have hlt : front.length < s.utf8ByteSize := h.lt_size_iff.2 (List.cons_ne_nil _ _)
  unfold byteAt
  rw [h.getElem?_eq]
  exact yields_look ⟨hlt, h.isValid⟩

/-- The index behind a character of one byte. -/
theorem yields_next {c : Char} (h : Walked s front (c :: rest)) (hc : c.toNat < 128) :
    Yields s (sum front.length 1) (front ++ [c]).length := by
  have hsize := (h.next hc).le_size
  rw [List.length_append, List.length_singleton] at hsize ⊢
  exact yields_sum hsize

variable (h : Walked s front rest)
include h

theorem yields_cutBytes : Yields s (cutBytes s front.length) () := by
  unfold cutBytes
  rw [if_pos h.le_size]
  exact yields_look ⟨h.le_size, h.isValid⟩

theorem yields_textFrom : Yields s (textFrom s front.length) (String.ofList rest) := by
  have hsplits := (s.pos ⟨front.length⟩ h.isValid).splits
  unfold textFrom
  rw [dif_pos h.isValid, hsplits.eq_right h.splits]
  exact yields_look ⟨h.le_size, h.isValid⟩

theorem yields_textTo : Yields s (textTo s front.length) (String.ofList front) := by
  have hsplits := (s.pos ⟨front.length⟩ h.isValid).splits
  unfold textTo
  rw [dif_pos h.isValid, hsplits.eq_left h.splits]
  exact yields_look ⟨h.le_size, h.isValid⟩

/-- A test that tells the character from its first byte is a test of the character at the index. -/
theorem yields_byteIs {p : UInt8 → Bool} {q : Char → Bool} (hpq : ∀ c, p (leadByte c) = q c) :
    Yields s (byteIs s p front.length) (rest.head?.any q) := by
  unfold byteIs
  cases rest with
  | nil =>
    rw [if_neg fun hlt => h.lt_size_iff.1 hlt rfl]
    exact yields_pure false
  | cons c rest =>
    rw [if_pos (h.lt_size_iff.2 (List.cons_ne_nil _ _))]
    apply (yields_byteAt h).bind
    rw [hpq c]
    exact yields_pure (q c)

end

/-! ## Signs and digits -/

theorem isDigitByte_leadByte (c : Char) : isDigitByte (leadByte c) = c.isDigit := by
  have hbyte : isDigitByte (leadByte c) = true ↔
      48 ≤ (leadByte c).toNat ∧ (leadByte c).toNat ≤ 57 := by
    unfold isDigitByte
    rw [Bool.and_eq_true, decide_eq_true_eq, decide_eq_true_eq]
    exact Iff.rfl
  have hlead := toNat_leadByte_cases c
  rw [Bool.eq_iff_iff, hbyte, isDigit_iff]
  omega

theorem isSignByte_leadByte (c : Char) :
    isSignByte (leadByte c) = (decide (c = '+') || decide (c = '-')) := by
  have hplus : leadByte c = '+'.toUInt8 ↔ c = '+' := leadByte_eq_iff (by decide)
  have hminus : leadByte c = '-'.toUInt8 ↔ c = '-' := leadByte_eq_iff (by decide)
  unfold isSignByte
  rw [decide_eq_decide.2 hplus, decide_eq_decide.2 hminus]

theorem lt_of_mem_signText {sign : Sign} {c : Char} (hc : c ∈ signText sign) : c.toNat < 128 := by
  cases sign with
  | absent => cases hc
  | plus =>
    rw [List.mem_singleton.1 hc]
    decide
  | minus =>
    rw [List.mem_singleton.1 hc]
    decide

section

variable {s : String} {front rest : List Char} (h : Walked s front rest)
include h

theorem Walked.behindSign : Walked s (front ++ signText (takeSign rest).1) (takeSign rest).2 := by
  apply Walked.onward
  · rw [signText_takeSign]
    exact h
  · intro c hc
    exact lt_of_mem_signText hc

theorem Walked.behindDigits :
    Walked s (front ++ rest.takeWhile Char.isDigit) (rest.dropWhile Char.isDigit) := by
  apply Walked.onward
  · rw [List.takeWhile_append_dropWhile]
    exact h
  · intro c hc
    exact lt_of_isDigit (List.mem_takeWhile_imp hc)

theorem yields_behindSign :
    Yields s (behindSign s front.length) (front ++ signText (takeSign rest).1).length := by
  apply (yields_byteIs h isSignByte_leadByte).bind
  cases rest with
  | nil =>
    show Yields s (pure front.length) (front ++ []).length
    rw [List.append_nil]
    exact yields_pure _
  | cons c rest =>
    by_cases hsign : c = '+' ∨ c = '-'
    · rw [if_pos (by simpa using hsign)]
      rcases hsign with rfl | rfl
      · exact yields_next h (by decide)
      · exact yields_next h (by decide)
    · have habsent : takeSign (c :: rest) = (.absent, c :: rest) := by
        apply takeSign_absent
        intro d hd
        rw [← Option.some.inj hd]
        exact not_or.1 hsign
      rw [habsent, if_neg (by simpa using hsign), signText, List.append_nil]
      exact yields_pure _

end

/--
The index behind the digits is where the digits end. The induction is on what is in front of the loop;
each round puts one digit behind it, so the loop stays where characters of one byte end.
-/
theorem yields_behindDigits {s : String} {front rest : List Char} (h : Walked s front rest) :
    Yields s (behindDigits s front.length) (front ++ rest.takeWhile Char.isDigit).length := by
  induction rest generalizing front with
  | nil =>
    rw [behindDigits, dif_neg fun hlt => h.lt_size_iff.1 hlt rfl, List.takeWhile_nil, List.append_nil]
    exact yields_pure _
  | cons c rest ih =>
    rw [behindDigits, dif_pos (h.lt_size_iff.2 (List.cons_ne_nil _ _))]
    apply (yields_byteAt h).bind
    rw [isDigitByte_leadByte]
    cases hc : c.isDigit with
    | false =>
      rw [List.takeWhile_cons_of_neg (by simp [hc]), List.append_nil]
      exact yields_pure _
    | true =>
      have hnarrow := lt_of_isDigit hc
      have htail := ih (h.next hnarrow)
      rw [List.append_assoc, List.length_append, List.length_singleton] at htail
      rw [List.takeWhile_cons_of_pos hc]
      exact (yields_next h hnarrow).bind htail

end StoreGateway.Text
