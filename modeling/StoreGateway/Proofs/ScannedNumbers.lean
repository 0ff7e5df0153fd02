import StoreGateway.Proofs.LongestNumbers
import StoreGateway.Proofs.TextScans
import StoreGateway.Query.Scanning

/-!
# Numbers are scanned between characters

A number at the front of a text is found with an index into the bytes. Behind each of its parts the
index is where the part ends, because all its characters are of one byte. So each scan comes to its end
on every text, and what it gives is the number that is taken off character by character.

* `yields_behindFraction`, `yields_behindExponent`: the index behind these parts;
* `readFloat_text`: the text in front of the last cut is read as the number that it spells;
* `yields_scanTrimmedFloat`, `yields_scanTrimmedInt`: the scans of a text and what they give;
* `numbers_scanned`: the main statement.
-/

namespace StoreGateway.Number.Spelling

open StoreGateway.Text

/-! ## Parts of a number -/

/-- A point belongs to the number if there are digits on either side of it. -/
theorem scanFraction_of_digits {whole cs : List Char}
    (h : whole ≠ [] ∨ cs.takeWhile Char.isDigit ≠ []) :
    scanFraction whole ('.' :: cs) =
      (some (cs.takeWhile Char.isDigit), cs.dropWhile Char.isDigit) := by
  refine if_neg ?_
  rw [Bool.and_eq_true, List.isEmpty_iff, List.isEmpty_iff]
  exact fun hempty => h.elim (absurd hempty.1) (absurd hempty.2)

theorem scanFraction_of_noDigits {whole cs : List Char} (hwhole : whole = [])
    (hcs : cs.takeWhile Char.isDigit = []) : scanFraction whole ('.' :: cs) = (none, '.' :: cs) := by
  refine if_pos ?_
  rw [hwhole, hcs]
  rfl

theorem scanExponent_of_not {c : Char} (hc : isExponentMarker c = false) (cs : List Char) :
    scanExponent (c :: cs) = (none, c :: cs) := by
  refine if_neg ?_
  rw [hc]
  exact Bool.false_ne_true

theorem scanExponent_of_digits {c : Char} {cs : List Char} (hc : isExponentMarker c = true)
    (h : (takeSign cs).2.takeWhile Char.isDigit ≠ []) :
    scanExponent (c :: cs) =
      (some ⟨c, (takeSign cs).1, (takeSign cs).2.takeWhile Char.isDigit⟩,
        (takeSign cs).2.dropWhile Char.isDigit) := by
  refine if_pos ?_
  rw [hc, Bool.true_and, Bool.not_eq_true', List.isEmpty_eq_false_iff]
  exact h

theorem scanExponent_of_noDigits {cs : List Char} (c : Char)
    (h : (takeSign cs).2.takeWhile Char.isDigit = []) : scanExponent (c :: cs) = (none, c :: cs) := by
  unfold scanExponent
  dsimp only
  rw [h, List.isEmpty_nil, Bool.not_true, Bool.and_false]
  exact if_neg Bool.false_ne_true

/-- The digits in front of the point. -/
def wholeOf (cs : List Char) : List Char :=
  (takeSign cs).2.takeWhile Char.isDigit

/-- The fraction behind these digits, and the rest of the text. -/
def fractionOf (cs : List Char) : Option (List Char) × List Char :=
  scanFraction (wholeOf cs) ((takeSign cs).2.dropWhile Char.isDigit)

/-- The number of digits on both sides of the point. -/
def digitCount (cs : List Char) : Nat :=
  (wholeOf cs).length + ((fractionOf cs).1.getD []).length

/-- The parts at the front of a text. -/
def spellingOf (cs : List Char) : Spelling :=
  ⟨(takeSign cs).1, wholeOf cs, (fractionOf cs).1, (scanExponent (fractionOf cs).2).1⟩

/-- Without digits there is no number. -/
theorem scan_of_noDigits {cs : List Char} (h : digitCount cs = 0) : scan cs = none := by
  obtain ⟨hwhole, hfraction⟩ := Nat.add_eq_zero_iff.1 h
  rw [List.length_eq_zero_iff] at hwhole hfraction
  refine if_pos ?_
  show ((wholeOf cs).isEmpty && (fractionOf cs).1.isNone) = true
  cases hf : (fractionOf cs).1 with
  | none =>
    rw [hwhole]
    rfl
  | some f =>
    rw [hf] at hfraction
    exact absurd hfraction (((scanFraction_sound _ _).2 f hf).2 hwhole)

/-- With digits there is one, of the parts that are there. -/
theorem scan_of_digits {cs : List Char} (h : digitCount cs ≠ 0) :
    scan cs = some (spellingOf cs, (scanExponent (fractionOf cs).2).2) := by
  refine if_neg fun hempty => h ?_
  obtain ⟨hwhole, hfraction⟩ := Bool.and_eq_true_iff.1 hempty
  have hlength : (wholeOf cs).length = 0 := List.length_eq_zero_iff.2 (List.isEmpty_iff.1 hwhole)
  have hnone : (fractionOf cs).1 = none := Option.isNone_iff_eq_none.1 hfraction
  unfold digitCount
  rw [hlength, hnone]
  rfl

end StoreGateway.Number.Spelling

namespace StoreGateway.Query

open StoreGateway.Text StoreGateway.Number

/-! ## Points and exponents -/

theorem isPointByte_leadByte (c : Char) : isPointByte (leadByte c) = decide (c = '.') :=
  decide_eq_decide.2 (leadByte_eq_iff (by decide))

theorem isMinusByte_leadByte (c : Char) : isMinusByte (leadByte c) = decide (c = '-') :=
  decide_eq_decide.2 (leadByte_eq_iff (by decide))

theorem isExponentByte_leadByte (c : Char) : isExponentByte (leadByte c) = isExponentMarker c := by
  have hsmall : leadByte c = 'e'.toUInt8 ↔ c = 'e' := leadByte_eq_iff (by decide)
  have hlarge : leadByte c = 'E'.toUInt8 ↔ c = 'E' := leadByte_eq_iff (by decide)
  unfold isExponentByte isExponentMarker
  rw [decide_eq_decide.2 hsmall, decide_eq_decide.2 hlarge]

theorem lt_of_isExponentMarker {c : Char} (h : isExponentMarker c = true) : c.toNat < 128 := by
  have hmarkers : ['e', 'E'].all (fun d => d.toNat < 128) = true := by decide
  exact of_decide_eq_true (List.all_eq_true.1 hmarkers c (isExponentMarker_iff.1 h))

section

variable {s : String} {front rest : List Char} (h : Walked s front rest)
include h

theorem walked_behindFraction (whole : List Char) :
    Walked s (front ++ (Spelling.scanFraction whole rest).1.elim [] ('.' :: ·))
      (Spelling.scanFraction whole rest).2 := by
  obtain ⟨htext, hdigits⟩ := Spelling.scanFraction_sound whole rest
  apply Walked.onward
  · rw [htext]
    exact h
  · cases hf : (Spelling.scanFraction whole rest).1 with
    | none => exact nofun
    | some f =>
      refine List.forall_mem_cons.2 ⟨by decide, fun c hc => ?_⟩
      exact lt_of_isDigit ((hdigits f hf).1 c hc)

theorem walked_behindExponent :
    Walked s (front ++ (Spelling.scanExponent rest).1.elim [] ExponentPart.text)
      (Spelling.scanExponent rest).2 := by
  obtain ⟨htext, hparts⟩ := Spelling.scanExponent_sound rest
  apply Walked.onward
  · rw [htext]
    exact h
  · cases he : (Spelling.scanExponent rest).1 with
    | none => exact nofun
    | some e =>
      obtain ⟨hmarker, hdigits, -⟩ := hparts e he
      refine List.forall_mem_cons.2 ⟨lt_of_isExponentMarker hmarker, fun c hc => ?_⟩
      rcases List.mem_append.1 hc with hc | hc
      · exact lt_of_mem_signText hc
      · exact lt_of_isDigit (hdigits c hc)

/-- The digits of the number are counted, and the index is behind the fraction. -/
theorem yields_behindFraction {whole : List Char} (hwhole : whole.length ≤ front.length) :
    Yields s (behindFraction s whole.length front.length)
      (whole.length + ((Spelling.scanFraction whole rest).1.getD []).length,
        (front ++ (Spelling.scanFraction whole rest).1.elim [] ('.' :: ·)).length) := by
  have hnothing : Yields s (pure (whole.length, front.length))
      (whole.length + 0, (front ++ []).length) := by
    rw [List.append_nil]
    exact yields_pure _
  apply (yields_byteIs h isPointByte_leadByte).bind
  cases rest with
  | nil => exact hnothing
  | cons c rest =>
    by_cases hc : c = '.'
    · subst hc
      have hpoint : Walked s (front ++ ['.']) rest := h.next (by decide)
      have hsize := hpoint.behindDigits.le_size
      have hstop := length_lt_append_iff (front ++ ['.']) (rest.takeWhile Char.isDigit)
      rw [if_pos (by rfl)]
      apply (yields_next h (by decide)).bind
      apply (yields_behindDigits hpoint).bind
      by_cases hany : whole ≠ [] ∨ rest.takeWhile Char.isDigit ≠ []
      · have hsum : whole.length + (rest.takeWhile Char.isDigit).length ≤ s.utf8ByteSize := by
          rw [List.length_append, List.length_append] at hsize
          omega
        rw [Spelling.scanFraction_of_digits hany, if_pos (hany.imp List.length_pos_iff.2 hstop.2)]
        apply (yields_difference _ _).bind
        apply (yields_sum hsum).bind
        rw [List.append_assoc]
        exact yields_pure _
      · obtain ⟨hempty, hnone⟩ := not_or.1 hany
        rw [Spelling.scanFraction_of_noDigits (not_not.1 hempty) (not_not.1 hnone),
          if_neg fun htest => hany (htest.imp List.length_pos_iff.1 hstop.1)]
        exact hnothing
    · rw [Spelling.scanFraction_of_ne hc, if_neg (by simpa using hc)]
      exact hnothing

/-- The index is behind the exponent. -/
theorem yields_behindExponent :
    Yields s (behindExponent s front.length)
      (front ++ (Spelling.scanExponent rest).1.elim [] ExponentPart.text).length := by
  have hnothing : Yields s (pure front.length) (front ++ []).length := by
    rw [List.append_nil]
    exact yields_pure _
  apply (yields_byteIs h isExponentByte_leadByte).bind
  cases rest with
  | nil => exact hnothing
  | cons c rest =>
    cases hc : isExponentMarker c with
    | false =>
      rw [Spelling.scanExponent_of_not hc, if_neg (by simp [hc])]
      exact hnothing
    | true =>
      have hnarrow := lt_of_isExponentMarker hc
      have hmarker := h.next hnarrow
      have hstop := length_lt_append_iff (front ++ [c] ++ signText (takeSign rest).1)
        ((takeSign rest).2.takeWhile Char.isDigit)
      rw [if_pos (by simp [hc])]
      apply (yields_next h hnarrow).bind
      apply (yields_behindSign hmarker).bind
      apply (yields_behindDigits hmarker.behindSign).bind
      by_cases hnone : (takeSign rest).2.takeWhile Char.isDigit = []
      · rw [Spelling.scanExponent_of_noDigits c hnone, if_neg fun htest => hstop.1 htest hnone]
        exact hnothing
      · rw [Spelling.scanExponent_of_digits hc hnone, if_pos (hstop.2 hnone), List.append_assoc,
          List.append_assoc]
        exact yields_pure _

end

/-! ## The text in front of the last cut -/

theorem toLower_ne_of_mem {c : Char} (h : c.isDigit = true ∨ c ∈ ['+', '-', '.', 'e', 'E']) :
    c.toLower ≠ 'n' := by
  have hchars : ("0123456789".toList ++ ['+', '-', '.', 'e', 'E']).all
      (fun d => d.toLower ≠ 'n') = true := by decide
  have hmem : c ∈ "0123456789".toList ++ ['+', '-', '.', 'e', 'E'] :=
    List.mem_append.2 (h.imp_left mem_digitChars.2)
  exact of_decide_eq_true (List.all_eq_true.1 hchars c hmem)

/-- No number is one of the words, as each of these has an `n`. -/
theorem find?_floatWords {s : Spelling} (h : s.WellFormed) :
    floatWords.find? (fun w => w.1 = (s.whole ++ s.tail).map Char.toLower) = none := by
  have hwords : ∀ w ∈ floatWords, 'n' ∈ w.1 := by decide
  rw [List.find?_eq_none]
  intro w hw hword
  have hmem := hwords w hw
  rw [of_decide_eq_true hword] at hmem
  obtain ⟨c, hc, hlower⟩ := List.mem_map.1 hmem
  have htext : c ∈ s.text := by
    rw [Spelling.text_eq]
    exact List.mem_append_right _ hc
  exact toLower_ne_of_mem (Spelling.mem_text h htext) hlower

/-- The text of a number is read as the number that it spells. -/
theorem readFloat_text {s : Spelling} (h : s.WellFormed) : readFloat s.text = some s.round := by
  have hsign := Spelling.takeSign_text_append h []
  rw [List.append_nil, List.append_nil] at hsign
  unfold readFloat
  rw [hsign]
  dsimp only
  rw [find?_floatWords h, Spelling.scan_text h]

/-- A sign and digits are read as the integer that they denote. -/
theorem readSigned_signText {sign : Sign} {ds : List Char} (hne : ds ≠ [])
    (hds : ∀ c ∈ ds, c.isDigit = true) :
    readSigned (signText sign ++ ds) = some (sign.apply (value ds)) := by
  refine readSigned_eq_some_iff.2 ⟨⟨sign, ds, ?_, hne, hds, rfl⟩, noDigit_nil⟩
  rw [List.append_nil]

/-! ## Whole scans -/

theorem head?_any_minus (cs : List Char) :
    (cs.head?.any fun c => decide (c = '-')) = decide ((takeSign cs).1 = .minus) := by
  unfold takeSign
  split
  · rfl
  · rfl
  · next hminus =>
    cases cs with
    | nil => rfl
    | cons c cs =>
      apply decide_eq_false
      rintro rfl
      exact hminus cs rfl

section

variable (s : String)

theorem yields_scanTrimmedInt :
    Yields s (scanTrimmedInt s) ((leadingInt s.toList).bind signed64?) := by
  have hstart := Walked.start s
  have hsign := hstart.behindSign
  have hstop := length_lt_append_iff ([] ++ signText (takeSign s.toList).1)
    ((takeSign s.toList).2.takeWhile Char.isDigit)
  apply (yields_behindSign hstart).bind
  apply (yields_cutBytes hsign).bind
  apply (yields_behindDigits hsign).bind
  by_cases hnone : (takeSign s.toList).2.takeWhile Char.isDigit = []
  · have hread : leadingInt s.toList = none := if_pos (List.isEmpty_iff.2 hnone)
    rw [hread, if_pos (by rw [hnone, List.append_nil])]
    exact yields_pure _
  · have hread : leadingInt s.toList = some ((takeSign s.toList).1.apply
        (value ((takeSign s.toList).2.takeWhile Char.isDigit))) :=
      if_neg fun hempty => hnone (List.isEmpty_iff.1 hempty)
    rw [hread, if_neg (Nat.ne_of_gt (hstop.2 hnone))]
    apply (yields_textTo hsign.behindDigits).bind
    rw [String.toList_ofList, List.nil_append,
      readSigned_signText hnone fun c hc => List.mem_takeWhile_imp hc]
    exact yields_pure _

theorem yields_scanTrimmedFloat {cs : List Char} (hs : s.toList = trimStart cs) :
    Yields s (scanTrimmedFloat s) (floatOfText cs) := by
  have hstart := Walked.start s
  have hsign := hstart.behindSign
  have hwhole := hsign.behindDigits
  have hfraction := walked_behindFraction hwhole (Spelling.wholeOf s.toList)
  have hexponent := walked_behindExponent hfraction
  unfold floatOfText
  rw [← hs]
  apply (yields_behindSign hstart).bind
  apply (yields_textFrom hsign).bind
  rw [String.toList_ofList]
  dsimp only
  by_cases hword : infinityWord.isPrefixOf (takeSign s.toList).2 = true
  · rw [if_pos hword, if_pos hword, ← head?_any_minus]
    exact (yields_byteIs hstart isMinusByte_leadByte).bind (yields_pure _)
  · have hlength : ((takeSign s.toList).2.takeWhile Char.isDigit).length ≤
        ([] ++ signText (takeSign s.toList).1 ++
          (takeSign s.toList).2.takeWhile Char.isDigit).length := by
      rw [List.length_append]
      exact Nat.le_add_left _ _
    rw [if_neg hword, if_neg hword]
    apply (yields_behindDigits hsign).bind
    apply (yields_difference _ _).bind
    apply (yields_behindFraction hwhole hlength).bind
    show Yields s (if Spelling.digitCount s.toList = 0 then _ else _) _
    by_cases hnone : Spelling.digitCount s.toList = 0
    · rw [if_pos hnone, Spelling.scan_of_noDigits hnone]
      exact yields_pure _
    · have hscan := Spelling.scan_of_digits hnone
      have hread := readFloat_text (Spelling.scan_sound hscan).1
      rw [if_neg hnone, hscan]
      apply (yields_behindExponent hfraction).bind
      apply (yields_textTo hexponent).bind
      rw [String.toList_ofList]
      -- What has been walked over is the text of the parts that were found.
      show Yields s (pure ((readFloat (Spelling.spellingOf s.toList).text).getD .nan)) _
      rw [hread]
      exact yields_pure _

end

/--
**Numbers are scanned between characters.** On every text both scans come to their end, and all that
they read and cut is within the text, from its first character that is no blank, and between two
characters. They give the double and the integer that are taken off character by character. An integer
is given exactly if a sign, or none, and digits stand there whose value has sixty-four bits, with all
digits that follow counted in.
-/
theorem numbers_scanned (text : String) :
    Yields (startTrimmed text) (scanFloat text) (lenientFloat (some (.str text))) ∧
    Yields (startTrimmed text) (scanInt text) (lenientInt text) ∧
    ∀ n, (scanInt text).result = some (some n) ↔ LeadsWith text n := by
  have htrimmed : (startTrimmed text).toList = trimStart text.toList := String.toList_ofList
  have hfloat := yields_scanTrimmedFloat (startTrimmed text) htrimmed
  have hint : Yields (startTrimmed text) (scanInt text) (lenientInt text) := by
    have htrim := yields_scanTrimmedInt (startTrimmed text)
    rw [htrimmed] at htrim
    exact htrim
  refine ⟨hfloat, hint, fun n => ?_⟩
  rw [hint.result, Option.some.injEq]
  exact lenientInt_eq_some_iff

/-- The first byte of a character of two bytes is read, and the cut is in front of it. -/
example : scanInt "-é" = ⟨[.byte 0, .sum 1, .cut 1, .byte 1], some none⟩ := by
  decide +kernel

end StoreGateway.Query
