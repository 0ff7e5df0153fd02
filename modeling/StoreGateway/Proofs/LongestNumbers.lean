import Mathlib.Computability.RegularExpressions
import StoreGateway.Proofs.NearestDecimals
import StoreGateway.Proofs.WrittenIntegers

/-!
# The longest number in front of a text

The form of a number is a regular expression. The scanner takes off sign, digits, fraction and
exponent one after the other, and each of them only if it is whole, so what it takes off has that
form. It is also the longest such prefix: any other one has the same parts up to the place where it
ends, and there the scanner may only go on.

* `numberForm`: the form of a number;
* `mem_numberForm`: what has that form is the text of a spelling, and the other way around;
* `scan_sound`, `scan_append`: what is taken off, and that a number in front is taken off whole;
* `Longest`, `longest_of_scan`, `not_matches_of_scan`: the longest number in front of a text;
* `FloatOf`: the double of a text without blanks in front;
* `float_of_longest_number`: the main statement.
-/

namespace StoreGateway.Number

open StoreGateway.Text

/-! ## The form of a number -/

/-- One of some characters. -/
def oneOf : List Char → RegularExpression Char
  | [] => 0
  | c :: cs => .char c + oneOf cs

def optionalSign : RegularExpression Char :=
  1 + oneOf ['+', '-']

def anyDigits : RegularExpression Char :=
  (oneOf "0123456789".toList).star

def someDigits : RegularExpression Char :=
  oneOf "0123456789".toList * anyDigits

/-- Digits with a point behind, between or in front of them, or without a point. -/
def mantissaForm : RegularExpression Char :=
  someDigits * (1 + .char '.' * anyDigits) + .char '.' * someDigits

def exponentForm : RegularExpression Char :=
  oneOf ['e', 'E'] * (optionalSign * someDigits)

/-- `[+-]? (digits (. digits*)? | . digits) ([eE] [+-]? digits)?` -/
def numberForm : RegularExpression Char :=
  optionalSign * (mantissaForm * (1 + exponentForm))

theorem mem_oneOf {cs p : List Char} : p ∈ (oneOf cs).matches' ↔ ∃ c ∈ cs, p = [c] := by
  induction cs with
  | nil => exact ⟨fun h => absurd h (Language.notMem_zero p), nofun⟩
  | cons c cs ih =>
    have hc : p ∈ ({[c]} : Language Char) ↔ p = [c] := Iff.rfl
    rw [oneOf, RegularExpression.matches'_add, Language.mem_add, RegularExpression.matches'_char, hc,
      ih]
    simp

theorem mem_digitChars {c : Char} : c ∈ "0123456789".toList ↔ c.isDigit = true := by
  constructor
  · have hall : "0123456789".toList.all Char.isDigit = true := by decide
    exact List.all_eq_true.1 hall c
  · intro h
    have hrange : ∀ n ∈ List.range' 48 10, Char.ofNat n ∈ "0123456789".toList := by decide
    rw [Char.isDigit, Bool.and_eq_true, decide_eq_true_eq, decide_eq_true_eq] at h
    have hmem : c.toNat ∈ List.range' 48 10 :=
      List.mem_range'_1.2 ⟨h.1, Nat.lt_succ_of_le h.2⟩
    rw [← Char.ofNat_toNat c]
    exact hrange _ hmem

theorem mem_optionalSign {p : List Char} :
    p ∈ optionalSign.matches' ↔ ∃ s : Sign, signText s = p := by
  rw [optionalSign, RegularExpression.matches'_add, Language.mem_add, mem_oneOf,
    RegularExpression.matches'_epsilon, Language.mem_one]
  constructor
  · rintro (rfl | ⟨c, hc, rfl⟩)
    · exact ⟨.absent, rfl⟩
    · rcases List.mem_cons.1 hc with rfl | hc
      · exact ⟨.plus, rfl⟩
      · rw [List.mem_singleton.1 hc]
        exact ⟨.minus, rfl⟩
  · rintro ⟨_ | _ | _, rfl⟩
    · exact .inl rfl
    · exact .inr ⟨'+', by decide, rfl⟩
    · exact .inr ⟨'-', by decide, rfl⟩

theorem mem_anyDigits {p : List Char} : p ∈ anyDigits.matches' ↔ ∀ c ∈ p, c.isDigit = true := by
  rw [anyDigits, RegularExpression.matches'_star, Language.mem_kstar]
  constructor
  · rintro ⟨parts, rfl, hparts⟩ c hc
    obtain ⟨part, hpart, hc⟩ := List.mem_flatten.1 hc
    obtain ⟨d, hd, rfl⟩ := mem_oneOf.1 (hparts part hpart)
    rw [List.mem_singleton.1 hc]
    exact mem_digitChars.1 hd
  · intro h
    refine ⟨p.map fun c => [c], (List.flatMap_singleton' p).symm, fun part hpart => ?_⟩
    obtain ⟨c, hc, rfl⟩ := List.mem_map.1 hpart
    exact mem_oneOf.2 ⟨c, mem_digitChars.2 (h c hc), rfl⟩

theorem mem_someDigits {p : List Char} :
    p ∈ someDigits.matches' ↔ p ≠ [] ∧ ∀ c ∈ p, c.isDigit = true := by
  rw [someDigits, RegularExpression.matches'_mul, Language.mem_mul]
  constructor
  · rintro ⟨_, hone, ds, hds, rfl⟩
    obtain ⟨c, hc, rfl⟩ := mem_oneOf.1 hone
    exact ⟨List.cons_ne_nil _ _, List.forall_mem_cons.2 ⟨mem_digitChars.1 hc, mem_anyDigits.1 hds⟩⟩
  · rintro ⟨hne, hdigits⟩
    obtain ⟨c, ds, rfl⟩ := List.exists_cons_of_ne_nil hne
    obtain ⟨hc, hds⟩ := List.forall_mem_cons.1 hdigits
    exact ⟨[c], mem_oneOf.2 ⟨c, mem_digitChars.2 hc, rfl⟩, ds, mem_anyDigits.2 hds, rfl⟩

theorem mem_mantissaForm {p : List Char} :
    p ∈ mantissaForm.matches' ↔ ∃ (whole : List Char) (fraction : Option (List Char)),
      (∀ c ∈ whole, c.isDigit = true) ∧
      (∀ f, fraction = some f → (∀ c ∈ f, c.isDigit = true) ∧ (whole = [] → f ≠ [])) ∧
      (fraction = none → whole ≠ []) ∧ whole ++ fraction.elim [] ('.' :: ·) = p := by
  simp only [mantissaForm, RegularExpression.matches'_add, RegularExpression.matches'_mul,
    RegularExpression.matches'_epsilon, RegularExpression.matches'_char, Language.mem_add,
    Language.mem_mul, Language.mem_one, mem_someDigits, mem_anyDigits]
  constructor
  · rintro (⟨whole, ⟨hne, hwhole⟩, _, rfl | ⟨_, rfl, f, hf, rfl⟩, rfl⟩ | ⟨_, rfl, f, ⟨hne, hf⟩, rfl⟩)
    · exact ⟨whole, none, hwhole, nofun, fun _ => hne, rfl⟩
    · refine ⟨whole, some f, hwhole, ?_, nofun, rfl⟩
      rintro _ ⟨⟩
      exact ⟨hf, fun h => absurd h hne⟩
    · refine ⟨[], some f, nofun, ?_, nofun, rfl⟩
      rintro _ ⟨⟩
      exact ⟨hf, fun _ => hne⟩
  · rintro ⟨whole, _ | f, hwhole, hfraction, hnone, rfl⟩
    · exact .inl ⟨whole, ⟨hnone rfl, hwhole⟩, [], .inl rfl, rfl⟩
    · obtain ⟨hf, hne⟩ := hfraction f rfl
      by_cases h : whole = []
      · subst h
        exact .inr ⟨['.'], rfl, f, ⟨hne rfl, hf⟩, rfl⟩
      · exact .inl ⟨whole, ⟨h, hwhole⟩, '.' :: f, .inr ⟨['.'], rfl, f, hf, rfl⟩, rfl⟩

theorem isExponentMarker_iff {c : Char} : isExponentMarker c = true ↔ c ∈ ['e', 'E'] := by
  simp [isExponentMarker]

theorem mem_exponentForm {p : List Char} :
    p ∈ (1 + exponentForm).matches' ↔ ∃ part : Option ExponentPart,
      (∀ e, part = some e → isExponentMarker e.marker = true ∧
        (∀ c ∈ e.digits, c.isDigit = true) ∧ e.digits ≠ []) ∧
      part.elim [] ExponentPart.text = p := by
  simp only [exponentForm, RegularExpression.matches'_add, RegularExpression.matches'_mul,
    RegularExpression.matches'_epsilon, Language.mem_add, Language.mem_mul, Language.mem_one,
    mem_oneOf, mem_optionalSign, mem_someDigits]
  constructor
  · rintro (rfl | ⟨_, ⟨c, hc, rfl⟩, _, ⟨_, ⟨s, rfl⟩, ds, ⟨hne, hds⟩, rfl⟩, rfl⟩)
    · exact ⟨none, nofun, rfl⟩
    · refine ⟨some ⟨c, s, ds⟩, ?_, rfl⟩
      rintro _ ⟨⟩
      exact ⟨isExponentMarker_iff.2 hc, hds, hne⟩
  · rintro ⟨_ | e, hpart, rfl⟩
    · exact .inl rfl
    · obtain ⟨hmarker, hds, hne⟩ := hpart e rfl
      exact .inr ⟨[e.marker], ⟨e.marker, isExponentMarker_iff.1 hmarker, rfl⟩, _,
        ⟨_, ⟨e.sign, rfl⟩, e.digits, ⟨hne, hds⟩, rfl⟩, rfl⟩

/-- What has the form of a number is the text of a spelling, and the other way around. -/
theorem mem_numberForm {p : List Char} :
    p ∈ numberForm.matches' ↔ ∃ s : Spelling, s.WellFormed ∧ s.text = p := by
  rw [numberForm, RegularExpression.matches'_mul, RegularExpression.matches'_mul]
  simp only [Language.mem_mul, mem_optionalSign, mem_mantissaForm, mem_exponentForm]
  constructor
  · rintro ⟨_, ⟨s, rfl⟩, _, ⟨_, ⟨whole, fraction, hwhole, hfraction, hnone, rfl⟩, _,
      ⟨part, hpart, rfl⟩, rfl⟩, rfl⟩
    exact ⟨⟨s, whole, fraction, part⟩, ⟨hwhole, hfraction, hnone, hpart⟩, by simp [Spelling.text]⟩
  · rintro ⟨s, ⟨hwhole, hfraction, hnone, hpart⟩, rfl⟩
    exact ⟨_, ⟨s.sign, rfl⟩, _, ⟨_, ⟨s.whole, s.fraction, hwhole, hfraction, hnone, rfl⟩, _,
      ⟨s.exponent, hpart, rfl⟩, rfl⟩, by simp [Spelling.text]⟩

/-! ## What is taken off -/

namespace Spelling

theorem scanFraction_sound (whole cs : List Char) :
    (scanFraction whole cs).1.elim [] ('.' :: ·) ++ (scanFraction whole cs).2 = cs ∧
      ∀ f, (scanFraction whole cs).1 = some f →
        (∀ c ∈ f, c.isDigit = true) ∧ (whole = [] → f ≠ []) := by
  unfold scanFraction
  split
  · next cs =>
    dsimp only
    split
    · exact ⟨rfl, nofun⟩
    · next h =>
      refine ⟨congrArg ('.' :: ·) List.takeWhile_append_dropWhile, ?_⟩
      rintro _ ⟨⟩
      refine ⟨fun c hc => List.mem_takeWhile_imp hc, fun hwhole hempty => h ?_⟩
      rw [hwhole, hempty]
      rfl
  · exact ⟨rfl, nofun⟩

theorem scanExponent_sound (cs : List Char) :
    (scanExponent cs).1.elim [] ExponentPart.text ++ (scanExponent cs).2 = cs ∧
      ∀ e, (scanExponent cs).1 = some e → isExponentMarker e.marker = true ∧
        (∀ c ∈ e.digits, c.isDigit = true) ∧ e.digits ≠ [] := by
  unfold scanExponent
  split
  · next m cs =>
    dsimp only
    split
    · next h =>
      rw [Bool.and_eq_true, Bool.not_eq_true'] at h
      refine ⟨?_, ?_⟩
      · show m :: (signText (takeSign cs).1 ++ _) ++ _ = _
        rw [List.cons_append, List.append_assoc, List.takeWhile_append_dropWhile, signText_takeSign]
      · rintro _ ⟨⟩
        exact ⟨h.1, fun c hc => List.mem_takeWhile_imp hc, by simpa using h.2⟩
    · exact ⟨rfl, nofun⟩
  · exact ⟨rfl, nofun⟩

theorem scanFraction_suffix (whole cs : List Char) : (scanFraction whole cs).2 <:+ cs :=
  ⟨_, (scanFraction_sound whole cs).1⟩

theorem scanExponent_suffix (cs : List Char) : (scanExponent cs).2 <:+ cs :=
  ⟨_, (scanExponent_sound cs).1⟩

/-- What is taken off is a number, and the rest of the text is what stands behind it. -/
theorem scan_sound {cs rest : List Char} {s : Spelling} (h : scan cs = some (s, rest)) :
    s.WellFormed ∧ s.text ++ rest = cs := by
  have hsign := signText_takeSign cs
  have hwhole : ∀ c ∈ (takeSign cs).2.takeWhile Char.isDigit, c.isDigit = true :=
    fun c hc => List.mem_takeWhile_imp hc
  have hdigits : (takeSign cs).2.takeWhile Char.isDigit ++ (takeSign cs).2.dropWhile Char.isDigit =
      (takeSign cs).2 := List.takeWhile_append_dropWhile
  unfold scan at h
  dsimp only at h
  generalize (takeSign cs).2.takeWhile Char.isDigit = whole at h hwhole hdigits
  generalize (takeSign cs).2.dropWhile Char.isDigit = tail at h hdigits
  obtain ⟨hfraction, hform⟩ := scanFraction_sound whole tail
  generalize scanFraction whole tail = fraction at h hfraction hform
  obtain ⟨hexponent, hpart⟩ := scanExponent_sound fraction.2
  split at h
  · cases h
  · next hsome =>
    cases h
    refine ⟨⟨hwhole, hform, fun hnone hempty => hsome ?_, hpart⟩, ?_⟩
    · dsimp only at hnone hempty
      rw [hnone, hempty]
      rfl
    · simp only [text, List.append_assoc]
      rw [hexponent, hfraction, hdigits, hsign]

/-! ## Nothing longer is there -/

section

variable {s : Spelling} (h : s.WellFormed) (more : List Char)
include h

theorem dropWhile_exponent {e : ExponentPart} (he : s.exponent = some e) :
    (e.text ++ more).dropWhile Char.isDigit = e.text ++ more := by
  have hmarker := not_isDigit_of_marker (h.2.2.2 e he).1
  show (e.marker :: _).dropWhile Char.isDigit = _
  rw [List.dropWhile_cons_of_neg (by simp [hmarker])]
  rfl

/-- Behind the fraction, the rest of a number in front is taken off. -/
theorem scanExponent_rest :
    (scanExponent ((s.exponent.elim [] ExponentPart.text ++ more).dropWhile Char.isDigit)).2 <:+
      more := by
  cases he : s.exponent with
  | none => exact (scanExponent_suffix _).trans (List.dropWhile_suffix _)
  | some e =>
    obtain ⟨hmarker, hdigits, hne⟩ := h.2.2.2 e he
    rw [Option.elim_some, dropWhile_exponent h more he, scanExponent_append hmarker hdigits hne]
    exact List.dropWhile_suffix _

/-- Behind the digits, the rest of a number in front is taken off. -/
theorem scanFraction_rest :
    let whole := s.whole ++ (s.tail ++ more).takeWhile Char.isDigit
    let fraction := scanFraction whole ((s.tail ++ more).dropWhile Char.isDigit)
    (whole.isEmpty && fraction.1.isNone) = false ∧ (scanExponent fraction.2).2 <:+ more := by
  have hrest := scanExponent_rest h more
  have hwhole := h.2.2.1
  cases hf : s.fraction with
  | some f =>
    obtain ⟨hdigits, hne⟩ := h.2.1 f hf
    have htail : s.tail ++ more = '.' :: (f ++ (s.exponent.elim [] ExponentPart.text ++ more)) := by
      simp [tail, hf]
    rw [htail, List.takeWhile_cons_of_neg (by decide), List.dropWhile_cons_of_neg (by decide),
      List.append_nil]
    intro whole fraction
    have hfraction : fraction = _ := scanFraction_point hdigits hne
    rw [hfraction]
    exact ⟨Bool.and_false _, hrest⟩
  | none =>
    have htail : s.tail = s.exponent.elim [] ExponentPart.text := by simp [tail, hf]
    refine ⟨by simp [hwhole hf], ?_⟩
    cases he : s.exponent with
    | none =>
      -- The number ends with its digits, so whatever else is taken off stands behind it.
      rw [htail, he]
      exact (scanExponent_suffix _).trans ((scanFraction_suffix _ _).trans (List.dropWhile_suffix _))
    | some e =>
      have hmarker := (h.2.2.2 e he).1
      rw [he, Option.elim_some, dropWhile_exponent h more he] at hrest
      rw [htail, he, Option.elim_some, dropWhile_exponent h more he]
      show (scanExponent (scanFraction _ (e.marker :: _)).2).2 <:+ more
      rw [scanFraction_marker hmarker]
      exact hrest

theorem whole_tail_ne_nil : s.whole ++ s.tail ≠ [] := by
  intro hnil
  obtain ⟨hwhole, htail⟩ := List.append_eq_nil_iff.1 hnil
  cases hf : s.fraction with
  | none => exact h.2.2.1 hf hwhole
  | some f =>
    rw [tail, hf] at htail
    cases htail

theorem takeSign_text_append :
    takeSign (s.text ++ more) = (s.sign, s.whole ++ (s.tail ++ more)) := by
  rw [text_eq, List.append_assoc, List.append_assoc]
  refine takeSign_signText s.sign fun c hc => ?_
  rw [← List.append_assoc, List.head?_append_of_ne_nil _ (whole_tail_ne_nil h)] at hc
  exact head?_whole_tail h c hc

/-- A number in front of a text is taken off whole. -/
theorem scan_append : ∃ t rest, scan (s.text ++ more) = some (t, rest) ∧ rest <:+ more := by
  obtain ⟨hsome, hrest⟩ := scanFraction_rest h more
  unfold scan
  rw [takeSign_text_append h more]
  dsimp only
  rw [List.takeWhile_append_of_pos h.1, List.dropWhile_append_of_pos h.1,
    if_neg (Bool.eq_false_iff.1 hsome)]
  exact ⟨_, _, rfl, hrest⟩

end

/-- A text is spelled in one way only. -/
theorem text_inj {s t : Spelling} (hs : s.WellFormed) (ht : t.WellFormed) (h : s.text = t.text) :
    s = t := by
  have hscan := scan_text hs
  rw [h, scan_text ht] at hscan
  cases hscan
  rfl

end Spelling

/-- The longest prefix of a text that has the form of a number. -/
structure Longest (cs p : List Char) : Prop where
  isNumber : p ∈ numberForm.matches'
  isFront : p <+: cs
  longest : ∀ q ∈ numberForm.matches', q <+: cs → q <+: p

theorem Longest.unique {cs p q : List Char} (hp : Longest cs p) (hq : Longest cs q) : p = q :=
  (hq.longest p hp.isNumber hp.isFront).eq_of_length_le
    (hp.longest q hq.isNumber hq.isFront).length_le

/-- What is taken off is the longest number in front. -/
theorem longest_of_scan {cs rest : List Char} {s : Spelling} (h : Spelling.scan cs = some (s, rest)) :
    Longest cs s.text := by
  obtain ⟨hs, rfl⟩ := Spelling.scan_sound h
  refine ⟨mem_numberForm.2 ⟨s, hs, rfl⟩, List.prefix_append _ _, fun q hq hfront => ?_⟩
  obtain ⟨t, ht, rfl⟩ := mem_numberForm.1 hq
  obtain ⟨more, hmore⟩ := hfront
  obtain ⟨s', rest', hscan, hsuffix⟩ := Spelling.scan_append ht more
  rw [hmore, h] at hscan
  cases hscan
  refine List.prefix_of_prefix_length_le ⟨more, hmore⟩ (List.prefix_append _ _) ?_
  have hlength := congrArg List.length hmore
  rw [List.length_append, List.length_append] at hlength
  have hle := hsuffix.length_le
  omega

/-- If nothing is taken off, no number is in front. -/
theorem not_matches_of_scan {cs : List Char} (h : Spelling.scan cs = none) :
    ∀ p ∈ numberForm.matches', ¬p <+: cs := by
  rintro p hp ⟨more, rfl⟩
  obtain ⟨s, hs, rfl⟩ := mem_numberForm.1 hp
  obtain ⟨t, rest, hscan, -⟩ := Spelling.scan_append hs more
  rw [h] at hscan
  cases hscan

theorem not_longest_of_scan {cs p : List Char} (h : Spelling.scan cs = none) : ¬Longest cs p :=
  fun hlongest => not_matches_of_scan h p hlongest.isNumber hlongest.isFront

/-! ## What a number denotes -/

/-- The absolute value of what a spelling denotes. -/
def Spelling.magnitude (s : Spelling) : ℚ :=
  (value s.whole + value (s.fraction.getD []) / 10 ^ (s.fraction.getD []).length) *
    10 ^ (s.exponent.elim 0 fun e => e.sign.apply (value e.digits))

theorem Spelling.magnitude_decimal (s : Spelling) : s.decimal.magnitude = s.magnitude := by
  unfold Decimal.magnitude decimal magnitude
  dsimp only
  rw [value_append, zpow_sub₀ (by norm_num), zpow_natCast]
  push_cast
  field_simp

/-- A text is a number, and `x` is the double nearest to it, or an infinity if it is too great. -/
def Denotes (p : List Char) (x : Binary64) : Prop :=
  ∃ s : Spelling, s.WellFormed ∧ s.text = p ∧ Converts (s.sign = .minus) s.magnitude x

theorem Spelling.converts_round (s : Spelling) : Converts (s.sign = .minus) s.magnitude s.round := by
  rw [← s.magnitude_decimal]
  exact s.decimal.converts_round

end StoreGateway.Number

namespace StoreGateway.Query

open StoreGateway.Number StoreGateway.Text

/-- A text begins with a sign and the word for a number beyond all others. -/
def BeginsInfinite (cs : List Char) (sign : Sign) : Prop :=
  signText sign ++ "Infinity".toList <+: cs

/--
The double of a text without blanks in front. What stands behind the longest number in front does not
matter.
-/
structure FloatOf (cs : List Char) (x : Binary64) : Prop where
  infinite : ∀ sign, BeginsInfinite cs sign → x = .infinity (sign = .minus)
  number : ∀ p ∈ numberForm.matches', p <+: cs → ∃ q, Longest cs q ∧ Denotes q x ∧
    lenientFloat (some (.str (String.ofList q))) = x ∧
    ∀ rest, Longest (q ++ rest) q → lenientFloat (some (.str (String.ofList (q ++ rest)))) = x
  nan_iff : x = .nan ↔
    (∀ sign, ¬BeginsInfinite cs sign) ∧ ∀ p ∈ numberForm.matches', ¬p <+: cs
  infinity_iff : ∀ negative, x = .infinity negative ↔
    (∃ sign, BeginsInfinite cs sign ∧ negative = decide (sign = .minus)) ∨
    ∃ s : Spelling, s.WellFormed ∧ Longest cs s.text ∧ negative = decide (s.sign = .minus) ∧
      tooGreat ≤ s.magnitude

/-! ## Words -/

theorem takeSign_of_begins {cs : List Char} {sign : Sign} (h : BeginsInfinite cs sign) :
    ∃ more, takeSign cs = (sign, infinityWord ++ more) := by
  obtain ⟨more, rfl⟩ := h
  refine ⟨more, ?_⟩
  rw [List.append_assoc]
  refine takeSign_signText sign fun c hc => ?_
  obtain rfl : 'I' = c := Option.some.inj hc
  decide

theorem isPrefixOf_iff {cs : List Char} :
    infinityWord.isPrefixOf (takeSign cs).2 = true ↔ ∃ sign, BeginsInfinite cs sign := by
  rw [List.isPrefixOf_iff_prefix]
  constructor
  · rintro ⟨more, hmore⟩
    refine ⟨(takeSign cs).1, more, ?_⟩
    show signText _ ++ infinityWord ++ more = cs
    rw [List.append_assoc, hmore, signText_takeSign]
  · rintro ⟨sign, h⟩
    obtain ⟨more, hmore⟩ := takeSign_of_begins h
    rw [hmore]
    exact List.prefix_append _ _

/-- The word is no number. -/
theorem scan_of_begins {cs : List Char} {sign : Sign} (h : BeginsInfinite cs sign) :
    Spelling.scan cs = none := by
  obtain ⟨more, hmore⟩ := takeSign_of_begins h
  unfold Spelling.scan
  rw [hmore]
  rfl

theorem BeginsInfinite.unique {cs : List Char} {s t : Sign} (hs : BeginsInfinite cs s)
    (ht : BeginsInfinite cs t) : s = t := by
  obtain ⟨more, hmore⟩ := takeSign_of_begins hs
  obtain ⟨more', hmore'⟩ := takeSign_of_begins ht
  exact congrArg Prod.fst (hmore.symm.trans hmore')

/-! ## Texts -/

theorem lenientFloat_ofList (cs : List Char) :
    lenientFloat (some (.str (String.ofList cs))) = floatOfText cs :=
  congrArg floatOfText String.toList_ofList

theorem floatOfText_of_begins {cs : List Char} {sign : Sign} (h : BeginsInfinite (trimStart cs) sign) :
    floatOfText cs = .infinity (sign = .minus) := by
  have hword := isPrefixOf_iff.2 ⟨sign, h⟩
  obtain ⟨more, hmore⟩ := takeSign_of_begins h
  unfold floatOfText
  dsimp only
  rw [if_pos hword, hmore]

theorem floatOfText_of_scan {cs rest : List Char} {s : Spelling}
    (h : Spelling.scan (trimStart cs) = some (s, rest)) : floatOfText cs = s.round := by
  have hword : ¬infinityWord.isPrefixOf (takeSign (trimStart cs)).2 = true := by
    rw [isPrefixOf_iff]
    rintro ⟨sign, hbegins⟩
    rw [scan_of_begins hbegins] at h
    cases h
  unfold floatOfText
  dsimp only
  rw [if_neg hword, h]

theorem floatOfText_of_none {cs : List Char} (hword : ∀ sign, ¬BeginsInfinite (trimStart cs) sign)
    (h : Spelling.scan (trimStart cs) = none) : floatOfText cs = .nan := by
  have hword : ¬infinityWord.isPrefixOf (takeSign (trimStart cs)).2 = true := by
    rw [isPrefixOf_iff]
    exact not_exists.2 hword
  unfold floatOfText
  dsimp only
  rw [if_neg hword, h]

theorem trimStart_text {s : Spelling} (h : s.WellFormed) (rest : List Char) :
    trimStart (s.text ++ rest) = s.text ++ rest := by
  have hne : s.text ≠ [] := by
    rw [Spelling.text_eq]
    exact List.append_ne_nil_of_right_ne_nil _ (Spelling.whole_tail_ne_nil h)
  refine @trimStart_append [] (s.text ++ rest) rfl fun c hc => ?_
  rw [List.head?_append_of_ne_nil _ hne] at hc
  rcases Spelling.mem_text h (List.mem_of_head? hc) with hdigit | hmark
  · exact Json.Token.isBlank_of_isDigit hdigit
  · have hmarks : ['+', '-', '.', 'e', 'E'].all (fun d => !isBlank d) = true := by decide
    simpa using List.all_eq_true.1 hmarks c hmark

/-- Only the longest number in front counts. -/
theorem floatOfText_of_longest {s : Spelling} (h : s.WellFormed) {rest : List Char}
    (hlongest : Longest (s.text ++ rest) s.text) : floatOfText (s.text ++ rest) = s.round := by
  obtain ⟨t, rest', hscan, -⟩ := Spelling.scan_append h rest
  obtain rfl := Spelling.text_inj h (Spelling.scan_sound hscan).1
    (hlongest.unique (longest_of_scan hscan))
  rw [← trimStart_text h] at hscan
  exact floatOfText_of_scan hscan

theorem floatOf_of_begins {cs : List Char} {sign : Sign} (h : BeginsInfinite cs sign) :
    FloatOf cs (.infinity (sign = .minus)) where
  infinite t ht := by rw [h.unique ht]
  number p hp hfront := absurd hfront (not_matches_of_scan (scan_of_begins h) p hp)
  nan_iff := ⟨nofun, fun hnone => absurd h (hnone.1 sign)⟩
  infinity_iff negative := by
    constructor
    · rintro ⟨⟩
      exact .inl ⟨sign, h, rfl⟩
    · rintro (⟨t, ht, rfl⟩ | ⟨s, -, hlongest, -⟩)
      · rw [h.unique ht]
      · exact absurd hlongest (not_longest_of_scan (scan_of_begins h))

theorem floatOf_of_scan {cs rest : List Char} {s : Spelling}
    (h : Spelling.scan cs = some (s, rest)) : FloatOf cs s.round where
  infinite t ht := by
    rw [scan_of_begins ht] at h
    cases h
  number p _ _ := by
    have hs := (Spelling.scan_sound h).1
    refine ⟨s.text, longest_of_scan h, ⟨s, hs, rfl, s.converts_round⟩, ?_, fun more hmore => ?_⟩
    · have halone : Longest (s.text ++ []) s.text := by
        rw [List.append_nil]
        exact longest_of_scan (Spelling.scan_text hs)
      rw [lenientFloat_ofList, ← List.append_nil s.text]
      exact floatOfText_of_longest hs halone
    · rw [lenientFloat_ofList]
      exact floatOfText_of_longest hs hmore
  nan_iff := by
    have hlongest := longest_of_scan h
    exact ⟨fun hnan => absurd hnan s.converts_round.ne_nan,
      fun hnone => absurd hlongest.isFront (hnone.2 _ hlongest.isNumber)⟩
  infinity_iff negative := by
    have hs := (Spelling.scan_sound h).1
    rw [s.converts_round.eq_infinity_iff]
    constructor
    · rintro ⟨rfl, hgreat⟩
      exact .inr ⟨s, hs, longest_of_scan h, rfl, hgreat⟩
    · rintro (⟨t, ht, -⟩ | ⟨t, ht, hlongest, hsign, hgreat⟩)
      · rw [scan_of_begins ht] at h
        cases h
      · obtain rfl := Spelling.text_inj hs ht ((longest_of_scan h).unique hlongest)
        exact ⟨hsign, hgreat⟩

theorem floatOf_of_none {cs : List Char} (hword : ∀ sign, ¬BeginsInfinite cs sign)
    (h : Spelling.scan cs = none) : FloatOf cs .nan where
  infinite t ht := absurd ht (hword t)
  number p hp hfront := absurd hfront (not_matches_of_scan h p hp)
  nan_iff := ⟨fun _ => ⟨hword, not_matches_of_scan h⟩, fun _ => rfl⟩
  infinity_iff negative := by
    refine ⟨nofun, ?_⟩
    rintro (⟨sign, hsign, -⟩ | ⟨s, -, hlongest, -⟩)
    · exact absurd hsign (hword sign)
    · exact absurd hlongest (not_longest_of_scan h)

/--
**The longest number in front counts.** Behind blanks, a text is read as the longest number in front of
it, rounded to the nearest double, whatever stands behind. It is infinite exactly if it begins with the
word for that or if the number is beyond the doubles, and not a number exactly if neither the word nor
a number is there.
-/
theorem float_of_longest_number (text : String) :
    ∃ front cs, text.toList = front ++ cs ∧ blank front = true ∧
      (∀ c ∈ cs.head?, isBlank c = false) ∧ FloatOf cs (lenientFloat (some (.str text))) := by
  obtain ⟨front, hfront, hcs⟩ := exists_trimStart text.toList
  refine ⟨front, trimStart text.toList, hcs.symm, hfront, ?_, ?_⟩
  · exact head?_dropWhile isBlank text.toList
  show FloatOf _ (floatOfText text.toList)
  by_cases hword : ∃ sign, BeginsInfinite (trimStart text.toList) sign
  · obtain ⟨sign, h⟩ := hword
    rw [floatOfText_of_begins h]
    exact floatOf_of_begins h
  · have hword := not_exists.1 hword
    cases hscan : Spelling.scan (trimStart text.toList) with
    | none =>
      rw [floatOfText_of_none hword hscan]
      exact floatOf_of_none hword hscan
    | some taken =>
      rw [floatOfText_of_scan hscan]
      exact floatOf_of_scan hscan

/-- A marker without digits behind it is not part of the number. -/
example : lenientFloat (some (.str " 5.e+x")) = lenientFloat (some (.str "5")) := by
  decide +kernel

/-- A number that is too great is infinite without the word. -/
theorem infinite_without_word :
    ¬((∃ negative, lenientFloat (some (.str "1e400")) = .infinity negative) ↔
      ∃ sign, BeginsInfinite (trimStart "1e400".toList) sign) := by
  have hinfinite : lenientFloat (some (.str "1e400")) = .infinity false := by decide +kernel
  have hword : infinityWord.isPrefixOf (takeSign (trimStart "1e400".toList)).2 = false := by
    decide +kernel
  intro h
  rw [← isPrefixOf_iff, hword] at h
  exact absurd (h.1 ⟨false, hinfinite⟩) (by decide)

end StoreGateway.Query
