import Mathlib.Data.List.Basic
import StoreGateway.Number.Spelling
import StoreGateway.Proofs.Numerals

/-!
# The text of a number is read back

* `takeSign_signText`: a sign is read back from its text;
* `scanFraction_point`, `scanExponent_append`: a fraction and an exponent in front of a text;
* `scanFraction_tail`, `scanExponent_text`: the part behind the point and the exponent;
* `scan_text`: a well-formed spelling is all that is read from its text;
* `mem_text`, `not_mem_text`: the characters of such a text.
-/

namespace StoreGateway.Number

open StoreGateway.Text

theorem noDigit_fraction (f : List Char) : NoDigit ('.' :: f) :=
  noDigit_cons (by decide) f

theorem not_isDigit_of_marker {c : Char} (h : isExponentMarker c = true) : c.isDigit = false := by
  rcases (by simpa [isExponentMarker] using h : c = 'e' ∨ c = 'E') with rfl | rfl <;> decide

theorem takeSign_signText (s : Sign) {cs : List Char} (h : ∀ c ∈ cs.head?, c ≠ '+' ∧ c ≠ '-') :
    takeSign (signText s ++ cs) = (s, cs) := by
  cases s with
  | absent => exact takeSign_absent h
  | plus => rfl
  | minus => rfl

theorem not_sign_of_head? {ds : List Char} (h : ∀ c ∈ ds, c.isDigit = true) :
    ∀ c ∈ ds.head?, c ≠ '+' ∧ c ≠ '-' := fun c hc =>
  not_sign_of_isDigit (h c (List.mem_of_head? hc))

/-- A sign is taken off, and digits are left. -/
theorem takeSign_of_digits {sign : Sign} {ds rest : List Char} (hne : ds ≠ [])
    (hds : ∀ c ∈ ds, c.isDigit = true) :
    takeSign (signText sign ++ (ds ++ rest)) = (sign, ds ++ rest) := by
  refine takeSign_signText sign fun c hc => ?_
  rw [List.head?_append_of_ne_nil _ hne] at hc
  exact not_sign_of_head? hds c hc

namespace Spelling

/-- A fraction in front is taken off, with all digits that follow. -/
theorem scanFraction_point {whole f cs : List Char} (hf : ∀ c ∈ f, c.isDigit = true)
    (hne : whole = [] → f ≠ []) :
    scanFraction whole ('.' :: (f ++ cs)) =
      (some (f ++ cs.takeWhile Char.isDigit), cs.dropWhile Char.isDigit) := by
  simp only [scanFraction, List.takeWhile_append_of_pos hf, List.dropWhile_append_of_pos hf]
  refine if_neg ?_
  simp only [Bool.and_eq_true, List.isEmpty_iff, List.append_eq_nil_iff, not_and]
  exact fun hwhole hempty => absurd hempty (hne hwhole)

theorem scanFraction_of_ne {c : Char} (hc : c ≠ '.') (whole cs : List Char) :
    scanFraction whole (c :: cs) = (none, c :: cs) := by
  unfold scanFraction
  split
  · next heq => exact absurd (List.cons.inj heq).1 hc
  · rfl

theorem scanFraction_marker {whole cs : List Char} {c : Char} (hc : isExponentMarker c = true) :
    scanFraction whole (c :: cs) = (none, c :: cs) := by
  apply scanFraction_of_ne
  rintro rfl
  exact absurd hc (by decide)

/-- An exponent in front is taken off, with all digits that follow. -/
theorem scanExponent_append {e : ExponentPart} (hmarker : isExponentMarker e.marker = true)
    (hdigits : ∀ c ∈ e.digits, c.isDigit = true) (hne : e.digits ≠ []) (cs : List Char) :
    scanExponent (e.text ++ cs) = (some ⟨e.marker, e.sign, e.digits ++ cs.takeWhile Char.isDigit⟩,
      cs.dropWhile Char.isDigit) := by
  have hsign : takeSign (signText e.sign ++ (e.digits ++ cs)) = (e.sign, e.digits ++ cs) :=
    takeSign_of_digits hne hdigits
  have htake : (e.digits ++ cs).takeWhile Char.isDigit = e.digits ++ cs.takeWhile Char.isDigit :=
    List.takeWhile_append_of_pos hdigits
  have hdrop : (e.digits ++ cs).dropWhile Char.isDigit = cs.dropWhile Char.isDigit :=
    List.dropWhile_append_of_pos hdigits
  show scanExponent (e.marker :: (signText e.sign ++ e.digits ++ cs)) = _
  simp [scanExponent, hsign, htake, hdrop, hmarker, hne]

/-- The text behind the digits in front of the point. -/
def tail (s : Spelling) : List Char :=
  s.fraction.elim [] ('.' :: ·) ++ s.exponent.elim [] ExponentPart.text

theorem text_eq (s : Spelling) : s.text = signText s.sign ++ (s.whole ++ s.tail) := by
  simp [text, tail]

section

variable {s : Spelling} (h : s.WellFormed)
include h

theorem noDigit_exponent : NoDigit (s.exponent.elim [] ExponentPart.text) := by
  obtain ⟨-, -, -, hexp⟩ := h
  cases he : s.exponent with
  | none => exact noDigit_nil
  | some e => exact noDigit_cons (not_isDigit_of_marker (hexp e he).1) _

theorem noDigit_tail : NoDigit s.tail := by
  unfold tail
  cases hf : s.fraction with
  | none => exact noDigit_exponent h
  | some f => exact noDigit_fraction _

theorem scanExponent_text :
    scanExponent (s.exponent.elim [] ExponentPart.text) = (s.exponent, []) := by
  cases he : s.exponent with
  | none => rfl
  | some e =>
    obtain ⟨hmarker, hdigits, hne⟩ := h.2.2.2 e he
    simpa using scanExponent_append hmarker hdigits hne []

theorem scanFraction_tail :
    scanFraction s.whole s.tail = (s.fraction, s.exponent.elim [] ExponentPart.text) := by
  have hexp := noDigit_exponent h
  unfold tail
  cases hf : s.fraction with
  | none =>
    cases he : s.exponent with
    | none => rfl
    | some e => exact scanFraction_marker (h.2.2.2 e he).1
  | some f =>
    obtain ⟨hdigits, hne⟩ := h.2.1 f hf
    have htake := @takeWhile_digits [] _ nofun hexp
    have hdrop := @dropWhile_digits [] _ nofun hexp
    rw [List.nil_append] at htake hdrop
    show scanFraction s.whole ('.' :: (f ++ s.exponent.elim [] ExponentPart.text)) = _
    rw [scanFraction_point hdigits hne, htake, hdrop, List.append_nil]

theorem head?_whole_tail : ∀ c ∈ (s.whole ++ s.tail).head?, c ≠ '+' ∧ c ≠ '-' := by
  obtain ⟨hdigits, hfrac, hwhole, -⟩ := h
  intro c hc
  cases hw : s.whole with
  | cons d ds =>
    rw [hw] at hc
    obtain rfl : d = c := Option.some.inj hc
    exact not_sign_of_isDigit (hdigits d (by rw [hw]; exact List.mem_cons_self))
  | nil =>
    rw [hw] at hc
    cases hf : s.fraction with
    | none => exact absurd hw (hwhole hf)
    | some f =>
      unfold tail at hc
      rw [hf] at hc
      obtain rfl : '.' = c := Option.some.inj hc
      decide

/-- All of the text of a spelling is read, and as this spelling. -/
theorem scan_text : scan s.text = some (s, []) := by
  have hdigits := h.1
  have hnone : ¬(s.whole.isEmpty && s.fraction.isNone) = true := by
    simpa using fun hw hf => h.2.2.1 hf hw
  unfold scan
  rw [text_eq, takeSign_signText s.sign (head?_whole_tail h)]
  dsimp only
  rw [takeWhile_digits hdigits (noDigit_tail h), dropWhile_digits hdigits (noDigit_tail h),
    scanFraction_tail h]
  dsimp only
  rw [if_neg hnone, scanExponent_text h]

/-- Signs, points and exponent markers are all that stands in such a text beside digits. -/
theorem mem_text {c : Char} (hc : c ∈ s.text) : c.isDigit = true ∨ c ∈ ['+', '-', '.', 'e', 'E'] := by
  obtain ⟨hdigits, hfrac, -, hexp⟩ := h
  have hsign : ∀ t : Sign, c ∈ signText t → c ∈ ['+', '-', '.', 'e', 'E'] := by
    rintro (_ | _ | _) hc <;> simp_all [signText]
  unfold text at hc
  simp only [List.mem_append] at hc
  rcases hc with ((hc | hc) | hc) | hc
  · exact .inr (hsign _ hc)
  · exact .inl (hdigits c hc)
  · cases hf : s.fraction with
    | none => simp [hf] at hc
    | some f =>
      rw [hf] at hc
      rcases List.mem_cons.1 hc with rfl | hc
      · exact .inr (by decide)
      · exact .inl ((hfrac f hf).1 c hc)
  · cases he : s.exponent with
    | none => simp [he] at hc
    | some e =>
      obtain ⟨hmarker, hds, -⟩ := hexp e he
      rw [he] at hc
      rcases List.mem_cons.1 (show c ∈ e.marker :: (signText e.sign ++ e.digits) from hc) with rfl | hc
      · rcases (by simpa [isExponentMarker] using hmarker : e.marker = 'e' ∨ e.marker = 'E') with
          hm | hm <;> simp [hm]
      · rcases List.mem_append.1 hc with hc | hc
        · exact .inr (hsign _ hc)
        · exact .inl (hds c hc)

theorem not_mem_text {c : Char} (hdigit : c.isDigit = false) (hsign : c ∉ ['+', '-', '.', 'e', 'E']) :
    c ∉ s.text := by
  intro hc
  rcases mem_text h hc with h | h
  · rw [hdigit] at h
    cases h
  · exact hsign h

end

end Spelling

end StoreGateway.Number
