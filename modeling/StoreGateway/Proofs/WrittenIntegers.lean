import Mathlib.Data.List.TakeWhile
import StoreGateway.Proofs.TokenText
import StoreGateway.Query.Lenient

/-!
# Integers in texts

An integer is written as an optional sign and digits, as many as there are. Blanks may stand in front
of it; what may stand behind it depends on the reader: anything, or blanks only.

* `Numeral`: a sign and digits that denote an integer, and the rest of the text;
* `LeadsWith`, `Spells`: an integer of sixty-four bits in front of a text, and as all of it;
* `leadingInt_eq_some_iff`, `readSigned_eq_some_iff`: what is read from a text without blanks;
* `lenientInt_eq_some_iff`, `trimmedInt_eq_some_iff`: what is read from any text.
-/

namespace StoreGateway.Text

open StoreGateway.Number

/-! ## Signs and digits -/

/-- A sign and digits that denote `n`, in front of a rest that does not go on with a digit. -/
structure Numeral (cs : List Char) (n : Int) (rest : List Char) : Prop where
  parts : ∃ sign ds, cs = signText sign ++ (ds ++ rest) ∧ ds ≠ [] ∧
    (∀ c ∈ ds, c.isDigit = true) ∧ sign.apply (value ds) = n
  maximal : NoDigit rest

theorem signText_takeSign (cs : List Char) : signText (takeSign cs).1 ++ (takeSign cs).2 = cs := by
  unfold takeSign
  split <;> rfl

theorem head?_dropWhile (p : Char → Bool) (cs : List Char) :
    ∀ c ∈ (cs.dropWhile p).head?, p c = false := by
  intro c hc
  have h := List.head?_dropWhile_not p cs
  rw [hc] at h
  exact h

theorem noDigit_dropWhile (cs : List Char) : NoDigit (cs.dropWhile Char.isDigit) :=
  head?_dropWhile Char.isDigit cs

theorem leadingInt_eq_some_iff {cs : List Char} {n : Int} :
    leadingInt cs = some n ↔ ∃ rest, Numeral cs n rest := by
  unfold leadingInt
  constructor
  · intro h
    dsimp only at h
    split at h
    · cases h
    · next hne =>
      refine ⟨(takeSign cs).2.dropWhile Char.isDigit, ⟨(takeSign cs).1, _, ?_, ?_, ?_,
        Option.some.inj h⟩, noDigit_dropWhile _⟩
      · rw [List.takeWhile_append_dropWhile, signText_takeSign]
      · simpa using hne
      · exact fun c hc => (List.mem_takeWhile_imp hc)
  · rintro ⟨rest, ⟨sign, ds, rfl, hne, hds, rfl⟩, hrest⟩
    rw [takeSign_of_digits hne hds]
    dsimp only
    rw [takeWhile_digits hds hrest, if_neg (by simpa using hne)]

/-- A text is an integer and nothing else. -/
theorem readSigned_eq_some_iff {cs : List Char} {n : Int} :
    readSigned cs = some n ↔ Numeral cs n [] := by
  unfold readSigned
  constructor
  · intro h
    split at h
    · next hall =>
      obtain ⟨rest, ⟨sign, ds, rfl, hne, hds, hn⟩, hrest⟩ := leadingInt_eq_some_iff.1 h
      rw [takeSign_of_digits hne hds, List.all_append, Bool.and_eq_true] at hall
      cases rest with
      | nil => exact ⟨⟨sign, ds, rfl, hne, hds, hn⟩, noDigit_nil⟩
      | cons c cs =>
        have hc : c.isDigit = true := List.all_eq_true.1 hall.2 c List.mem_cons_self
        rw [hrest c rfl] at hc
        cases hc
    · cases h
  · intro h
    have hread := leadingInt_eq_some_iff.2 ⟨[], h⟩
    obtain ⟨⟨sign, ds, rfl, hne, hds, -⟩, -⟩ := h
    rw [takeSign_of_digits hne hds, List.append_nil, if_pos (List.all_eq_true.2 hds)]
    simpa using hread

/-! ## Blanks -/

theorem trimStart_append {front cs : List Char} (hfront : blank front = true)
    (hcs : ∀ c ∈ cs.head?, isBlank c = false) : trimStart (front ++ cs) = cs :=
  dropWhile_append_of_head? (List.all_eq_true.1 hfront) hcs

theorem trimEnd_append {back cs : List Char} (hback : blank back = true)
    (hcs : ∀ c ∈ cs.getLast?, isBlank c = false) : trimEnd (cs ++ back) = cs := by
  unfold trimEnd
  rw [List.reverse_append, dropWhile_append_of_head?, List.reverse_reverse]
  · exact fun c hc => List.all_eq_true.1 hback c (List.mem_reverse.1 hc)
  · rw [List.head?_reverse]
    exact hcs

/-- What is taken off in front is blank. -/
theorem exists_trimStart (cs : List Char) : ∃ front, blank front = true ∧ front ++ trimStart cs = cs :=
  ⟨cs.takeWhile isBlank, List.all_eq_true.2 fun _ hc => List.mem_takeWhile_imp hc,
    List.takeWhile_append_dropWhile⟩

/-- What is taken off at the end is blank. -/
theorem exists_trimEnd (cs : List Char) : ∃ back, blank back = true ∧ trimEnd cs ++ back = cs := by
  obtain ⟨back, hback, h⟩ := exists_trimStart cs.reverse
  refine ⟨back.reverse, ?_, ?_⟩
  · unfold blank at hback ⊢
    rw [List.all_reverse]
    exact hback
  · calc trimEnd cs ++ back.reverse = (back ++ trimStart cs.reverse).reverse :=
          List.reverse_append.symm
      _ = cs := by rw [h, List.reverse_reverse]

theorem noDigit_of_blank {cs : List Char} (h : blank cs = true) : NoDigit cs := by
  intro c hc
  have hblank := List.all_eq_true.1 h c (List.mem_of_head? hc)
  cases hdigit : c.isDigit with
  | false => rfl
  | true =>
    rw [Json.Token.isBlank_of_isDigit hdigit] at hblank
    cases hblank

namespace Numeral

variable {cs rest : List Char} {n : Int}

/-- A numeral begins with a sign or a digit. -/
theorem head?_not_blank (h : Numeral cs n rest) : ∀ c ∈ cs.head?, isBlank c = false := by
  obtain ⟨⟨sign, ds, rfl, hne, hds, -⟩, -⟩ := h
  intro c hc
  cases sign with
  | absent =>
    change (ds ++ rest).head? = some c at hc
    rw [List.head?_append_of_ne_nil _ hne] at hc
    exact Json.Token.isBlank_of_isDigit (hds c (List.mem_of_head? hc))
  | plus =>
    obtain rfl : '+' = c := Option.some.inj hc
    decide
  | minus =>
    obtain rfl : '-' = c := Option.some.inj hc
    decide

/-- A numeral without a rest ends with a digit. -/
theorem getLast?_not_blank (h : Numeral cs n []) : ∀ c ∈ cs.getLast?, isBlank c = false := by
  obtain ⟨⟨sign, ds, rfl, hne, hds, -⟩, -⟩ := h
  intro c hc
  rw [List.append_nil, List.getLast?_append_of_ne_nil _ hne] at hc
  exact Json.Token.isBlank_of_isDigit (hds c (List.mem_of_getLast? hc))

/-- Blanks may be put behind a numeral. -/
theorem append_blank (h : Numeral cs n []) {back : List Char} (hback : blank back = true) :
    Numeral (cs ++ back) n back := by
  obtain ⟨⟨sign, ds, rfl, hne, hds, hn⟩, -⟩ := h
  refine ⟨⟨sign, ds, ?_, hne, hds, hn⟩, noDigit_of_blank hback⟩
  simp

/-- The rest may be left out. -/
theorem exists_append (h : Numeral cs n rest) : ∃ core, Numeral core n [] ∧ cs = core ++ rest := by
  obtain ⟨⟨sign, ds, rfl, hne, hds, hn⟩, -⟩ := h
  refine ⟨signText sign ++ ds, ⟨⟨sign, ds, ?_, hne, hds, hn⟩, noDigit_nil⟩, ?_⟩
  · rw [List.append_nil]
  · rw [List.append_assoc]

end Numeral

/-! ## Integers of sixty-four bits -/

/-- Behind blanks, a text goes on with a sixty-four bit integer and then anything but a digit. -/
def LeadsWith (s : String) (n : Int) : Prop :=
  (∃ front cs rest, s.toList = front ++ cs ∧ blank front = true ∧ Numeral cs n rest) ∧
    -Int.pow 2 63 ≤ n ∧ n < Int.pow 2 63

/-- A text is a sixty-four bit integer between blanks. -/
def Spells (s : String) (n : Int) : Prop :=
  (∃ front cs back, s.toList = front ++ cs ∧ blank front = true ∧ Numeral cs n back ∧
    blank back = true) ∧ -Int.pow 2 63 ≤ n ∧ n < Int.pow 2 63

theorem signed64?_eq_some_iff {i n : Int} :
    signed64? i = some n ↔ i = n ∧ -Int.pow 2 63 ≤ n ∧ n < Int.pow 2 63 := by
  have hrange : fitsSigned64 i = true ↔ -Int.pow 2 63 ≤ i ∧ i < Int.pow 2 63 := by
    unfold fitsSigned64
    rw [Bool.and_eq_true, decide_eq_true_eq, decide_eq_true_eq]
  unfold signed64?
  by_cases h : fitsSigned64 i = true
  · rw [if_pos h, Option.some.injEq]
    constructor
    · rintro rfl
      exact ⟨rfl, hrange.1 h⟩
    · exact fun h => h.1
  · rw [if_neg h]
    refine ⟨nofun, ?_⟩
    rintro ⟨rfl, hfits⟩
    exact absurd (hrange.2 hfits) h

theorem signed64?_eq_none_iff {n : Int} :
    signed64? n = none ↔ ¬(-Int.pow 2 63 ≤ n ∧ n < Int.pow 2 63) := by
  rw [Option.eq_none_iff_forall_ne_some]
  constructor
  · intro h hrange
    exact h n (signed64?_eq_some_iff.2 ⟨rfl, hrange⟩)
  · intro h m hm
    obtain ⟨rfl, hrange⟩ := signed64?_eq_some_iff.1 hm
    exact h hrange

/-- What is read from the front of a text. -/
theorem lenientInt_eq_some_iff {s : String} {n : Int} :
    Query.lenientInt s = some n ↔ LeadsWith s n := by
  unfold Query.lenientInt LeadsWith
  rw [Option.bind_eq_some_iff]
  constructor
  · rintro ⟨i, hread, hfits⟩
    obtain ⟨rfl, hrange⟩ := signed64?_eq_some_iff.1 hfits
    obtain ⟨rest, hrest⟩ := leadingInt_eq_some_iff.1 hread
    obtain ⟨front, hfront, heq⟩ := exists_trimStart s.toList
    exact ⟨⟨front, _, rest, heq.symm, hfront, hrest⟩, hrange⟩
  · rintro ⟨⟨front, cs, rest, heq, hfront, hrest⟩, hrange⟩
    refine ⟨n, ?_, signed64?_eq_some_iff.2 ⟨rfl, hrange⟩⟩
    rw [heq, trimStart_append hfront hrest.head?_not_blank]
    exact leadingInt_eq_some_iff.2 ⟨rest, hrest⟩

theorem lenientInt_eq_none_iff {s : String} : Query.lenientInt s = none ↔ ∀ n, ¬LeadsWith s n := by
  rw [Option.eq_none_iff_forall_ne_some]
  exact forall_congr' fun n => not_congr lenientInt_eq_some_iff

/-- A text goes on with one integer only. -/
theorem LeadsWith.unique {s : String} {m n : Int} (hm : LeadsWith s m) (hn : LeadsWith s n) :
    m = n := by
  have hread := lenientInt_eq_some_iff.2 hm
  rw [lenientInt_eq_some_iff.2 hn] at hread
  exact (Option.some.inj hread).symm

/-- What is read from a whole text. -/
theorem trimmedInt_eq_some_iff {s : String} {n : Int} :
    (readSigned (trim s.toList)).bind signed64? = some n ↔ Spells s n := by
  unfold Spells
  rw [Option.bind_eq_some_iff]
  constructor
  · rintro ⟨i, hread, hfits⟩
    obtain ⟨rfl, hrange⟩ := signed64?_eq_some_iff.1 hfits
    obtain ⟨front, hfront, hstart⟩ := exists_trimStart s.toList
    obtain ⟨back, hback, hend⟩ := exists_trimEnd (trimStart s.toList)
    refine ⟨⟨front, trim s.toList ++ back, back, ?_, hfront,
      (readSigned_eq_some_iff.1 hread).append_blank hback, hback⟩, hrange⟩
    rw [trim, hend, hstart]
  · rintro ⟨⟨front, cs, back, heq, hfront, hcs, hback⟩, hrange⟩
    refine ⟨n, ?_, signed64?_eq_some_iff.2 ⟨rfl, hrange⟩⟩
    obtain ⟨core, hcore, hsplit⟩ := hcs.exists_append
    rw [trim, heq, trimStart_append hfront hcs.head?_not_blank, hsplit,
      trimEnd_append hback hcore.getLast?_not_blank]
    exact readSigned_eq_some_iff.2 hcore

end StoreGateway.Text
