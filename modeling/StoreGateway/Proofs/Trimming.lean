import StoreGateway.Proofs.WrittenIntegers

/-!
# Blanks around a text

A text is trimmed up to its first and its last character that is no blank. So trimming does not see
blanks that are put around a text, and around a character that is no blank it works on either side
alone.

* `trim_append_left`, `trim_append_right`: blanks in front of a text and behind it;
* `trim_trimStart`, `trim_trimEnd`: trimming what was trimmed on one side;
* `trim_eq_nil_iff`, `trimmed_eq_empty_iff`: blanks only;
* `trim_append_cons`: the two sides of a character that is no blank.
-/

namespace StoreGateway.Text

theorem blank_append {as bs : List Char} :
    blank (as ++ bs) = true ↔ blank as = true ∧ blank bs = true := by
  unfold blank
  rw [List.all_append, Bool.and_eq_true]

theorem not_mem_of_blank {cs : List Char} (h : blank cs = true) {c : Char}
    (hc : isBlank c = false) : c ∉ cs := by
  intro hmem
  rw [List.all_eq_true.1 h c hmem] at hc
  cases hc

/-- Blanks are taken off up to a character that is none. -/
theorem trimStart_append_of_not_blank {as : List Char} (h : blank as = false) (bs : List Char) :
    trimStart (as ++ bs) = trimStart as ++ bs := by
  have hne : trimStart as ≠ [] := fun e => by
    rw [trimStart_eq_nil_iff.1 e] at h
    cases h
  unfold trimStart at hne ⊢
  rw [List.dropWhile_append, if_neg (by simpa using hne)]

theorem trim_append_left {front : List Char} (h : blank front = true) (cs : List Char) :
    trim (front ++ cs) = trim cs := by
  unfold trim trimStart
  rw [List.dropWhile_append_of_pos (List.all_eq_true.1 h)]

theorem trimEnd_append_right {back : List Char} (h : blank back = true) (cs : List Char) :
    trimEnd (cs ++ back) = trimEnd cs := by
  unfold trimEnd
  rw [List.reverse_append, List.dropWhile_append_of_pos]
  exact fun c hc => List.all_eq_true.1 h c (List.mem_reverse.1 hc)

theorem trim_eq_nil_iff {cs : List Char} : trim cs = [] ↔ blank cs = true := by
  obtain ⟨front, hfront, hstart⟩ := exists_trimStart cs
  obtain ⟨back, hback, hend⟩ := exists_trimEnd (trimStart cs)
  constructor
  · intro h
    rw [← hstart, ← hend, blank_append, blank_append]
    unfold trim at h
    rw [h]
    exact ⟨hfront, rfl, hback⟩
  · intro h
    unfold trim
    rw [trimStart_eq_nil_iff.2 h]
    rfl

theorem trimmed_eq_empty_iff {s : String} : trimmed s = "" ↔ blank s.toList = true := by
  unfold trimmed
  rw [← trim_eq_nil_iff, ← String.toList_inj, String.toList_ofList]
  rfl

theorem trim_append_right {back : List Char} (h : blank back = true) (cs : List Char) :
    trim (cs ++ back) = trim cs := by
  by_cases hcs : blank cs = true
  · rw [trim_eq_nil_iff.2 hcs, trim_eq_nil_iff.2 (blank_append.2 ⟨hcs, h⟩)]
  · unfold trim
    rw [trimStart_append_of_not_blank (by simpa using hcs), trimEnd_append_right h]

theorem trim_trimStart (cs : List Char) : trim (trimStart cs) = trim cs := by
  obtain ⟨front, hfront, h⟩ := exists_trimStart cs
  calc trim (trimStart cs) = trim (front ++ trimStart cs) := (trim_append_left hfront _).symm
    _ = trim cs := by rw [h]

theorem trim_trimEnd (cs : List Char) : trim (trimEnd cs) = trim cs := by
  obtain ⟨back, hback, h⟩ := exists_trimEnd cs
  calc trim (trimEnd cs) = trim (trimEnd cs ++ back) := (trim_append_right hback _).symm
    _ = trim cs := by rw [h]

theorem mem_of_mem_trim {cs : List Char} {c : Char} (h : c ∈ trim cs) : c ∈ cs := by
  obtain ⟨front, -, hstart⟩ := exists_trimStart cs
  obtain ⟨back, -, hend⟩ := exists_trimEnd (trimStart cs)
  rw [← hstart, ← hend]
  exact List.mem_append_right _ (List.mem_append_left _ h)

/-- Blanks are taken off up to a character that is none, wherever it stands. -/
theorem dropWhile_append_cons {c : Char} (hc : isBlank c = false) (as bs : List Char) :
    (as ++ c :: bs).dropWhile isBlank = as.dropWhile isBlank ++ c :: bs := by
  rw [List.dropWhile_append]
  split
  · next h =>
    rw [List.isEmpty_iff.1 h, List.dropWhile_cons_of_neg (by simp [hc])]
    rfl
  · rfl

/-- What is left of a text around a character that is no blank. -/
theorem trim_append_cons {c : Char} (hc : isBlank c = false) (as bs : List Char) :
    trim (as ++ c :: bs) = trimStart as ++ c :: trimEnd bs := by
  unfold trim trimEnd trimStart
  rw [dropWhile_append_cons hc, List.reverse_append, List.reverse_cons, List.append_assoc,
    List.singleton_append, dropWhile_append_cons hc]
  simp

end StoreGateway.Text
