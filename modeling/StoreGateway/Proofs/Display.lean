import StoreGateway.Proofs.Argv

/-!
# A displayed line tells its arguments apart

In a quoted word a backslash stands in front of each quotation mark, but none in front of another
backslash. So a word that ends in a backslash is closed by a mark that looks like one of its own, and
a line can be read wrongly for a while. Whoever misses the end of a word in this way is inside a word
wherever the writer is between two, and the other way round. Each sees the next mark behind a space,
where it opens or closes a word but never is part of one, so both change sides at once and never meet
again; but at the end of the line both have to be outside.

* `behind`, `inside`: what is left of a line at the end of a word, and inside a quoted one;
* `behind_ne_inside`: one line is never both;
* `inside_inj`, `behind_inj`: the words that are left are determined;
* `displayWords_inj`: a line determines its words.
-/

namespace StoreGateway.Command.Arguments

/-- What is left of a line at the end of a word. -/
def behind (ws : List (List Char)) : List Char :=
  ws.flatMap fun w => ' ' :: displayWord w

/-- What is left of a line inside a quoted word, of which `v` is left. -/
def inside (v : List Char) (ws : List (List Char)) : List Char :=
  v.flatMap escapeQuote ++ '"' :: behind ws

theorem behind_cons (w : List Char) (ws : List (List Char)) :
    behind (w :: ws) = ' ' :: (displayWord w ++ behind ws) := rfl

theorem inside_nil (ws : List (List Char)) : inside [] ws = '"' :: behind ws := rfl

theorem inside_mark (v : List Char) (ws : List (List Char)) :
    inside ('"' :: v) ws = '\\' :: '"' :: inside v ws := rfl

theorem inside_cons {c : Char} (h : c ≠ '"') (v : List Char) (ws : List (List Char)) :
    inside (c :: v) ws = c :: inside v ws := by
  unfold inside
  rw [List.flatMap_cons, escapeQuote, if_neg h]
  rfl

/-! ## Words -/

theorem displayWord_plain {w : List Char} (h : needsQuotes w = false) : displayWord w = w := by
  unfold displayWord
  rw [h]
  rfl

theorem displayWord_quoted {w : List Char} (h : needsQuotes w = true) (ws : List (List Char)) :
    displayWord w ++ behind ws = '"' :: inside w ws := by
  unfold displayWord inside
  rw [if_pos h]
  simp

theorem plain_iff {w : List Char} :
    needsQuotes w = false ↔ w ≠ [] ∧ ∀ c ∈ w, Text.isBlank c = false ∧ c ≠ '"' := by
  simp [needsQuotes]

theorem displayWord_ne_nil (w : List Char) : displayWord w ≠ [] := by
  cases h : needsQuotes w with
  | false =>
    rw [displayWord_plain h]
    exact (plain_iff.1 h).1
  | true =>
    intro hnil
    have hline := displayWord_quoted h []
    rw [hnil] at hline
    cases hline

/-- Behind a word there is a space or nothing. -/
theorem behind_ne_mark (ws : List (List Char)) (r : List Char) : behind ws ≠ '"' :: r := by
  cases ws with
  | nil => simp [behind]
  | cons w ws => simp [behind_cons]

/-! ## Two readings of a line -/

/-- A mark that has no backslash in front of it is the end of the word. -/
theorem eq_nil_of_mark {v r : List Char} {ws : List (List Char)} (h : '"' :: r = inside v ws) :
    v = [] ∧ r = behind ws := by
  cases v with
  | nil =>
    rw [inside_nil] at h
    exact ⟨rfl, (List.cons.inj h).2⟩
  | cons c v =>
    by_cases hc : c = '"'
    · rw [hc, inside_mark] at h
      simp at h
    · rw [inside_cons hc] at h
      exact absurd (List.cons.inj h).1.symm hc

/-- What holds no mark and has none behind it is read inside a word as part of that word. -/
theorem exists_inside {p r v : List Char} {ws : List (List Char)} (hp : ∀ c ∈ p, c ≠ '"')
    (hr : ∀ t, r ≠ '"' :: t) (h : p ++ r = inside v ws) : ∃ u, r = inside u ws := by
  induction p generalizing v with
  | nil => exact ⟨v, h⟩
  | cons c p ih =>
    have hc : c ≠ '"' := hp c List.mem_cons_self
    have hp' : ∀ d ∈ p, d ≠ '"' := fun d hd => hp d (List.mem_cons_of_mem _ hd)
    rw [List.cons_append] at h
    cases v with
    | nil =>
      rw [inside_nil] at h
      exact absurd (List.cons.inj h).1 hc
    | cons d v =>
      by_cases hd : d = '"'
      · rw [hd, inside_mark] at h
        have hmark : p ++ r = '"' :: inside v ws := (List.cons.inj h).2
        cases p with
        | nil => exact absurd hmark (hr _)
        | cons e p => exact absurd (List.cons.inj hmark).1 (hp' e List.mem_cons_self)
      · rw [inside_cons hd] at h
        exact ih hp' (List.cons.inj h).2

/-- What is left of a line at the end of a word cannot be read as the inside of one. -/
theorem behind_ne_inside (ws us : List (List Char)) (v : List Char) : behind ws ≠ inside v us := by
  intro h
  cases ws with
  | nil =>
    have hmem : '"' ∈ inside v us := List.mem_append_right _ List.mem_cons_self
    rw [← h] at hmem
    cases hmem
  | cons w ws =>
    rw [behind_cons] at h
    cases hw : needsQuotes w with
    | false =>
      have hplain : ∀ c ∈ ' ' :: w, c ≠ '"' := by
        rintro c (_ | ⟨_, hc⟩)
        · decide
        · exact ((plain_iff.1 hw).2 c hc).2
      rw [displayWord_plain hw] at h
      obtain ⟨u, hu⟩ := exists_inside hplain (behind_ne_mark ws) h
      exact behind_ne_inside ws us u hu
    | true =>
      -- The mark that opens `w` closes the other word, so that the two readings change places.
      rw [displayWord_quoted hw] at h
      cases v with
      | nil => cases h
      | cons c v =>
        by_cases hc : c = '"'
        · rw [hc, inside_mark] at h
          cases h
        · rw [inside_cons hc] at h
          obtain ⟨-, hswap⟩ := eq_nil_of_mark (List.cons.inj h).2
          exact behind_ne_inside us ws w hswap.symm
termination_by ws.length + us.length

/-- A line inside a quoted word tells the rest of the word, and the words behind it. -/
theorem inside_inj {v u : List Char} {ws us : List (List Char)} (h : inside v ws = inside u us) :
    v = u ∧ behind ws = behind us := by
  induction v generalizing u with
  | nil =>
    rw [inside_nil] at h
    obtain ⟨hu, hrest⟩ := eq_nil_of_mark h
    exact ⟨hu.symm, hrest⟩
  | cons c v ih =>
    cases u with
    | nil =>
      rw [inside_nil] at h
      obtain ⟨hv, -⟩ := eq_nil_of_mark h.symm
      cases hv
    | cons d u =>
      by_cases hc : c = '"' <;> by_cases hd : d = '"'
      · rw [hc, hd, inside_mark, inside_mark] at h
        obtain ⟨hvu, hrest⟩ := ih (List.cons.inj (List.cons.inj h).2).2
        exact ⟨by rw [hc, hd, hvu], hrest⟩
      · -- One reads a mark of the word here, the other a backslash and the end of the word.
        rw [hc, inside_mark, inside_cons hd] at h
        obtain ⟨-, hlost⟩ := eq_nil_of_mark (List.cons.inj h).2
        exact absurd hlost.symm (behind_ne_inside us ws v)
      · rw [hd, inside_mark, inside_cons hc] at h
        obtain ⟨-, hlost⟩ := eq_nil_of_mark (List.cons.inj h).2.symm
        exact absurd hlost.symm (behind_ne_inside ws us u)
      · rw [inside_cons hc, inside_cons hd] at h
        obtain ⟨hhead, htail⟩ := List.cons.inj h
        obtain ⟨hvu, hrest⟩ := ih htail
        exact ⟨by rw [hhead, hvu], hrest⟩

/-! ## Lines -/

/-- A word without quotes ends with the first space. -/
theorem takeWhile_plain {w : List Char} (h : needsQuotes w = false) (ws : List (List Char)) :
    (w ++ behind ws).takeWhile (fun c => c ≠ ' ') = w := by
  have hw : ∀ c ∈ w, decide (c ≠ ' ') = true := by
    intro c hc
    refine decide_eq_true ?_
    rintro rfl
    exact absurd ((plain_iff.1 h).2 ' ' hc).1 (by decide)
  rw [List.takeWhile_append_of_pos hw]
  cases ws with
  | nil => exact List.append_nil w
  | cons u us =>
    rw [behind_cons, List.takeWhile_cons_of_neg (by decide)]
    exact List.append_nil w

/-- What begins without quotes is not read as a quoted word. -/
theorem plain_ne_quoted {w : List Char} (h : needsQuotes w = false) (r t : List Char) :
    w ++ r ≠ '"' :: t := by
  obtain ⟨hne, hchars⟩ := plain_iff.1 h
  cases w with
  | nil => exact absurd rfl hne
  | cons c w =>
    intro heq
    exact (hchars c List.mem_cons_self).2 (List.cons.inj heq).1

theorem behind_inj {ws us : List (List Char)} (h : behind ws = behind us) : ws = us := by
  induction ws generalizing us with
  | nil =>
    cases us with
    | nil => rfl
    | cons u us => cases h
  | cons w ws ih =>
    cases us with
    | nil => cases h
    | cons u us =>
      rw [behind_cons, behind_cons] at h
      have hline := (List.cons.inj h).2
      suffices hword : w = u ∧ behind ws = behind us by rw [hword.1, ih hword.2]
      cases hw : needsQuotes w <;> cases hu : needsQuotes u
      · rw [displayWord_plain hw, displayWord_plain hu] at hline
        have hwu : w = u := by
          rw [← takeWhile_plain hw ws, hline, takeWhile_plain hu us]
        rw [hwu] at hline
        exact ⟨hwu, List.append_cancel_left hline⟩
      · rw [displayWord_plain hw, displayWord_quoted hu] at hline
        exact absurd hline (plain_ne_quoted hw _ _)
      · rw [displayWord_quoted hw, displayWord_plain hu] at hline
        exact absurd hline.symm (plain_ne_quoted hu _ _)
      · rw [displayWord_quoted hw, displayWord_quoted hu] at hline
        exact inside_inj (List.cons.inj hline).2

theorem behind_eq (w : List Char) (ws : List (List Char)) :
    behind (w :: ws) = ' ' :: displayWords (w :: ws) := by
  induction ws generalizing w with
  | nil =>
    rw [behind_cons]
    show ' ' :: (displayWord w ++ []) = ' ' :: displayWord w
    rw [List.append_nil]
  | cons u us ih =>
    rw [behind_cons, ih]
    rfl

/-- A line determines its words. -/
theorem displayWords_inj {ws us : List (List Char)} (h : displayWords ws = displayWords us) :
    ws = us := by
  have hne : ∀ (w : List Char) (ws : List (List Char)), displayWords (w :: ws) ≠ [] := by
    intro w ws
    cases ws with
    | nil => exact displayWord_ne_nil w
    | cons u us => exact List.append_ne_nil_of_left_ne_nil (displayWord_ne_nil w) _
  cases ws with
  | nil =>
    cases us with
    | nil => rfl
    | cons u us => exact absurd h.symm (hne u us)
  | cons w ws =>
    cases us with
    | nil => exact absurd h (hne w ws)
    | cons u us =>
      refine behind_inj ?_
      rw [behind_eq, behind_eq, h]

/--
**A displayed line tells its arguments apart.** Whatever the values are, two argument lists are
displayed alike exactly if their words are the same, and exactly if they are the same list.
-/
theorem display_eq_iff (as bs : Arguments) :
    (as.display = bs.display ↔ as.argv = bs.argv) ∧ (as.display = bs.display ↔ as = bs) := by
  have hwords : as.display = bs.display → as.argv = bs.argv := by
    intro h
    have hlines := displayWords_inj (String.ofList_injective h)
    exact (List.map_inj_right fun _ _ => String.toList_inj.1).1 hlines
  have hline : as.argv = bs.argv → as.display = bs.display := by
    intro h
    unfold display
    rw [h]
  refine ⟨⟨hwords, hline⟩, fun h => argv_inj (hwords h), ?_⟩
  rintro rfl
  rfl

-- A value that ends in a backslash, and one that goes on with a mark: the lines part only later.
example :
    display [.opt .table "a \\", .switch .json] = "-table \"a \\\" -json" ∧
      display [.opt .table "a \" -json"] = "-table \"a \\\" -json\"" := by
  decide

end StoreGateway.Command.Arguments
