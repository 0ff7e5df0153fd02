import Mathlib.Data.List.Chain
import StoreGateway.Json.Token
import StoreGateway.Proofs.Spellings
import StoreGateway.Text.Blank

/-!
# Written tokens are read back

A text that was written token by token is read back as these tokens, if no two words stand side by
side: only names and numbers need another token to show where they end.

* `Token.Writable`: a number is spelled as the format wants it;
* `Token.Written`: writable tokens of which no word follows a word;
* `Token.Holds`: the tokens that a state of the automaton has read, if the text ends there;
* `foldlM_text`, `foldlM_texts`: what one token and what many make of a state;
* `scan_texts`: the tokens of a written text;
* `le_of_mem_text`, `exists_mem_text`: no control character is written, and more than blanks are.
-/

namespace StoreGateway.Json

open StoreGateway.Text StoreGateway.Number

namespace Token

/-- Names and numbers. -/
def isWord : Token → Bool
  | null | bool _ | number _ => true
  | _ => false

def Writable : Token → Prop
  | number s => s.WellFormed ∧ strict s = true
  | _ => True

structure Written (ts : List Token) : Prop where
  writable : ∀ t ∈ ts, t.Writable
  spaced : ts.IsChain fun a b => (a.isWord && b.isWord) = false

theorem writable_of_not_isWord {t : Token} (h : t.isWord = false) : t.Writable := by
  cases t with
  | number s => cases h
  | _ => trivial

namespace Written

variable {ts us : List Token} {t : Token}

theorem nil : Written [] :=
  ⟨by simp, .nil⟩

theorem singleton (h : t.Writable) : Written [t] :=
  ⟨by simpa using h, .singleton t⟩

/-- Before a token that is no word, anything may stand. -/
theorem cons (h : t.isWord = false) (hts : Written ts) : Written (t :: ts) := by
  refine ⟨fun u hu => ?_, hts.spaced.cons fun b _ => by rw [h, Bool.false_and]⟩
  rcases List.mem_cons.1 hu with rfl | hu
  · exact writable_of_not_isWord h
  · exact hts.writable u hu

/-- Around a token that is no word, anything may stand. -/
theorem append_cons (hts : Written ts) (h : t.isWord = false) (hus : Written us) :
    Written (ts ++ t :: us) := by
  refine ⟨fun u hu => ?_, hts.spaced.append (cons h hus).spaced fun a _ b hb => ?_⟩
  · rcases List.mem_append.1 hu with hu | hu
    · exact hts.writable u hu
    · exact (cons h hus).writable u hu
  · obtain rfl : t = b := Option.some.inj hb
    rw [h, Bool.and_false]

end Written

/-- The tokens read, the newest first, if the text ends at this state. -/
inductive Holds : Scan → List Token → Prop
  | between (ts : List Token) : Holds ⟨ts, .between⟩ ts
  | word {ts : List Token} {seen : List Char} {t : Token} (h : ofWord? seen.reverse = some t) :
      Holds ⟨ts, .word seen⟩ (t :: ts)

theorem finish_of_holds {s : Scan} {ts : List Token} (h : Holds s ts) : finish s = some ts.reverse := by
  cases h with
  | between => rfl
  | word h => simp [finish, h]

/-! ## Strings -/

/-- A part of a string that stands for one character. -/
def Denotes (p : Piece) (c : Char) : Prop :=
  ∀ ps, join? (p :: ps) = (join? ps).map (c :: ·)

theorem denotes_char (c : Char) : Denotes (.char c) c := fun _ => rfl

theorem denotes_unit {c : Char} (h : c.toNat < 0xD800) : Denotes (.unit c.toNat) c := by
  have hhigh : isHigh c.toNat = false := by simp [isHigh]; omega
  have hlow : isLow c.toNat = false := by simp [isLow]; omega
  intro ps
  rcases ps with _ | ⟨_ | n, ps⟩ <;> simp [join?, hhigh, hlow, Char.ofNat_toNat]

theorem foldlM_controlDigits {c : Char} (h : c.toNat < 0x20) (ts : List Token) (seen : List Piece) :
    (controlDigits c).foldlM step ⟨ts, .hex seen 0 0⟩ = some ⟨ts, .string (.unit c.toNat :: seen)⟩ := by
  have htens : hexValue? (if c.toNat < 16 then '0' else '1') = some (c.toNat / 16) := by
    split
    · rw [Nat.div_eq_of_lt ‹_›]
      rfl
    · rw [show c.toNat / 16 = 1 by omega]
      rfl
  have hunits : ∀ n < 16, hexValue? (Nat.digitChar n) = some n := by decide
  have hzero : hexValue? '0' = some 0 := rfl
  have hsum : 16 * (c.toNat / 16) + c.toNat % 16 = c.toNat := Nat.div_add_mod _ _
  simp [controlDigits, step, hzero, htens, hunits _ (Nat.mod_lt _ (by decide)), hsum]

/-- A written character is read as one part that stands for it. -/
theorem foldlM_escapeChar (c : Char) (ts : List Token) (seen : List Piece) : ∃ p,
    (escapeChar c).foldlM step ⟨ts, .string seen⟩ = some ⟨ts, .string (p :: seen)⟩ ∧ Denotes p c := by
  unfold escapeChar
  split
  case h_8 hquote hback _ _ _ _ _ =>
    split
    · next hcontrol =>
      exact ⟨.unit c.toNat, foldlM_controlDigits hcontrol ts seen, denotes_unit (by omega)⟩
    · next hplain =>
      refine ⟨.char c, ?_, denotes_char c⟩
      simp [step, hplain, show c ≠ '"' from hquote, show c ≠ '\\' from hback]
  all_goals exact ⟨.char _, rfl, denotes_char _⟩

theorem foldlM_escapeChars (cs : List Char) (ts : List Token) (seen : List Piece) : ∃ ps,
    (cs.flatMap escapeChar).foldlM step ⟨ts, .string seen⟩ = some ⟨ts, .string (ps.reverse ++ seen)⟩ ∧
      join? ps = some cs := by
  induction cs generalizing seen with
  | nil => exact ⟨[], rfl, rfl⟩
  | cons c cs ih =>
    obtain ⟨p, hp, hdenotes⟩ := foldlM_escapeChar c ts seen
    obtain ⟨ps, hps, hjoin⟩ := ih (p :: seen)
    refine ⟨p :: ps, ?_, by rw [hdenotes, hjoin]; rfl⟩
    rw [List.flatMap_cons, List.foldlM_append, hp]
    simpa using hps

/-- A string is read back from behind its first quotation mark. -/
theorem foldlM_string (s : String) (ts : List Token) :
    (s.toList.flatMap escapeChar ++ ['"']).foldlM step ⟨ts, .string []⟩ =
      some ⟨string s :: ts, .between⟩ := by
  obtain ⟨ps, hps, hjoin⟩ := foldlM_escapeChars s.toList ts []
  rw [List.foldlM_append, hps]
  simp [step, ofPieces, hjoin]

/-! ## Words -/

/-- The characters that end a word. -/
def delimiters : List Char :=
  [' ', '\t', '\n', '\r', '"', '[', ']', '{', '}', ',', ':']

theorem mem_delimiters {c : Char} (h : endsWord c = true) : c ∈ delimiters := by
  simp only [endsWord, isSpace, Bool.or_eq_true, decide_eq_true_eq] at h
  rcases h with ((((rfl | rfl) | rfl) | rfl) | rfl) | h
  case inr =>
    unfold punctuation? at h
    split at h <;> first | exact absurd h (by decide) | decide
  all_goals decide

theorem endsWord_of_mem_text {s : Spelling} (h : s.WellFormed) {c : Char} (hc : c ∈ s.text) :
    endsWord c = false := by
  refine Bool.eq_false_iff.2 fun hend => ?_
  have hno : ∀ c ∈ delimiters, c.isDigit = false ∧ c ∉ ['+', '-', '.', 'e', 'E'] := by
    simp [delimiters]
  obtain ⟨hdigit, hsign⟩ := hno c (mem_delimiters hend)
  exact s.not_mem_text h hdigit hsign hc

theorem endsWord_of_all {cs : List Char} (h : cs.all (!endsWord ·) = true) {c : Char} (hc : c ∈ cs) :
    endsWord c = false := by
  simpa using List.all_eq_true.1 h c hc

section

variable {t : Token} (hword : t.isWord = true) (ht : t.Writable)
include hword ht

theorem ofWord?_text : ofWord? t.text = some t := by
  cases t with
  | null => decide
  | bool b => cases b <;> decide
  | number s =>
    obtain ⟨hs, hstrict⟩ := ht
    show ofWord? s.text = _
    unfold ofWord?
    have hne : ∀ w : List Char, ∀ c ∈ w, c.isDigit = false → c ∉ ['+', '-', '.', 'e', 'E'] →
        s.text ≠ w := by
      rintro w c hc hdigit hsign rfl
      exact s.not_mem_text hs hdigit hsign hc
    rw [if_neg (hne _ 'n' (by decide) (by decide) (by decide)),
      if_neg (hne _ 't' (by decide) (by decide) (by decide)),
      if_neg (hne _ 'f' (by decide) (by decide) (by decide)), s.scan_text hs]
    exact if_pos hstrict
  | _ => cases hword

theorem endsWord_of_mem {c : Char} (hc : c ∈ t.text) : endsWord c = false := by
  cases t with
  | null => exact endsWord_of_all (by decide) hc
  | bool b => cases b <;> exact endsWord_of_all (by decide) hc
  | number s => exact endsWord_of_mem_text ht.1 hc
  | _ => cases hword

theorem text_ne_nil : t.text ≠ [] := by
  intro hnil
  have hread := ofWord?_text hword ht
  rw [hnil, show ofWord? [] = none by decide] at hread
  cases hread

end

theorem isWord_of_ofWord? {w : List Char} {t : Token} (h : ofWord? w = some t) : t.isWord = true := by
  unfold ofWord? at h
  repeat' split at h
  all_goals cases h
  all_goals rfl

theorem foldlM_word {cs : List Char} (h : ∀ c ∈ cs, endsWord c = false) (ts : List Token)
    (seen : List Char) : cs.foldlM step ⟨ts, .word seen⟩ = some ⟨ts, .word (cs.reverse ++ seen)⟩ := by
  induction cs generalizing seen with
  | nil => rfl
  | cons c cs ih =>
    have hc := h c List.mem_cons_self
    rw [List.foldlM_cons]
    show (if endsWord c then _ else some _) >>= _ = _
    rw [hc]
    simpa using ih (fun d hd => h d (List.mem_cons_of_mem c hd)) (c :: seen)

/-- What begins a word is no space, quotation mark or punctuation. -/
theorem start_of_not_endsWord {c : Char} (h : endsWord c = false) (ts : List Token) :
    start ts c = ⟨ts, .word [c]⟩ := by
  simp only [endsWord, Bool.or_eq_false_iff, decide_eq_false_iff_not] at h
  obtain ⟨⟨hspace, hquote⟩, hpunctuation⟩ := h
  unfold start
  rw [hspace, if_neg (by decide), if_neg hquote]
  split
  · next heq =>
    rw [heq] at hpunctuation
    cases hpunctuation
  · rfl

/-! ## Whole texts -/

/-- A character that ends a word does the same behind a word and between tokens. -/
theorem step_of_holds {s : Scan} {ts : List Token} (h : Holds s ts) {c : Char}
    (hc : endsWord c = true) : step s c = some (start ts c) := by
  cases h with
  | between => rfl
  | word h =>
    show (if endsWord c then (ofWord? _).map _ else _) = _
    rw [hc, if_pos rfl, h]
    rfl

theorem foldlM_of_isWord {t : Token} (hword : t.isWord = true) (ht : t.Writable) (ts : List Token) :
    t.text.foldlM step ⟨ts, .between⟩ = some ⟨ts, .word t.text.reverse⟩ := by
  obtain ⟨c, cs, hcs⟩ := List.exists_cons_of_ne_nil (text_ne_nil hword ht)
  have hends : ∀ d ∈ c :: cs, endsWord d = false := fun d hd => endsWord_of_mem hword ht (hcs ▸ hd)
  rw [hcs, List.foldlM_cons, List.reverse_cons]
  show some (start ts c) >>= _ = _
  rw [start_of_not_endsWord (hends c List.mem_cons_self)]
  exact foldlM_word (fun d hd => hends d (List.mem_cons_of_mem c hd)) ts [c]

theorem foldlM_of_not_isWord {t : Token} (hword : t.isWord = false) {s : Scan} {ts : List Token}
    (h : Holds s ts) : t.text.foldlM step s = some ⟨t :: ts, .between⟩ := by
  cases t with
  | null | bool | number => cases hword
  | string x =>
    show ('"' :: (x.toList.flatMap escapeChar ++ ['"'])).foldlM step s = _
    rw [List.foldlM_cons, step_of_holds h (by decide)]
    exact foldlM_string x ts
  | unpaired =>
    show ('"' :: _).foldlM step s = _
    rw [List.foldlM_cons, step_of_holds h (by decide)]
    rfl
  | _ =>
    show [_].foldlM step s = _
    rw [List.foldlM_cons, step_of_holds h (by decide)]
    rfl

/-- The text of a token adds the token to those read, but for a word behind a word. -/
theorem foldlM_text {s : Scan} {ts : List Token} (h : Holds s ts) {t : Token} (ht : t.Writable)
    (hside : ∀ a ∈ ts.head?, (a.isWord && t.isWord) = false) :
    ∃ s', t.text.foldlM step s = some s' ∧ Holds s' (t :: ts) := by
  cases hword : t.isWord with
  | false => exact ⟨_, foldlM_of_not_isWord hword h, .between _⟩
  | true =>
    cases h with
    | between =>
      refine ⟨_, foldlM_of_isWord hword ht ts, .word ?_⟩
      rw [List.reverse_reverse, ofWord?_text hword ht]
    | word h =>
      have hprev := hside _ rfl
      rw [isWord_of_ofWord? h, hword] at hprev
      cases hprev

theorem foldlM_texts {ts : List Token} (hts : Written ts) {s : Scan} {seen : List Token}
    (h : Holds s seen)
    (hside : ∀ a ∈ seen.head?, ∀ b ∈ ts.head?, (a.isWord && b.isWord) = false) :
    ∃ s', (ts.flatMap text).foldlM step s = some s' ∧ Holds s' (ts.reverse ++ seen) := by
  induction ts generalizing s seen with
  | nil => exact ⟨s, rfl, h⟩
  | cons t ts ih =>
    obtain ⟨hnext, hrest⟩ := List.isChain_cons.1 hts.spaced
    obtain ⟨s', hs', h'⟩ :=
      foldlM_text h (hts.writable t List.mem_cons_self) fun a ha => hside a ha t rfl
    obtain ⟨s'', hs'', h''⟩ :=
      ih ⟨fun u hu => hts.writable u (List.mem_cons_of_mem t hu), hrest⟩ h' (by
        rintro a ⟨⟩ b hb
        exact hnext b hb)
    refine ⟨s'', ?_, by simpa using h''⟩
    rw [List.flatMap_cons, List.foldlM_append, hs']
    exact hs''

/-- The tokens of a written text are read back. -/
theorem scan_texts {ts : List Token} (hts : Written ts) : scan (ts.flatMap text) = some ts := by
  obtain ⟨s, hs, h⟩ := foldlM_texts hts (.between []) (by rintro a ⟨⟩)
  unfold scan
  rw [hs]
  simpa using finish_of_holds h

/-! ## Characters of a written text -/

theorem le_of_all {cs : List Char} (h : cs.all (0x20 ≤ ·.toNat) = true) {c : Char} (hc : c ∈ cs) :
    0x20 ≤ c.toNat := by
  simpa using List.all_eq_true.1 h c hc

theorem le_of_mem_controlDigits {c d : Char} (h : d ∈ controlDigits c) : 0x20 ≤ d.toNat := by
  have hunits : ∀ n < 16, 0x20 ≤ (Nat.digitChar n).toNat := by decide
  simp only [controlDigits, List.mem_cons, List.not_mem_nil, or_false] at h
  rcases h with rfl | rfl | rfl | rfl
  · decide
  · decide
  · split <;> decide
  · exact hunits _ (Nat.mod_lt _ (by decide))

theorem le_of_mem_escapeChar {c d : Char} (h : d ∈ escapeChar c) : 0x20 ≤ d.toNat := by
  unfold escapeChar at h
  split at h
  case h_8 =>
    split at h
    · rcases List.mem_cons.1 h with rfl | h
      · decide
      rcases List.mem_cons.1 h with rfl | h
      · decide
      exact le_of_mem_controlDigits h
    · next hplain =>
      rw [List.mem_singleton.1 h]
      omega
  all_goals exact le_of_all (by decide) h

/-- No control character is written. -/
theorem le_of_mem_text {t : Token} (ht : t.Writable) {c : Char} (hc : c ∈ t.text) :
    0x20 ≤ c.toNat := by
  cases t with
  | string s =>
    rcases List.mem_cons.1 (show c ∈ '"' :: (s.toList.flatMap escapeChar ++ ['"']) from hc) with
      rfl | hc
    · decide
    rcases List.mem_append.1 hc with hc | hc
    · obtain ⟨d, -, hd⟩ := List.mem_flatMap.1 hc
      exact le_of_mem_escapeChar hd
    · rw [List.mem_singleton.1 hc]
      decide
  | number s =>
    rcases s.mem_text ht.1 hc with hdigit | hsign
    · have hle : 48 ≤ c.toNat := (Char.isDigit_iff_toNat.1 hdigit).1
      omega
    · exact le_of_all (by decide) hsign
  | bool b => cases b <;> exact le_of_all (by decide) hc
  | _ => exact le_of_all (by decide) hc

theorem isBlank_of_isDigit {c : Char} (h : c.isDigit = true) : isBlank c = false := by
  have hle : 48 ≤ c.toNat ∧ c.toNat ≤ 57 := Char.isDigit_iff_toNat.1 h
  simp [isBlank, blankRanges]
  omega

/-- Each token shows something that is not blank. -/
theorem exists_mem_text {t : Token} (ht : t.Writable) : ∃ c ∈ t.text, isBlank c = false := by
  cases t with
  | number s =>
    obtain ⟨c, cs, hcs⟩ := List.exists_cons_of_ne_nil (text_ne_nil rfl ht)
    have hc : c ∈ s.text := by
      rw [show s.text = c :: cs from hcs]
      exact List.mem_cons_self
    refine ⟨c, hc, ?_⟩
    rcases s.mem_text ht.1 hc with hdigit | hsign
    · exact isBlank_of_isDigit hdigit
    · have hsigns : ['+', '-', '.', 'e', 'E'].all (!isBlank ·) = true := by decide
      simpa using List.all_eq_true.1 hsigns c hsign
  | string s => exact ⟨'"', List.mem_cons_self, by decide⟩
  | bool b => cases b <;> exact ⟨_, List.mem_cons_self, by decide⟩
  | _ => exact ⟨_, List.mem_cons_self, by decide⟩

end Token

end StoreGateway.Json
