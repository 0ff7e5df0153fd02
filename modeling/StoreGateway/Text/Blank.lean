/-!
# Blank characters

Text from the environment, from tools and from record streams is trimmed, and a value is quoted
for display when it holds a blank.

* `isBlank`: the code points of Unicode `White_Space`;
* `trimStart`, `trimEnd`, `trim`: a text without the blanks at its ends;
* `blank`: a text of blanks only.
-/

namespace StoreGateway.Text

/-- The code points with the property `White_Space`, as closed ranges. -/
def blankRanges : List (Nat × Nat) :=
  [(0x09, 0x0D), (0x20, 0x20), (0x85, 0x85), (0xA0, 0xA0), (0x1680, 0x1680), (0x2000, 0x200A),
    (0x2028, 0x2029), (0x202F, 0x202F), (0x205F, 0x205F), (0x3000, 0x3000)]

def isBlank (c : Char) : Bool :=
  blankRanges.any fun r => r.1 ≤ c.toNat && c.toNat ≤ r.2

def trimStart (cs : List Char) : List Char :=
  cs.dropWhile isBlank

def trimEnd (cs : List Char) : List Char :=
  (cs.reverse.dropWhile isBlank).reverse

def trim (cs : List Char) : List Char :=
  trimEnd (trimStart cs)

def blank (cs : List Char) : Bool :=
  cs.all isBlank

/-- `trim` on strings. -/
def trimmed (s : String) : String :=
  String.ofList (trim s.toList)

theorem trimStart_eq_nil_iff {cs : List Char} : trimStart cs = [] ↔ blank cs = true := by
  induction cs with
  | nil => simp [trimStart, blank]
  | cons c cs ih =>
    by_cases h : isBlank c = true <;> simp_all [trimStart, blank]

end StoreGateway.Text
