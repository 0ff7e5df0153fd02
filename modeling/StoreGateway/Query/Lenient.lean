import StoreGateway.Json.Basic
import StoreGateway.Number.Spelling
import StoreGateway.Text.Blank

/-!
# Lenient numbers

The query tool prints numbers as numbers or as text, at times with a unit behind them. Blanks in
front of a number and everything after it are skipped.

* `lenientFloat`: the double at the front of a value, or not a number;
* `lenientInt`: the integer at the front of a text.
-/

namespace StoreGateway.Query

open StoreGateway.Text StoreGateway.Number

/-- The word for a number beyond all others. -/
def infinityWord : List Char := "Infinity".toList

/-- The double at the front of a text, or not a number when no number is there. -/
def floatOfText (cs : List Char) : Binary64 :=
  let cs := trimStart cs
  let (sign, rest) := takeSign cs
  if infinityWord.isPrefixOf rest then .infinity (sign = .minus)
  else match Spelling.scan cs with
    | some (s, _) => s.round
    | none => .nan

/-- The double that a field holds; not a number when it is absent or holds something else. -/
def lenientFloat : Option Json → Binary64
  | some (.int i _) => .ofInt i
  | some (.float x) => .finite x
  | some (.str s) => floatOfText s.toList
  | _ => .nan

/-- The integer of sixty-four bits at the front of a text. -/
def lenientInt (s : String) : Option Int :=
  (leadingInt (trimStart s.toList)).bind signed64?

end StoreGateway.Query
