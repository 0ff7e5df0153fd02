import StoreGateway.Query.Lenient
import StoreGateway.Text.Scan

/-!
# Lenient numbers by byte

The numbers of `Query/Lenient`, found with an index into the bytes of the text. The text is cut
where a number ends, and what is in front of the cut is read as a whole.

* `readFloat`: a whole text as a double;
* `behindFraction`, `behindExponent`: the index behind these parts of a number;
* `scanFloat`, `scanInt`: the number at the front of a text.
-/

namespace StoreGateway.Query

open StoreGateway.Text StoreGateway.Number

/-- The words that are read as doubles, in small letters, with the double of each for either sign. -/
def floatWords : List (List Char × (Bool → Binary64)) :=
  [("inf".toList, .infinity), ("infinity".toList, .infinity), ("nan".toList, fun _ => .nan)]

/-- A text that is a number or a word for a double, behind an optional sign, and nothing else. -/
def readFloat (cs : List Char) : Option Binary64 :=
  let (sign, rest) := takeSign cs
  match floatWords.find? fun w => w.1 = rest.map Char.toLower with
  | some w => some (w.2 (sign = .minus))
  | none => match Spelling.scan cs with
    | some (s, []) => some s.round
    | _ => none

def isPointByte (b : UInt8) : Bool :=
  b = '.'.toUInt8

def isMinusByte (b : UInt8) : Bool :=
  b = '-'.toUInt8

def isExponentByte (b : UInt8) : Bool :=
  b = 'e'.toUInt8 || b = 'E'.toUInt8

/--
The number of digits and the index behind a point and its digits, given the number of digits in front.
A point without digits on either side does not belong to the number.
-/
def behindFraction (s : String) (count i : Nat) : Scan (Nat × Nat) := do
  if ← byteIs s isPointByte i then
    let start ← sum i 1
    let stop ← behindDigits s start
    if 0 < count ∨ start < stop then
      let more ← difference stop start
      return (← sum count more, stop)
    else return (count, i)
  else return (count, i)

/-- The index behind an exponent, if its marker is followed by digits. -/
def behindExponent (s : String) (i : Nat) : Scan Nat := do
  if ← byteIs s isExponentByte i then
    let start ← behindSign s (← sum i 1)
    let stop ← behindDigits s start
    return if start < stop then stop else i
  else return i

/-- The double at the front of a text without blanks in front. -/
def scanTrimmedFloat (s : String) : Scan Binary64 := do
  let start ← behindSign s 0
  if infinityWord.isPrefixOf (← textFrom s start).toList then
    return .infinity (← byteIs s isMinusByte 0)
  else
    let whole ← behindDigits s start
    let (count, fraction) ← behindFraction s (← difference whole start) whole
    if count = 0 then return .nan
    else
      let stop ← behindExponent s fraction
      return (readFloat (← textTo s stop).toList).getD .nan

/-- The integer of sixty-four bits at the front of a text without blanks in front. -/
def scanTrimmedInt (s : String) : Scan (Option Int) := do
  let start ← behindSign s 0
  cutBytes s start
  let stop ← behindDigits s start
  if stop = start then return none
  else return (readSigned (← textTo s stop).toList).bind signed64?

/-- A text without the blanks in front. -/
def startTrimmed (s : String) : String :=
  String.ofList (trimStart s.toList)

def scanFloat (s : String) : Scan Binary64 :=
  scanTrimmedFloat (startTrimmed s)

def scanInt (s : String) : Scan (Option Int) :=
  scanTrimmedInt (startTrimmed s)

end StoreGateway.Query
