/-!
# Decimal numerals

* `digits n`: the decimal digits of `n`, without leading zeros;
* `signed i`: an integer with `-` in front when it is negative;
* `value ds`: the number that a list of digits denotes;
* `leadingInt`: an optional sign and the longest run of digits at the front of a text;
* `readSigned`: a whole text as a signed integer;
* `readBounded`: a whole text as a natural number below a limit, with the cause of a failure;
* `signed64?`: an integer that is a signed integer of sixty-four bits.
-/

namespace StoreGateway.Text

/-- The decimal digits of a number, most significant first. -/
def digits (n : Nat) : List Char :=
  Nat.toDigits 10 n

def signed : Int → List Char
  | .ofNat n => digits n
  | .negSucc n => '-' :: digits (n + 1)

/-- The number that digits denote. -/
def value (ds : List Char) : Nat :=
  Nat.ofDigitChars 10 ds 0

/-- The sign in front of a numeral. -/
inductive Sign where
  | absent | plus | minus
deriving DecidableEq, Repr

/-- The integer of a sign and a magnitude. -/
def Sign.apply : Sign → Nat → Int
  | .minus, n => -(n : Int)
  | _, n => n

/-- Takes a sign off the front of a text. -/
def takeSign : List Char → Sign × List Char
  | '+' :: cs => (.plus, cs)
  | '-' :: cs => (.minus, cs)
  | cs => (.absent, cs)

/-- The integer at the front of a text: an optional sign and all digits that follow it. -/
def leadingInt (cs : List Char) : Option Int :=
  let (sign, rest) := takeSign cs
  let ds := rest.takeWhile Char.isDigit
  if ds.isEmpty then none else some (sign.apply (value ds))

/-- A text that is an optional sign and one or more digits, and nothing else. -/
def readSigned (cs : List Char) : Option Int :=
  if (takeSign cs).2.all Char.isDigit then leadingInt cs else none

/-- Why a text is not a natural number below a limit. -/
inductive NumeralError where
  | empty
  | invalidDigit
  | tooLarge
deriving DecidableEq, Repr

def NumeralError.message : NumeralError → String
  | .empty => "cannot parse integer from empty string"
  | .invalidDigit => "invalid digit found in string"
  | .tooLarge => "number too large to fit in target type"

/-- Reads digits after `acc`, from left to right, up to the first that is wrong or one too many. -/
def readDigits (limit acc : Nat) : List Char → Except NumeralError Nat
  | [] => .ok acc
  | c :: cs =>
    if c.isDigit then
      let next := Nat.ofDigitChars 10 [c] acc
      if next < limit then readDigits limit next cs else .error .tooLarge
    else .error .invalidDigit

/-- An optional `+` and decimal digits that denote a number below `limit`. -/
def readBounded (limit : Nat) : List Char → Except NumeralError Nat
  | [] => .error .empty
  | ['+'] => .error .invalidDigit
  | '+' :: cs => readDigits limit 0 cs
  | cs => readDigits limit 0 cs

/-- Whether `i` is a signed integer of sixty-four bits. -/
def fitsSigned64 (i : Int) : Bool :=
  -Int.pow 2 63 ≤ i && i < Int.pow 2 63

/-- `i` when it is a signed integer of sixty-four bits. -/
def signed64? (i : Int) : Option Int :=
  if fitsSigned64 i then some i else none

theorem isDigit_of_mem_digits {n : Nat} {c : Char} (h : c ∈ digits n) : c.isDigit = true :=
  Nat.isDigit_of_mem_toDigits (by decide) (by decide) h

theorem digits_ne_nil (n : Nat) : digits n ≠ [] :=
  Nat.toDigits_ne_nil

/-- The digits of a number denote it. -/
theorem value_digits (n : Nat) : value (digits n) = n :=
  Nat.ofDigitChars_ten_toDigits

end StoreGateway.Text
