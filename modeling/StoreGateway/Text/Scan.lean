import StoreGateway.Text.Numeral

/-!
# Scans over the bytes of a text

A scan keeps an index into the bytes of a text, reads bytes and cuts the text at it. It is stopped by
a byte behind the end, by a cut inside a character or behind the end, and by a difference below zero.
Where it looks is recorded, and so are the sums that it forms.

* `Look`, `Look.Sound`: where a scan looks, and whether it may look there;
* `Scan`: what a scan looked at, and its result unless it was stopped;
* `byteAt`, `cutBytes`, `textFrom`, `textTo`, `sum`, `difference`: the steps of a scan;
* `byteIs`, `behindSign`, `behindDigits`: a test of a byte, and the index behind a sign and digits.
-/

namespace StoreGateway.Text

/-- A byte that is read, a cut, or a sum that is formed. -/
inductive Look where
  | byte (i : Nat)
  | cut (i : Nat)
  | sum (n : Nat)
deriving DecidableEq, Repr

/--
Bytes are read and cuts are made within the text and between two characters. A sum is no greater than
the length of the text, so it fits where that length does.
-/
def Look.Sound (s : String) : Look → Prop
  | .byte i => i < s.utf8ByteSize ∧ String.Pos.Raw.IsValid s ⟨i⟩
  | .cut i => i ≤ s.utf8ByteSize ∧ String.Pos.Raw.IsValid s ⟨i⟩
  | .sum n => n ≤ s.utf8ByteSize

/-- What a scan looked at, in order, and its result. There is none when the scan was stopped. -/
structure Scan (α : Type) where
  looks : List Look
  result : Option α
deriving DecidableEq, Repr

instance : Monad Scan where
  pure a := ⟨[], some a⟩
  bind m f :=
    match m.result with
    | none => ⟨m.looks, none⟩
    | some a => ⟨m.looks ++ (f a).looks, (f a).result⟩

/-! ## Steps -/

def byteAt (s : String) (i : Nat) : Scan UInt8 :=
  ⟨[.byte i], s.toUTF8[i]?⟩

/-- A cut of the bytes alone, which need not be between two characters. -/
def cutBytes (s : String) (i : Nat) : Scan Unit :=
  ⟨[.cut i], if i ≤ s.utf8ByteSize then some () else none⟩

/-- The text behind a cut. -/
def textFrom (s : String) (i : Nat) : Scan String :=
  ⟨[.cut i], if h : String.Pos.Raw.IsValid s ⟨i⟩ then some (s.sliceFrom (s.pos ⟨i⟩ h)).copy else none⟩

/-- The text in front of a cut. -/
def textTo (s : String) (i : Nat) : Scan String :=
  ⟨[.cut i], if h : String.Pos.Raw.IsValid s ⟨i⟩ then some (s.sliceTo (s.pos ⟨i⟩ h)).copy else none⟩

def sum (m n : Nat) : Scan Nat :=
  ⟨[.sum (m + n)], some (m + n)⟩

def difference (m n : Nat) : Scan Nat :=
  ⟨[], if n ≤ m then some (m - n) else none⟩

/-! ## Signs and digits -/

def isDigitByte (b : UInt8) : Bool :=
  '0'.toUInt8 ≤ b && b ≤ '9'.toUInt8

def isSignByte (b : UInt8) : Bool :=
  b = '+'.toUInt8 || b = '-'.toUInt8

/-- Whether there is a byte at an index, and it is of a kind. -/
def byteIs (s : String) (p : UInt8 → Bool) (i : Nat) : Scan Bool := do
  if i < s.utf8ByteSize then return p (← byteAt s i) else return false

/-- The index behind a sign, if there is one. -/
def behindSign (s : String) (i : Nat) : Scan Nat := do
  if ← byteIs s isSignByte i then sum i 1 else return i

/-- The index behind all digits that follow. -/
def behindDigits (s : String) (i : Nat) : Scan Nat := do
  if h : i < s.utf8ByteSize then
    if isDigitByte (← byteAt s i) then
      let _ ← sum i 1
      behindDigits s (i + 1)
    else return i
  else return i
termination_by s.utf8ByteSize - i

/-- A cut inside a character stops a scan. -/
example : (textFrom "é" 1).result = none := by decide

end StoreGateway.Text
