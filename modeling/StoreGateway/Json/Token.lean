import StoreGateway.Json.Basic
import StoreGateway.Number.Shortest

/-!
# JSON tokens

A JSON text is a sequence of tokens with white space between them. The text is read one character
at a time by an automaton, and a token knows its own text.

* `Token`, `Token.text`: the tokens and how each is written;
* `Token.step`: what one character does to the state of the automaton;
* `Token.scan`: all tokens of a text.
-/

namespace StoreGateway.Json

open StoreGateway.Text StoreGateway.Number

/-- One token. A string whose escapes hold half of a surrogate pair denotes no text. -/
inductive Token where
  | openArray
  | closeArray
  | openObject
  | closeObject
  | comma
  | colon
  | null
  | bool (b : Bool)
  | number (s : Spelling)
  | string (s : String)
  | unpaired
deriving DecidableEq, Repr

/-- Exponents from -5 to 15 are written positionally, and a double always shows that it is one. -/
def layout : Layout := ⟨-5, 15⟩

/-- A finite double, with the fewest digits that read back. -/
def floatSpelling (x : Finite) : Spelling :=
  layout.shortest x

def intSpelling (i : Int) : Spelling :=
  ⟨if i < 0 then .minus else .absent, digits i.natAbs, none, none⟩

/-! ## Writing -/

/-- The four hexadecimal digits of a control character. -/
def controlDigits (c : Char) : List Char :=
  ['0', '0', if c.toNat < 16 then '0' else '1', Nat.digitChar (c.toNat % 16)]

/-- A character inside quotation marks. -/
def escapeChar (c : Char) : List Char :=
  match c with
  | '"' => ['\\', '"']
  | '\\' => ['\\', '\\']
  | '\x08' => ['\\', 'b']
  | '\t' => ['\\', 't']
  | '\n' => ['\\', 'n']
  | '\x0c' => ['\\', 'f']
  | '\r' => ['\\', 'r']
  | c => if c.toNat < 0x20 then '\\' :: 'u' :: controlDigits c else [c]

def quoted (s : List Char) : List Char :=
  '"' :: s.flatMap escapeChar ++ ['"']

namespace Token

def text : Token → List Char
  | openArray => ['[']
  | closeArray => [']']
  | openObject => ['{']
  | closeObject => ['}']
  | comma => [',']
  | colon => [':']
  | null => ['n', 'u', 'l', 'l']
  | bool true => ['t', 'r', 'u', 'e']
  | bool false => ['f', 'a', 'l', 's', 'e']
  | number s => s.text
  | string s => quoted s.toList
  | unpaired => ['"', '\\', 'u', 'd', '8', '0', '0', '"']

/-! ## Reading -/

/-- The characters allowed between tokens. -/
def isSpace (c : Char) : Bool :=
  c = ' ' || c = '\t' || c = '\n' || c = '\r'

/-- The token of a single character. -/
def punctuation? : Char → Option Token
  | '[' => some openArray
  | ']' => some closeArray
  | '{' => some openObject
  | '}' => some closeObject
  | ',' => some comma
  | ':' => some colon
  | _ => none

/-- The spellings of JSON: no plus sign, no needless zero in front, digits around a point. -/
def strict (s : Spelling) : Bool :=
  s.sign != .plus && s.whole != [] && (s.whole.length = 1 || s.whole.head? != some '0') &&
    s.fraction != some []

/-- The token of a run of other characters. -/
def ofWord? (w : List Char) : Option Token :=
  if w = null.text then some null
  else if w = (bool true).text then some (bool true)
  else if w = (bool false).text then some (bool false)
  else match Spelling.scan w with
    | some (s, []) => if strict s then some (number s) else none
    | _ => none

/-- A part of a string: a character as it stands, or a unit of sixteen bits written in digits. -/
inductive Piece where
  | char (c : Char)
  | unit (n : Nat)
deriving DecidableEq, Repr

def isHigh (n : Nat) : Bool :=
  0xD800 ≤ n && n < 0xDC00

def isLow (n : Nat) : Bool :=
  0xDC00 ≤ n && n < 0xE000

/-- The character of a surrogate pair. -/
def pairChar (high low : Nat) : Char :=
  Char.ofNat (0x10000 + (high - 0xD800) * 0x400 + (low - 0xDC00))

/-- The text of the parts, unless a surrogate stands alone among them. -/
def join? : List Piece → Option (List Char)
  | [] => some []
  | .char c :: ps => (join? ps).map (c :: ·)
  | .unit h :: .unit l :: ps =>
    if isHigh h && isLow l then (join? ps).map (pairChar h l :: ·)
    else if isHigh h || isLow h then none
    else (join? (.unit l :: ps)).map (Char.ofNat h :: ·)
  | .unit h :: ps =>
    if isHigh h || isLow h then none else (join? ps).map (Char.ofNat h :: ·)

/-- The token of the parts of a string, the newest first. -/
def ofPieces (seen : List Piece) : Token :=
  match join? seen.reverse with
  | some cs => string (String.ofList cs)
  | none => unpaired

/-- The character that a one-letter escape stands for. -/
def escaped? : Char → Option Char
  | '"' => some '"'
  | '\\' => some '\\'
  | '/' => some '/'
  | 'b' => some '\x08'
  | 'f' => some '\x0c'
  | 'n' => some '\n'
  | 'r' => some '\r'
  | 't' => some '\t'
  | _ => none

def hexValue? (c : Char) : Option Nat :=
  if c.isDigit then some (c.toNat - 48)
  else if 'a' ≤ c && c ≤ 'f' then some (c.toNat - 87)
  else if 'A' ≤ c && c ≤ 'F' then some (c.toNat - 55)
  else none

/-- Where the automaton stands. What was seen of a token is kept with the newest part first. -/
inductive Mode where
  | between
  | word (seen : List Char)
  | string (seen : List Piece)
  | escape (seen : List Piece)
  | hex (seen : List Piece) (count value : Nat)
deriving DecidableEq, Repr

/-- The tokens read, the newest first, and where the automaton stands. -/
structure Scan where
  tokens : List Token
  mode : Mode
deriving DecidableEq, Repr

/-- A character that begins a token or stands between tokens. -/
def start (tokens : List Token) (c : Char) : Scan :=
  if isSpace c then ⟨tokens, .between⟩
  else if c = '"' then ⟨tokens, .string []⟩
  else match punctuation? c with
    | some t => ⟨t :: tokens, .between⟩
    | none => ⟨tokens, .word [c]⟩

def endsWord (c : Char) : Bool :=
  isSpace c || c = '"' || (punctuation? c).isSome

/-- What one character does; no state when no text goes on like this. -/
def step (s : Scan) (c : Char) : Option Scan :=
  match s.mode with
  | .between => some (start s.tokens c)
  | .word seen =>
    if endsWord c then (ofWord? seen.reverse).map fun t => start (t :: s.tokens) c
    else some ⟨s.tokens, .word (c :: seen)⟩
  | .string seen =>
    if c = '"' then some ⟨ofPieces seen :: s.tokens, .between⟩
    else if c = '\\' then some ⟨s.tokens, .escape seen⟩
    else if c.toNat < 0x20 then none
    else some ⟨s.tokens, .string (.char c :: seen)⟩
  | .escape seen =>
    if c = 'u' then some ⟨s.tokens, .hex seen 0 0⟩
    else (escaped? c).map fun d => ⟨s.tokens, .string (.char d :: seen)⟩
  | .hex seen count value =>
    (hexValue? c).map fun d =>
      if count = 3 then ⟨s.tokens, .string (.unit (16 * value + d) :: seen)⟩
      else ⟨s.tokens, .hex seen (count + 1) (16 * value + d)⟩

/-- The tokens at the end of a text, in order. -/
def finish (s : Scan) : Option (List Token) :=
  match s.mode with
  | .between => some s.tokens.reverse
  | .word seen => (ofWord? seen.reverse).map fun t => (t :: s.tokens).reverse
  | _ => none

/-- All tokens of a text. -/
def scan (cs : List Char) : Option (List Token) :=
  (cs.foldlM step ⟨[], .between⟩).bind finish

end Token

end StoreGateway.Json
