import StoreGateway.Json.Printer
import StoreGateway.Number.Scaled

/-!
# JSON documents

A document is what a text says before any meaning is given to it: repeated names are kept, and a
place that is well written but denotes no value is only marked, since a reader may skip it. Such
places are numbers out of range, strings with half of a surrogate pair, and arrays and objects nested
too deep.

Numbers that are no integers are read as doubles. How is left open at first, so that a text can also
be read with every number as the nearest double.

* `Document`: the documents;
* `Document.readWith`, `Document.read`: the document of a text;
* `Document.value?`: the value of a document, where the last of repeated names counts;
* `Json.document`: the document of a value;
* `Json.readWith`, `Json.read`: the value of a text.
-/

namespace StoreGateway.Json

open StoreGateway.Text StoreGateway.Number

inductive Document where
  | unreadable
  | null
  | bool (b : Bool)
  | int (i : Int) (fits : FitsInteger i)
  | float (x : Finite)
  | str (s : String)
  | arr (elements : List Document)
  | obj (members : List (String × Document))
deriving Repr

namespace Document

instance : Inhabited Document := ⟨null⟩

/-- How deep arrays and objects may be nested. -/
def depthLimit : Nat := 127

/-! ## Reading -/

/-- The place of a value in the arrays and objects that are still open, the innermost first. -/
inductive Context where
  | top
  | element (before : List Document) (outer : Context)
  | member (before : List (Option String × Document)) (key : Option String) (outer : Context)

def Context.depth : Context → Nat
  | .top => 0
  | .element _ outer => outer.depth + 1
  | .member _ _ outer => outer.depth + 1

/-- What has been read and what has to come next. -/
inductive State where
  | value (place : Context)
  | firstElement (outer : Context)
  | afterElement (before : List Document) (outer : Context)
  | firstKey (outer : Context)
  | nextKey (before : List (Option String × Document)) (outer : Context)
  | colon (before : List (Option String × Document)) (key : Option String) (outer : Context)
  | afterMember (before : List (Option String × Document)) (outer : Context)
  | done (d : Document)

/-- Puts a whole document at its place. -/
def complete (d : Document) : Context → State
  | .top => .done d
  | .element before outer => .afterElement (d :: before) outer
  | .member before key outer => .afterMember ((key, d) :: before) outer

/-- Closes an array or object at its place. -/
def close (d : Document) (outer : Context) : State :=
  complete (if outer.depth < depthLimit then d else unreadable) outer

/-- An object from its members, the newest first. -/
def ofMembers (before : List (Option String × Document)) : Document :=
  match before.reverse.mapM fun m => m.1.map fun k => (k, m.2) with
  | some ms => obj ms
  | none => unreadable

section

variable (double : Spelling → Binary64)

/-- A number without point and exponent is an integer if it fits; minus zero is a double. -/
def ofNumber (s : Spelling) : Document :=
  let i := s.sign.apply (value s.whole)
  if h : s.isInteger ∧ FitsInteger i ∧ ¬(s.sign = .minus ∧ i = 0) then int i h.2.1
  else match double s with
    | .finite x => float x
    | _ => unreadable

/-- A token where a value has to begin. -/
def begin (place : Context) : Token → Option State
  | .null => some (complete null place)
  | .bool b => some (complete (bool b) place)
  | .number s => some (complete (ofNumber double s) place)
  | .string s => some (complete (str s) place)
  | .unpaired => some (complete unreadable place)
  | .openArray => some (.firstElement place)
  | .openObject => some (.firstKey place)
  | _ => none

def step : State → Token → Option State
  | .value place, t => begin double place t
  | .firstElement outer, .closeArray => some (close (arr []) outer)
  | .firstElement outer, t => begin double (.element [] outer) t
  | .afterElement before outer, .comma => some (.value (.element before outer))
  | .afterElement before outer, .closeArray => some (close (arr before.reverse) outer)
  | .firstKey outer, .closeObject => some (close (ofMembers []) outer)
  | .firstKey outer, .string k => some (.colon [] (some k) outer)
  | .firstKey outer, .unpaired => some (.colon [] none outer)
  | .nextKey before outer, .string k => some (.colon before (some k) outer)
  | .nextKey before outer, .unpaired => some (.colon before none outer)
  | .colon before key outer, .colon => some (.value (.member before key outer))
  | .afterMember before outer, .comma => some (.nextKey before outer)
  | .afterMember before outer, .closeObject => some (close (ofMembers before) outer)
  | _, _ => none

/-- The document of a sequence of tokens. -/
def ofTokens? (ts : List Token) : Option Document :=
  match ts.foldlM (step double) (.value .top) with
  | some (.done d) => some d
  | _ => none

/-- The document of a text, with doubles read in a given way. -/
def readWith (cs : List Char) : Option Document :=
  (Token.scan cs).bind (ofTokens? double)

end

/-- The document of a text. -/
def read (cs : List Char) : Option Document :=
  readWith Spelling.scaled cs

/-! ## Meaning -/

mutual

/-- The value of a document, if every place in it denotes one. -/
def value? : Document → Option Json
  | unreadable => none
  | null => some .null
  | bool b => some (.bool b)
  | int i h => some (.int i h)
  | float x => some (.float x)
  | str s => some (.str s)
  | arr ds => (values? ds).map .arr
  | obj ms => (memberValues? ms).map fun fs => .obj (Fields.ofList fs)

def values? : List Document → Option (List Json)
  | [] => some []
  | d :: ds => match d.value?, values? ds with
    | some v, some vs => some (v :: vs)
    | _, _ => none

def memberValues? : List (String × Document) → Option (List (String × Json))
  | [] => some []
  | (k, d) :: ms => match d.value?, memberValues? ms with
    | some v, some vs => some ((k, v) :: vs)
    | _, _ => none

end

end Document

mutual

/-- The document that says exactly this value. -/
def document : Json → Document
  | null => .null
  | bool b => .bool b
  | int i h => .int i h
  | float x => .float x
  | str s => .str s
  | arr vs => .arr (documents vs)
  | obj ms => .obj (memberDocuments ms)

def documents : List Json → List Document
  | [] => []
  | v :: vs => v.document :: documents vs

def memberDocuments : List (String × Json) → List (String × Document)
  | [] => []
  | (k, v) :: ms => (k, v.document) :: memberDocuments ms

end

/-- The value of a text, with doubles read in a given way. -/
def readWith (double : Spelling → Binary64) (cs : List Char) : Option Json :=
  (Document.readWith double cs).bind Document.value?

/-- The value of a text. -/
def read (cs : List Char) : Option Json :=
  readWith Spelling.scaled cs

/-- The value of bytes that are the encoding of a text. -/
def readBytes (bytes : ByteArray) : Option Json :=
  (String.fromUTF8? bytes).bind fun s => read s.toList

end StoreGateway.Json
