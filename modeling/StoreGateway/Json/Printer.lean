import StoreGateway.Json.Token

/-!
# JSON text

A value is written as its tokens, either without any space or with one member on each line.

* `Json.tokens`: the tokens of a value;
* `Json.compact`: the text without spaces;
* `Json.pretty`: the text with line breaks and two spaces for each level.
-/

namespace StoreGateway.Json

mutual

def tokens : Json → List Token
  | null => [.null]
  | bool b => [.bool b]
  | int i _ => [.number (intSpelling i)]
  | float x => [.number (floatSpelling x)]
  | str s => [.string s]
  | arr vs => .openArray :: elementTokens vs ++ [.closeArray]
  | obj ms => .openObject :: memberTokens ms ++ [.closeObject]

/-- The tokens of elements with commas between them. -/
def elementTokens : List Json → List Token
  | [] => []
  | [v] => v.tokens
  | v :: vs => v.tokens ++ .comma :: elementTokens vs

/-- The tokens of members with commas between them. -/
def memberTokens : List (String × Json) → List Token
  | [] => []
  | [(k, v)] => .string k :: .colon :: v.tokens
  | (k, v) :: ms => .string k :: .colon :: v.tokens ++ .comma :: memberTokens ms

end

/-- The characters of the text without spaces. -/
def chars (v : Json) : List Char :=
  v.tokens.flatMap Token.text

def compact (v : Json) : String :=
  String.ofList v.chars

/-- A line break and the spaces of a level. -/
def lineBreak (level : Nat) : List Char :=
  '\n' :: List.replicate (2 * level) ' '

mutual

/-- The characters of the text with line breaks, inside `level` arrays and objects. -/
def prettyChars (level : Nat) : Json → List Char
  | arr (v :: vs) => '[' :: prettyElements (level + 1) (v :: vs) ++ lineBreak level ++ [']']
  | obj ((k, v) :: ms) =>
    '{' :: prettyMembers (level + 1) ((k, v) :: ms) ++ lineBreak level ++ ['}']
  | v => v.chars

def prettyElements (level : Nat) : List Json → List Char
  | [] => []
  | [v] => lineBreak level ++ prettyChars level v
  | v :: vs => lineBreak level ++ prettyChars level v ++ ',' :: prettyElements level vs

def prettyMembers (level : Nat) : List (String × Json) → List Char
  | [] => []
  | [(k, v)] => lineBreak level ++ quoted k.toList ++ ':' :: ' ' :: prettyChars level v
  | (k, v) :: ms =>
    lineBreak level ++ quoted k.toList ++ ':' :: ' ' :: prettyChars level v ++
      ',' :: prettyMembers level ms

end

def pretty (v : Json) : String :=
  String.ofList (prettyChars 0 v)

end StoreGateway.Json
