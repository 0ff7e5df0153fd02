/-!
# Cutting a text at a separator

* `splitOn`: the pieces of a text between separators, one more than there are separators;
* `splitOnce`: the two sides of the first separator;
* `joinWith`: pieces put together again;
* `lines`: the lines of a text, where a final line break ends the last line.
-/

namespace StoreGateway.Text

/-- The pieces of a list between the separators. -/
def splitOn (sep : Char) : List Char → List (List Char)
  | [] => [[]]
  | c :: cs =>
    if c = sep then [] :: splitOn sep cs
    else match splitOn sep cs with
      | [] => [[c]]
      | p :: ps => (c :: p) :: ps

/-- What stands before and after the first separator. -/
def splitOnce (sep : Char) : List Char → Option (List Char × List Char)
  | [] => none
  | c :: cs =>
    if c = sep then some ([], cs)
    else (splitOnce sep cs).map fun p => (c :: p.1, p.2)

def joinWith (sep : Char) : List (List Char) → List Char
  | [] => []
  | [p] => p
  | p :: ps => p ++ sep :: joinWith sep ps

/-- Pieces of text with commas between them. -/
def commaJoin (pieces : List String) : String :=
  String.ofList (joinWith ',' (pieces.map String.toList))

/-- A line without the carriage return at its end. -/
def dropReturn (line : List Char) : List Char :=
  match line.getLast? with
  | some '\r' => line.dropLast
  | _ => line

/--
The lines of a text. A line ends at a line feed, of which a carriage return just before it is a
part; what follows the last line feed is a line only if it is not empty.
-/
def lines (cs : List Char) : List (List Char) :=
  let pieces := splitOn '\n' cs
  let ended := pieces.dropLast.map dropReturn
  match pieces.getLast? with
  | some [] | none => ended
  | some last => ended ++ [last]

end StoreGateway.Text
