import StoreGateway.Json.Document
import StoreGateway.Text.Blank
import StoreGateway.Text.Split

/-!
# Streams of records

Records are written one to a line and read from the lines that are not blank.

* `writeRecords`: the text of a stream;
* `readRecords`: the records of a text, or the first line that is none.
-/

namespace StoreGateway.Command

/-- One record on a line of its own. -/
def recordLine (v : Json) : List Char :=
  v.chars ++ ['\n']

def writeRecords (vs : List Json) : List Char :=
  vs.flatMap recordLine

/-- The records of numbered lines, or the number of the first line that is not a record. -/
def readNumbered : List (List Char × Nat) → Except Nat (List Json)
  | [] => .ok []
  | (line, n) :: rest =>
    match Json.read line with
    | some v => (readNumbered rest).map (v :: ·)
    | none => .error n

/-- The records of a text. Blank lines are skipped but counted; lines are counted from one. -/
def readRecords (cs : List Char) : Except Nat (List Json) :=
  readNumbered (((Text.lines cs).zipIdx 1).filter fun l => !Text.blank l.1)

end StoreGateway.Command
