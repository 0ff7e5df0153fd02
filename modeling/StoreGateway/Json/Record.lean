import StoreGateway.Json.Document

/-!
# Reading records

A record with named fields is written as an object, or as an array of its fields in order. Fields
that the record does not have are skipped whatever they hold, a field that is written twice is
refused, and a field left out takes its default if it has one.

* `Record.fields`: what stands in each field of a record;
* `required`, `withDefault`, `optional`: the value of one field;
* `text`, `natural`, `integer`, `list`, `choice`: readers for what fields hold.
-/

namespace StoreGateway.Json

namespace Record

/-- The documents written for one name. -/
def written (members : List (String × Document)) (name : String) : List Document :=
  (members.filter fun m => m.1 = name).map (·.2)

/-- What stands in each of the named fields; nothing for a field that is left out. -/
def fields (names : List String) : Document → Option (List (Option Document))
  | .obj members => names.mapM fun name =>
    match written members name with
    | [] => some none
    | [d] => some (some d)
    | _ => none
  | .arr elements =>
    if elements.length ≤ names.length then
      some (elements.map some ++ List.replicate (names.length - elements.length) none)
    else none
  | _ => none

end Record

variable {α : Type}

/-- A field that has to be there. -/
def required (read : Document → Option α) : Option Document → Option α
  | some d => read d
  | none => none

/-- A field with a default for when it is left out. -/
def withDefault (read : Document → Option α) (default : α) : Option Document → Option α
  | some d => read d
  | none => some default

/-- A field that may be left out or null. -/
def optional (read : Document → Option α) : Option Document → Option (Option α)
  | some .null | none => some none
  | some d => (read d).map some

def text : Document → Option String
  | .str s => some s
  | _ => none

/-- An unsigned integer. -/
def natural : Document → Option Nat
  | .int i _ => if 0 ≤ i then some i.toNat else none
  | _ => none

/-- A signed integer of sixty-four bits. -/
def integer : Document → Option Int
  | .int i _ => if i < Int.pow 2 63 then some i else none
  | _ => none

def list (read : Document → Option α) : Document → Option (List α)
  | .arr ds => ds.mapM read
  | _ => none

/-- One of several named alternatives: its name, or an object that gives it no content. -/
def choice (named : String → Option α) : Document → Option α
  | .str s => named s
  | .obj [(s, .null)] => named s
  | _ => none

end StoreGateway.Json
