import StoreGateway.Fields
import StoreGateway.Number.Binary64

/-!
# JSON values

* `Json`: the values. Integers and doubles are told apart, so `5` and `5.0` are different values;
* `Json.kind`: the word for the kind of a value;
* `Json.Canonical`: the names of every object strictly ascend;
* `Json.depth`: how deep arrays and objects are nested.
-/

namespace StoreGateway

/-- The integers that are written without loss: those of sixty-four bits, with or without sign. -/
def FitsInteger (i : Int) : Prop :=
  -Int.pow 2 63 ≤ i ∧ i < Int.pow 2 64

instance (i : Int) : Decidable (FitsInteger i) :=
  inferInstanceAs (Decidable (_ ∧ _))

inductive Json where
  | null
  | bool (b : Bool)
  | int (i : Int) (fits : FitsInteger i)
  | float (x : Number.Finite)
  | str (s : String)
  | arr (elements : List Json)
  | obj (members : List (String × Json))
deriving Repr

namespace Json

instance : Inhabited Json := ⟨null⟩

/-- An integer when it can be written without loss, else the double nearest to it. -/
def ofInt (i : Int) : Json :=
  if h : FitsInteger i then int i h
  else match Number.Binary64.ofInt i with
    | .finite x => float x
    | _ => null

def ofNat (n : Nat) : Json :=
  ofInt n

/-- A double, or null when it is not finite. -/
def ofBinary64 : Number.Binary64 → Json
  | .finite x => float x
  | _ => null

def kind : Json → String
  | null => "null"
  | bool _ => "boolean"
  | int _ _ | float _ => "number"
  | str _ => "string"
  | arr _ => "array"
  | obj _ => "object"

mutual

/-- The names of every object in the value strictly ascend. -/
def Canonical : Json → Prop
  | arr vs => CanonicalElements vs
  | obj ms => Fields.Ascending ms ∧ CanonicalMembers ms
  | _ => True

def CanonicalElements : List Json → Prop
  | [] => True
  | v :: vs => v.Canonical ∧ CanonicalElements vs

def CanonicalMembers : List (String × Json) → Prop
  | [] => True
  | (_, v) :: ms => v.Canonical ∧ CanonicalMembers ms

end

mutual

/-- The greatest number of arrays and objects around one place in the value. -/
def depth : Json → Nat
  | arr vs => depthElements vs + 1
  | obj ms => depthMembers ms + 1
  | _ => 0

def depthElements : List Json → Nat
  | [] => 0
  | v :: vs => max v.depth (depthElements vs)

def depthMembers : List (String × Json) → Nat
  | [] => 0
  | (_, v) :: ms => max v.depth (depthMembers ms)

end

mutual

/-- Decides whether two values are equal. -/
def decEq : (a b : Json) → Decidable (a = b)
  | null, null => isTrue rfl
  | bool a, bool b => decidable_of_iff (a = b) (by simp)
  | int a _, int b _ => decidable_of_iff (a = b) (by simp)
  | float a, float b => decidable_of_iff (a = b) (by simp)
  | str a, str b => decidable_of_iff (a = b) (by simp)
  | arr a, arr b =>
    match decEqElements a b with
    | isTrue h => isTrue (h ▸ rfl)
    | isFalse h => isFalse fun e => h (arr.inj e)
  | obj a, obj b =>
    match decEqMembers a b with
    | isTrue h => isTrue (h ▸ rfl)
    | isFalse h => isFalse fun e => h (obj.inj e)
  | null, bool _ | null, int _ _ | null, float _ | null, str _ | null, arr _ | null, obj _
  | bool _, null | bool _, int _ _ | bool _, float _ | bool _, str _ | bool _, arr _ | bool _, obj _
  | int _ _, null | int _ _, bool _ | int _ _, float _ | int _ _, str _ | int _ _, arr _
  | int _ _, obj _ | float _, null | float _, bool _ | float _, int _ _ | float _, str _
  | float _, arr _ | float _, obj _ | str _, null | str _, bool _ | str _, int _ _ | str _, float _
  | str _, arr _ | str _, obj _ | arr _, null | arr _, bool _ | arr _, int _ _ | arr _, float _
  | arr _, str _ | arr _, obj _ | obj _, null | obj _, bool _ | obj _, int _ _ | obj _, float _
  | obj _, str _ | obj _, arr _ => isFalse (by simp)

def decEqElements : (a b : List Json) → Decidable (a = b)
  | [], [] => isTrue rfl
  | [], _ :: _ | _ :: _, [] => isFalse (by simp)
  | v :: vs, w :: ws =>
    match decEq v w, decEqElements vs ws with
    | isTrue h, isTrue hs => isTrue (h ▸ hs ▸ rfl)
    | isFalse h, _ => isFalse fun e => h (List.cons.inj e).1
    | _, isFalse hs => isFalse fun e => hs (List.cons.inj e).2

def decEqMembers : (a b : List (String × Json)) → Decidable (a = b)
  | [], [] => isTrue rfl
  | [], _ :: _ | _ :: _, [] => isFalse (by simp)
  | (k, v) :: vs, (l, w) :: ws =>
    match decEq v w, decEqMembers vs ws with
    | isTrue h, isTrue hs => decidable_of_iff (k = l) (by simp [h, hs])
    | isFalse h, _ => isFalse fun e => h (Prod.mk.inj (List.cons.inj e).1).2
    | _, isFalse hs => isFalse fun e => hs (List.cons.inj e).2

end

instance : DecidableEq Json := decEq

end Json

end StoreGateway
