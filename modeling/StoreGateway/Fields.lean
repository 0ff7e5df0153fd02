/-!
# Named fields in order

A field list holds values under names that strictly ascend by code point, so two field lists with
the same look-ups are equal.

* `Fields α`: the list of named values;
* `Fields.get?`, `Fields.insert`, `Fields.erase`: look up, set and remove one name;
* `Fields.ofList`: from named values in any order, where the last value of a name counts;
* `Fields.Ascending`: the names strictly ascend.
-/

namespace StoreGateway

abbrev Fields (α : Type) := List (String × α)

namespace Fields

variable {α β : Type}

def names (fs : Fields α) : List String :=
  fs.map (·.1)

/-- The names strictly ascend by code point. -/
def Ascending (fs : Fields α) : Prop :=
  fs.Pairwise fun a b => a.1 < b.1

instance (fs : Fields α) : Decidable fs.Ascending :=
  inferInstanceAs (Decidable (List.Pairwise _ _))

def get? : Fields α → String → Option α
  | [], _ => none
  | (k, v) :: fs, name => if k = name then some v else get? fs name

def contains (fs : Fields α) (name : String) : Bool :=
  (fs.get? name).isSome

/-- Sets the value of a name, at its place in the order. -/
def insert : Fields α → String → α → Fields α
  | [], name, v => [(name, v)]
  | (k, w) :: fs, name, v =>
    if name = k then (name, v) :: fs
    else if name < k then (name, v) :: (k, w) :: fs
    else (k, w) :: insert fs name v

def erase (fs : Fields α) (name : String) : Fields α :=
  fs.filter fun f => f.1 ≠ name

/-- Named values in order, where the last value of a name counts. -/
def ofList (named : List (String × α)) : Fields α :=
  named.foldl (fun fs f => fs.insert f.1 f.2) []

/-- The same names with other values. -/
def mapValues (f : α → β) (fs : Fields α) : Fields β :=
  fs.map fun p => (p.1, f p.2)

@[simp]
theorem get?_nil (name : String) : get? ([] : Fields α) name = none := rfl

theorem get?_insert (fs : Fields α) (name other : String) (v : α) :
    (fs.insert name v).get? other = if name = other then some v else fs.get? other := by
  induction fs with
  | nil => simp [insert, get?]
  | cons f fs ih => grind [insert, get?]

theorem get?_erase (fs : Fields α) (name other : String) :
    (fs.erase name).get? other = if name = other then none else fs.get? other := by
  induction fs with
  | nil => simp [erase, get?]
  | cons f fs ih => grind [erase, get?]

@[simp]
theorem contains_insert (fs : Fields α) (name other : String) (v : α) :
    (fs.insert name v).contains other = (decide (name = other) || fs.contains other) := by
  unfold contains
  rw [get?_insert]
  by_cases h : name = other <;> simp [h]

@[simp]
theorem contains_erase (fs : Fields α) (name other : String) :
    (fs.erase name).contains other = (!decide (name = other) && fs.contains other) := by
  unfold contains
  rw [get?_erase]
  by_cases h : name = other <;> simp [h]

theorem insert_ne_nil (fs : Fields α) (name : String) (v : α) : fs.insert name v ≠ [] := by
  cases fs with
  | nil => exact List.cons_ne_nil _ _
  | cons f fs =>
    unfold insert
    split
    · exact List.cons_ne_nil _ _
    · split <;> exact List.cons_ne_nil _ _

theorem mem_names_insert {fs : Fields α} {name n : String} {v : α} :
    n ∈ (fs.insert name v).names ↔ n = name ∨ n ∈ fs.names := by
  induction fs with
  | nil => simp [insert, names]
  | cons f fs ih => grind [insert, names]

end Fields

end StoreGateway
