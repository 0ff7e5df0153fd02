import StoreGateway.Fields

/-!
# The order of fields

Setting and removing fields keeps the names in order, and a field list in order is no more than
its look-ups.

* `ascending_insert`, `ascending_erase`, `ascending_ofList`: the names stay in order;
* `nodup_names`: no name stands twice;
* `mem_names_ofList`, `mem_of_mem_ofList`: the names of named values, and what stands under them;
* `get?_ofList_append`: the last value of a name counts;
* `mem_of_get?`, `get?_eq_none_iff`: look-ups and what stands in the list;
* `get?_ofList`, `get?_ofList_of_mem`: look-ups when each name has only one value;
* `eq_of_get?`: equal look-ups make equal field lists;
* `ofList_eq_self`: a field list in order is the field list of itself.
-/

namespace StoreGateway.Fields

variable {α : Type}

theorem lt_of_mem_insert {fs : Fields α} {name : String} {v : α} {a : String}
    (h : ∀ f ∈ fs, a < f.1) (ha : a < name) : ∀ f ∈ fs.insert name v, a < f.1 := by
  intro f hf
  induction fs with
  | nil => simp_all [insert]
  | cons g fs ih => grind [insert]

theorem nodup_names {fs : Fields α} (h : fs.Ascending) : fs.names.Nodup :=
  List.pairwise_map.2 (h.imp fun hlt => String.ne_of_lt hlt)

theorem ascending_insert {fs : Fields α} (h : fs.Ascending) (name : String) (v : α) :
    (fs.insert name v).Ascending := by
  induction fs with
  | nil => simp [insert, Ascending]
  | cons f fs ih =>
    obtain ⟨hf, hfs⟩ := List.pairwise_cons.1 h
    unfold insert
    split
    · next hname => exact List.pairwise_cons.2 ⟨by simpa [hname] using hf, hfs⟩
    · split
      · next hlt =>
        refine List.pairwise_cons.2 ⟨fun g hg => ?_, h⟩
        rcases List.mem_cons.1 hg with rfl | hg
        · exact hlt
        · exact String.lt_trans hlt (hf g hg)
      · next hne hlt =>
        have hgt : f.1 < name := by
          rcases Std.lt_trichotomy f.1 name with h | h | h
          · exact h
          · exact absurd h.symm hne
          · exact absurd h hlt
        exact List.pairwise_cons.2 ⟨lt_of_mem_insert hf hgt, ih hfs⟩

theorem ascending_erase {fs : Fields α} (h : fs.Ascending) (name : String) :
    (fs.erase name).Ascending :=
  List.Pairwise.filter _ h

theorem ascending_foldl_insert {fs : Fields α} (h : fs.Ascending) (named : List (String × α)) :
    (named.foldl (fun fs f => fs.insert f.1 f.2) fs).Ascending := by
  induction named generalizing fs with
  | nil => exact h
  | cons f named ih => exact ih (ascending_insert h f.1 f.2)

theorem ascending_ofList (named : List (String × α)) : (ofList named).Ascending :=
  ascending_foldl_insert List.Pairwise.nil named

theorem mem_names_ofList {named : List (String × α)} {name : String} :
    name ∈ (ofList named).names ↔ name ∈ named.map (·.1) := by
  suffices h : ∀ fs : Fields α, name ∈ (named.foldl (fun fs f => fs.insert f.1 f.2) fs).names ↔
      name ∈ fs.names ∨ name ∈ named.map (·.1) by
    simpa [ofList, names] using h []
  induction named with
  | nil => simp
  | cons f named ih =>
    intro fs
    rw [List.foldl_cons, ih, mem_names_insert, List.map_cons, List.mem_cons]
    exact ⟨fun h => h.elim (fun h => h.elim (.inr ∘ .inl) .inl) (.inr ∘ .inr),
      fun h => h.elim (.inl ∘ .inr) fun h => h.elim (.inl ∘ .inl) .inr⟩

theorem mem_insert {fs : Fields α} {name : String} {v : α} {f : String × α}
    (h : f ∈ fs.insert name v) : f = (name, v) ∨ f ∈ fs := by
  induction fs with
  | nil => simpa [insert] using h
  | cons g fs ih => grind [insert]

/-- Nothing stands in a field list but what was put there. -/
theorem mem_of_mem_ofList {named : List (String × α)} {f : String × α} (h : f ∈ ofList named) :
    f ∈ named := by
  suffices hfold : ∀ fs : Fields α, f ∈ named.foldl (fun fs f => fs.insert f.1 f.2) fs →
      f ∈ fs ∨ f ∈ named from (hfold [] h).resolve_left List.not_mem_nil
  clear h
  induction named with
  | nil => exact fun _ h => .inl h
  | cons g named ih =>
    intro fs h
    rcases ih _ h with h | h
    · rcases mem_insert h with rfl | h
      · exact .inr List.mem_cons_self
      · exact .inl h
    · exact .inr (List.mem_cons_of_mem g h)

/-- The last value of a name counts. -/
theorem get?_ofList_append (named more : List (String × α)) (name : String) :
    (ofList (named ++ more)).get? name = ((ofList more).get? name).or ((ofList named).get? name) := by
  suffices h : ∀ fs : Fields α, (more.foldl (fun fs f => fs.insert f.1 f.2) fs).get? name =
      ((ofList more).get? name).or (fs.get? name) by
    simpa [ofList] using h (ofList named)
  induction more with
  | nil => simp [ofList]
  | cons f more ih =>
    intro fs
    have h := ih (fs.insert f.1 f.2)
    have h' := ih (insert [] f.1 f.2)
    simp only [ofList, List.foldl_cons] at h h' ⊢
    rw [h, h', get?_insert, get?_insert]
    by_cases hn : f.1 = name <;> simp [hn]

theorem mem_of_get? {fs : Fields α} {name : String} {v : α} (h : fs.get? name = some v) :
    (name, v) ∈ fs := by
  induction fs with
  | nil => cases h
  | cons f fs ih => grind [get?]

theorem get?_eq_none_iff {fs : Fields α} {name : String} : fs.get? name = none ↔ name ∉ fs.names := by
  induction fs with
  | nil => simp [names]
  | cons f fs ih => grind [get?, names]

theorem isSome_get?_iff {fs : Fields α} {name : String} :
    (fs.get? name).isSome = true ↔ name ∈ fs.names := by
  rw [Option.isSome_iff_ne_none, Ne, get?_eq_none_iff, Decidable.not_not]

/-- Look-ups in a list of named values that all have the value `value?` of their name. -/
theorem get?_ofList (value? : String → Option α) {named : List (String × α)}
    (h : ∀ f ∈ named, value? f.1 = some f.2) (name : String) :
    (ofList named).get? name = if name ∈ named.map (·.1) then value? name else none := by
  cases hget : (ofList named).get? name with
  | none =>
    rw [get?_eq_none_iff, mem_names_ofList] at hget
    rw [if_neg hget]
  | some v =>
    have hmem := mem_of_mem_ofList (mem_of_get? hget)
    rw [if_pos (List.mem_map.2 ⟨_, hmem, rfl⟩)]
    exact (h _ hmem).symm

/-- Where no name stands twice, look-ups give what stands in the list. -/
theorem get?_of_mem {fs : Fields α} (h : fs.names.Nodup) {f : String × α} (hf : f ∈ fs) :
    fs.get? f.1 = some f.2 := by
  induction fs with
  | nil => cases hf
  | cons g fs ih =>
    obtain ⟨hg, hfs⟩ := List.nodup_cons.1 h
    rcases List.mem_cons.1 hf with rfl | hf
    · exact if_pos rfl
    · have hne : g.1 ≠ f.1 := fun heq => hg (List.mem_map.2 ⟨f, hf, heq.symm⟩)
      exact (if_neg hne).trans (ih hfs hf)

/-- Named values that all have different names are all found. -/
theorem get?_ofList_of_mem {named : List (String × α)} (h : (named.map (·.1)).Nodup)
    {f : String × α} (hf : f ∈ named) : (ofList named).get? f.1 = some f.2 := by
  rw [get?_ofList (get? named) (fun g hg => get?_of_mem h hg),
    if_pos (List.mem_map.2 ⟨f, hf, rfl⟩), get?_of_mem h hf]

theorem get?_eq_none_of_lt {fs : Fields α} {name : String} (h : ∀ f ∈ fs, name < f.1) :
    fs.get? name = none := by
  induction fs with
  | nil => rfl
  | cons f fs ih =>
    have hf := h f (by simp)
    have hne : f.1 ≠ name := fun e => String.lt_irrefl name (e ▸ hf)
    simp [get?, hne, ih fun g hg => h g (by simp [hg])]

/-- A field list in order is determined by its look-ups. -/
theorem eq_of_get? {fs gs : Fields α} (hf : fs.Ascending) (hg : gs.Ascending)
    (h : ∀ name, fs.get? name = gs.get? name) : fs = gs := by
  induction fs generalizing gs with
  | nil =>
    cases gs with
    | nil => rfl
    | cons g gs => simpa [get?] using h g.1
  | cons f fs ih =>
    obtain ⟨hlt, hfs⟩ := List.pairwise_cons.1 hf
    cases gs with
    | nil => simpa [get?] using (h f.1).symm
    | cons g gs =>
      obtain ⟨hlt', hgs⟩ := List.pairwise_cons.1 hg
      have hname : f.1 = g.1 := by
        rcases Std.lt_trichotomy f.1 g.1 with hl | hl | hl
        · have hn : get? (g :: gs) f.1 = none := get?_eq_none_of_lt (by
            intro k hk
            rcases List.mem_cons.1 hk with rfl | hk
            · exact hl
            · exact String.lt_trans hl (hlt' k hk))
          rw [← h f.1] at hn
          simp [get?] at hn
        · exact hl
        · have hn : get? (f :: fs) g.1 = none := get?_eq_none_of_lt (by
            intro k hk
            rcases List.mem_cons.1 hk with rfl | hk
            · exact hl
            · exact String.lt_trans hl (hlt k hk))
          rw [h g.1] at hn
          simp [get?] at hn
      have hvalue : f.2 = g.2 := by simpa [get?, hname] using h f.1
      obtain ⟨n, v⟩ := f
      obtain ⟨m, w⟩ := g
      obtain rfl : n = m := hname
      obtain rfl : v = w := hvalue
      congr 1
      refine ih hfs hgs fun name => ?_
      by_cases hn : n = name
      · subst hn
        rw [get?_eq_none_of_lt hlt, get?_eq_none_of_lt hlt']
      · simpa [get?, hn] using h name

/-- A field list in order is the field list of itself. -/
theorem ofList_eq_self {fs : Fields α} (h : fs.Ascending) : ofList fs = fs := by
  refine eq_of_get? (ascending_ofList fs) h fun name => ?_
  induction fs with
  | nil => rfl
  | cons f fs ih =>
    obtain ⟨hlt, hfs⟩ := List.pairwise_cons.1 h
    have hsingle : (ofList [f]).get? name = if f.1 = name then some f.2 else none := rfl
    rw [← List.singleton_append, get?_ofList_append, ih hfs, hsingle, List.singleton_append]
    by_cases hname : f.1 = name
    · subst hname
      simp [get?, get?_eq_none_of_lt hlt]
    · simp [get?, hname]

end StoreGateway.Fields
