import StoreGateway.Proofs.Argv

/-!
# What the words of a call tell

However an argument list was made, its words read back as that list, and other words do not. So
what is asked of a list can be asked of its words: no value passes for a flag, even if it has the
text of one.

* `Part`, `build`, `leavesOf`: how a list is made, and the arguments that are put in it, in order;
* `ofArgv?_eq_some_iff`: words are read as a list exactly if they are its words;
* `switchesIn`, `valuesIn`: the switches that stand in words, and the values of an option;
* `words_tell_arguments`: all of this for every list that can be made.
-/

namespace StoreGateway.Command.Arguments

/-- A step in the making of an argument list. -/
inductive Part where
  | switch (s : Switch)
  | opt (o : Opt) (value : String)
  /-- A list is made for itself and then appended. -/
  | extend (parts : List Part)

mutual

/-- Takes one step. -/
def Part.addTo (as : Arguments) : Part → Arguments
  | .switch s => as.addSwitch s
  | .opt o value => as.addOpt o value
  | .extend parts => as.extend (build [] parts)

/-- Takes one step after the other, from what is there already. -/
def build (as : Arguments) : List Part → Arguments
  | [] => as
  | p :: ps => build (p.addTo as) ps

end

mutual

/-- The arguments that a step puts in a list. -/
def Part.leaves : Part → List Argument
  | .switch s => [.switch s]
  | .opt o value => [.opt o value]
  | .extend parts => leavesOf parts

/-- The arguments that are put in a list, in order. -/
def leavesOf : List Part → List Argument
  | [] => []
  | p :: ps => p.leaves ++ leavesOf ps

end

mutual

theorem Part.addTo_eq (as : Arguments) : (p : Part) → p.addTo as = as ++ p.leaves
  | .switch _ => rfl
  | .opt _ _ => rfl
  | .extend parts => congrArg (as ++ ·) (build_eq [] parts)

theorem build_eq (as : Arguments) : (parts : List Part) → build as parts = as ++ leavesOf parts
  | [] => (List.append_nil as).symm
  | p :: ps => by
    rw [build, Part.addTo_eq as p, build_eq _ ps, leavesOf, List.append_assoc]

end

/-! ## Reading -/

theorem argv_append (as bs : Arguments) : argv (as ++ bs) = argv as ++ argv bs :=
  List.flatMap_append

/-- What is read from words has these words. -/
theorem argv_of_ofArgv? {ws : List String} {as : Arguments} (h : ofArgv? ws = some as) :
    argv as = ws := by
  fun_induction ofArgv? ws generalizing as with
  | case1 =>
    cases h
    rfl
  | case2 w ws s hs ih =>
    obtain ⟨bs, hbs, rfl⟩ := Option.map_eq_some_iff.1 h
    have hflag : s.flag = w := by simpa using List.find?_some hs
    rw [argv_cons, ih hbs, ← hflag]
    rfl
  | case3 w hs o value rest ho ih =>
    obtain ⟨bs, hbs, rfl⟩ := Option.map_eq_some_iff.1 h
    have hflag : o.flag = w := by simpa using List.find?_some ho
    rw [argv_cons, ih hbs, ← hflag]
    rfl
  | case4 => cases h

/-- **Words are read as a list exactly if they are its words.** -/
theorem ofArgv?_eq_some_iff {ws : List String} {as : Arguments} :
    ofArgv? ws = some as ↔ argv as = ws := by
  constructor
  · exact argv_of_ofArgv?
  · rintro rfl
    exact ofArgv?_argv as

/-! ## Switches and values -/

/-- The switches that are read from words, in order. -/
def switchesIn (ws : List String) : List Switch :=
  ((ofArgv? ws).getD []).filterMap fun
    | .switch s => some s
    | .opt _ _ => none

/-- The values of an option that are read from words, in order. -/
def valuesIn (o : Opt) (ws : List String) : List String :=
  ((ofArgv? ws).getD []).filterMap fun
    | .opt p value => if p = o then some value else none
    | .switch _ => none

theorem containsSwitch_iff {as : Arguments} {s : Switch} :
    as.containsSwitch s = true ↔ s ∈ switchesIn as.argv := by
  unfold containsSwitch switchesIn
  rw [ofArgv?_argv, Option.getD_some, List.contains_iff_mem, List.mem_filterMap]
  constructor
  · intro hmem
    exact ⟨_, hmem, rfl⟩
  · rintro ⟨a, hmem, ha⟩
    cases a with
    | switch t =>
      cases ha
      exact hmem
    | opt _ _ => cases ha

theorem valueOf?_eq_head? (as : Arguments) (o : Opt) :
    as.valueOf? o = (valuesIn o as.argv).head? := by
  unfold valueOf? valuesIn
  rw [ofArgv?_argv, Option.getD_some]
  exact List.head?_filterMap.symm

/--
**Words tell the arguments.** A list that was made in any way, with any values in it, holds what was
put in it, in order. Reading its words gives back that list, and words that are read as a list are
its words and no others. The words of a list with another appended are those of the one and then
those of the other. A list has the switches that are read from its words, and the value of an option
is the first one read.
-/
theorem words_tell_arguments (parts : List Part) :
    let as := build [] parts
    as = leavesOf parts ∧
    ofArgv? as.argv = some as ∧
    (∀ ws bs, ofArgv? ws = some bs ↔ argv bs = ws) ∧
    (∀ more, (as.extend (build [] more)).argv = as.argv ++ (build [] more).argv) ∧
    (∀ s, as.containsSwitch s = true ↔ s ∈ switchesIn as.argv) ∧
    ∀ o, as.valueOf? o = (valuesIn o as.argv).head? :=
  ⟨build_eq [] parts, ofArgv?_argv _, fun _ _ => ofArgv?_eq_some_iff, fun _ => argv_append _ _,
    fun _ => containsSwitch_iff, valueOf?_eq_head? _⟩

-- Values that are flags, one of them the beginning of another, and an empty value.
example :
    let as := build [] [.opt .table "-json", .extend [.opt .int "-int-filter", .switch .time],
      .opt .timeCol ""]
    as.argv = ["-table", "-json", "-int", "-int-filter", "-time", "-time-col", ""] ∧
      switchesIn as.argv = [.time] ∧ valuesIn .intFilter as.argv = [] := by
  decide +kernel

end StoreGateway.Command.Arguments
