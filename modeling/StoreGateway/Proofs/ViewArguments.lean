import Mathlib.Data.List.Nodup
import StoreGateway.Proofs.Aggregation
import StoreGateway.Proofs.Argv

/-!
# The arguments of a view

A view puts switches and options of its own around the fragment. The options of a fragment come in a
fixed order, and no view has a flag that stands in the fragment, so every flag stands once at most.

* `Spec.Unbucketed`: specs that have no arguments;
* `leading`, `trailing`: what a view puts around the fragment;
* `Arranged`: the flags of a view, each at its place;
* `Gateway.step_run_unbucketed`: without arguments the tool is not called;
* `Gateway.view_arguments_arranged`: when there are arguments, and which.
-/

namespace StoreGateway.Query

open StoreGateway.Command

/-- The time view is asked for without a bucket size. -/
def Spec.Unbucketed (s : Spec) : Prop :=
  s.view = .time ∧ ∀ o, s.opts = some o → o.timeBucket = none ∨ o.timeBucket = some ""

theorem bucket?_eq_some_iff {s : Spec} {b : String} :
    s.bucket? = some b ↔ s.opts.bind Options.timeBucket = some b ∧ b ≠ "" := by
  unfold Spec.bucket?
  cases s.opts.bind Options.timeBucket with
  | none => simp
  | some c =>
    by_cases hc : c = ""
    · simp [hc]
    · simp only [hc, ↓reduceIte, Option.some.injEq]
      constructor
      · rintro rfl
        exact ⟨rfl, hc⟩
      · exact fun h => h.1

theorem bucket?_eq_none_iff {s : Spec} :
    s.bucket? = none ↔ ∀ o, s.opts = some o → o.timeBucket = none ∨ o.timeBucket = some "" := by
  unfold Spec.bucket?
  cases s.opts with
  | none => simp
  | some o =>
    cases hb : o.timeBucket with
    | none => simp [hb]
    | some b => by_cases hempty : b = "" <;> simp [hb, hempty]

/-! ## What stands around the fragment -/

/-- What a view puts in front of the fragment. -/
def leading (s : Spec) : Arguments :=
  match s.view with
  | .table => [.switch .print, .switch .json]
  | .time => [.switch .print, .switch .json, .switch .time] ++
      s.bucket?.toList.map (.opt .timeBucket)
  | .hist => [.switch .print, .switch .json, .opt .op "hist"]
  | .samples => []

/-- What a view puts behind the fragment. -/
def trailing (table : String) (s : Spec) : Arguments :=
  match s.view with
  | .samples => [.switch .samples, .switch .json, .opt .table table]
  | .table | .time | .hist => [.opt .table table]

theorem viewArguments_of_unbucketed {s : Spec} (h : s.Unbucketed) (table : String) :
    viewArguments table s = .error (.missingQuerySpec "opts.time_bucket") := by
  obtain ⟨hview, hbucket⟩ := h
  unfold viewArguments
  rw [hview]
  dsimp only
  rw [bucket?_eq_none_iff.2 hbucket]

theorem viewArguments_of_not {s : Spec} (h : ¬s.Unbucketed) (table : String) :
    viewArguments table s = .ok (leading s ++ queryArguments s ++ trailing table s) := by
  unfold viewArguments leading trailing
  cases hview : s.view with
  | table => rfl
  | hist => rfl
  | samples => rfl
  | time =>
    cases hb : s.bucket? with
    | none => exact absurd ⟨hview, bucket?_eq_none_iff.1 hb⟩ h
    | some b => rfl

/-! ## Flags -/

/-- The flags of a fragment. -/
def fragmentFlags : List String :=
  fragmentOptions.map Opt.flag

theorem flags_fragment (s : Spec) : ((fragment s).map Argument.flag).Sublist fragmentFlags := by
  unfold fragment
  cases s.opts with
  | none => exact List.nil_sublist _
  | some o => exact flags_optionArguments _ o

theorem flag_mem_of_mem_fragment {s : Spec} {a : Argument} (h : a ∈ fragment s) :
    a.flag ∈ fragmentFlags :=
  (flags_fragment s).subset (List.mem_map_of_mem h)

theorem queryArguments_eq (s : Spec) :
    queryArguments s = (if s.opts = none then [] else [.switch .laq]) ++ fragment s := by
  unfold queryArguments fragment
  cases s.opts <;> rfl

theorem flags_queryArguments (s : Spec) :
    ((queryArguments s).map Argument.flag).Sublist (Switch.laq.flag :: fragmentFlags) := by
  rw [queryArguments_eq, List.map_append]
  have hlaq : ((if s.opts = none then [] else [Argument.switch .laq]).map Argument.flag).Sublist
      [Switch.laq.flag] := by
    split
    · exact List.nil_sublist _
    · exact List.Sublist.refl _
  exact hlaq.append (flags_fragment s)

/-- The flags that a view can have in front of the fragment and behind it, in order. -/
def frontFlags : View → List String
  | .table => ["-print", "-json"]
  | .time => ["-print", "-json", "-time", "-time-bucket"]
  | .hist => ["-print", "-json", "-op"]
  | .samples => []

def backFlags : View → List String
  | .samples => ["-samples", "-json", "-table"]
  | .table | .time | .hist => ["-table"]

theorem flags_leading (s : Spec) : ((leading s).map Argument.flag).Sublist (frontFlags s.view) := by
  unfold leading frontFlags
  cases s.view with
  | table => exact List.Sublist.refl _
  | hist => exact List.Sublist.refl _
  | samples => exact List.Sublist.refl _
  | time =>
    cases s.bucket? with
    | none => decide
    | some b => exact List.Sublist.refl _

theorem flags_trailing (table : String) (s : Spec) :
    (trailing table s).map Argument.flag = backFlags s.view := by
  unfold trailing backFlags
  cases s.view <;> rfl

theorem nodup_flags (view : View) :
    (frontFlags view ++ Switch.laq.flag :: fragmentFlags ++ backFlags view).Nodup := by
  cases view <;> decide

/-! ## All arguments -/

/-- The flags of a view, each at its place. -/
structure Arranged (table : String) (s : Spec) (as : Arguments) : Prop where
  /-- No flag stands twice. -/
  once : (as.map Argument.flag).Nodup
  /-- The words are read as these arguments, also if some value looks like a flag. -/
  words : Arguments.ofArgv? as.argv = some as
  table_last : ∃ front, as = front ++ [.opt .table table]
  json : as.count (.switch .json) = 1
  laq : .switch .laq ∈ as ↔ s.opts ≠ none
  /-- The fragment follows its switch, and its options stand nowhere else. -/
  fragment : s.opts ≠ none → ∃ front back, as = front ++ .switch .laq :: fragment s ++ back ∧
    ∀ a ∈ front ++ back, a.flag ∉ fragmentFlags
  print : .switch .print ∈ as ↔ s.view ≠ .samples
  time : .switch .time ∈ as ↔ s.view = .time
  bucket : ∀ b, .opt .timeBucket b ∈ as ↔
    s.view = .time ∧ s.opts.bind Options.timeBucket = some b
  op : ∀ value, .opt .op value ∈ as ↔ s.view = .hist ∧ value = "hist"
  samples : .switch .samples ∈ as ↔ s.view = .samples

section

variable (table : String) (s : Spec)

theorem flags_around :
    ((leading s ++ queryArguments s ++ trailing table s).map Argument.flag).Nodup := by
  rw [List.map_append, List.map_append, flags_trailing]
  exact (((flags_leading s).append (flags_queryArguments s)).append (List.Sublist.refl _)).nodup
    (nodup_flags s.view)

/-- What is not in the fragment is its switch or stands around it. -/
theorem mem_around_iff {a : Argument} (h : a.flag ∉ fragmentFlags) :
    a ∈ leading s ++ queryArguments s ++ trailing table s ↔
      a ∈ leading s ∨ (s.opts ≠ none ∧ a = .switch .laq) ∨ a ∈ trailing table s := by
  have hnot : a ∉ fragment s := fun ha => h (flag_mem_of_mem_fragment ha)
  rw [queryArguments_eq, List.mem_append, List.mem_append, List.mem_append, or_assoc]
  by_cases hopts : s.opts = none <;> simp [hopts, hnot]

theorem flag_around {a : Argument} (h : a ∈ leading s ++ trailing table s) :
    a.flag ∉ fragmentFlags := by
  have hdisjoint : ∀ f ∈ frontFlags s.view ++ backFlags s.view, f ∉ fragmentFlags := by
    cases s.view <;> decide
  refine hdisjoint _ ?_
  rcases List.mem_append.1 h with h | h
  · exact List.mem_append_left _ ((flags_leading s).subset (List.mem_map_of_mem h))
  · rw [← flags_trailing table s]
    exact List.mem_append_right _ (List.mem_map_of_mem h)

theorem opt_flag_not_mem {o : Opt} (h : o ∉ fragmentOptions) (value : String) :
    (Argument.opt o value).flag ∉ fragmentFlags := by
  show o.flag ∉ fragmentFlags
  revert h
  cases o <;> decide

theorem switch_flag_not_mem (sw : Switch) : (Argument.switch sw).flag ∉ fragmentFlags := by
  cases sw <;> decide

/-- The switches of a view. -/
theorem switch_mem_around_iff (sw : Switch) :
    .switch sw ∈ leading s ++ queryArguments s ++ trailing table s ↔ match sw with
      | .json => True
      | .laq => s.opts ≠ none
      | .print => s.view ≠ .samples
      | .time => s.view = .time
      | .samples => s.view = .samples
      | .info | .tables => False := by
  rw [mem_around_iff table s (switch_flag_not_mem sw)]
  unfold leading trailing
  cases sw <;> cases s.view <;> simp

theorem op_mem_around_iff (value : String) :
    .opt .op value ∈ leading s ++ queryArguments s ++ trailing table s ↔
      s.view = .hist ∧ value = "hist" := by
  rw [mem_around_iff table s (opt_flag_not_mem (by decide) value)]
  unfold leading trailing
  cases s.view <;> simp

theorem bucket_mem_around_iff (h : ¬s.Unbucketed) (b : String) :
    .opt .timeBucket b ∈ leading s ++ queryArguments s ++ trailing table s ↔
      s.view = .time ∧ s.opts.bind Options.timeBucket = some b := by
  have hbucket : s.view = .time → (s.bucket? = some b ↔ s.opts.bind Options.timeBucket = some b) := by
    intro hview
    rw [bucket?_eq_some_iff, and_iff_left_iff_imp]
    rintro hb rfl
    have hnone : s.bucket? = none := by
      unfold Spec.bucket?
      rw [hb]
      rfl
    exact h ⟨hview, bucket?_eq_none_iff.1 hnone⟩
  rw [mem_around_iff table s (opt_flag_not_mem (by decide) b)]
  unfold leading trailing
  cases hview : s.view with
  | time => simp [hbucket hview]
  | table => simp
  | hist => simp
  | samples => simp

end

theorem arranged_of_not {s : Spec} (h : ¬s.Unbucketed) (table : String) :
    Arranged table s (leading s ++ queryArguments s ++ trailing table s) where
  once := flags_around table s
  words := Arguments.ofArgv?_argv _
  table_last := by
    unfold trailing
    cases s.view with
    | samples => exact ⟨leading s ++ queryArguments s ++ [.switch .samples, .switch .json], by simp⟩
    | table | time | hist => exact ⟨_, rfl⟩
  json := List.count_eq_one_of_mem (List.Nodup.of_map _ (flags_around table s))
    ((switch_mem_around_iff table s .json).2 trivial)
  laq := switch_mem_around_iff table s .laq
  fragment := by
    intro hopts
    refine ⟨leading s, trailing table s, ?_, fun a ha => flag_around table s ha⟩
    rw [queryArguments_eq, if_neg hopts]
    rfl
  print := switch_mem_around_iff table s .print
  time := switch_mem_around_iff table s .time
  bucket := bucket_mem_around_iff table s h
  op := op_mem_around_iff table s
  samples := switch_mem_around_iff table s .samples

end StoreGateway.Query

namespace StoreGateway.Gateway

open Catalog Command Query

/-- A query without a bucket size for its time view is refused, and nothing else happens. -/
theorem step_run_unbucketed {s : Spec} (h : s.Unbucketed) (g : Gateway) (now : Nat)
    (caller : Ticket) (table : TableRef) (unweight : Bool) :
    g.step now (.request caller (.run table s unweight)) = (g, [.answer caller (.error
      (if table.name = "" then .missingTable else .missingQuerySpec "opts.time_bucket"))]) := by
  show g.request now caller (.run table s unweight) = _
  unfold request
  dsimp only
  by_cases hname : table.name = ""
  · rw [require_of_eq hname, if_pos hname]
    rfl
  · have hrefused := viewArguments_of_unbucketed h table.name
    rw [require_of_ne hname, if_neg hname]
    dsimp only [bind, Except.bind]
    rw [hrefused]

/--
**Every flag has its place.** A spec has no arguments exactly if it asks for the time view without a
bucket size, and then the tool is not called. All others have the flags of their view, each of them
once, with the fragment behind its switch and the table at the end. The fragment is the same in every
view.
-/
theorem view_arguments_arranged (table : String) (s : Spec) :
    (∀ e, viewArguments table s = .error e ↔
      s.Unbucketed ∧ e = .missingQuerySpec "opts.time_bucket") ∧
    (∀ as, viewArguments table s = .ok as → Arranged table s as) ∧
    (s.Unbucketed → ∀ (g : Gateway) now caller (named : TableRef) unweight,
      g.step now (.request caller (.run named s unweight)) = (g, [.answer caller (.error
        (if named.name = "" then .missingTable else .missingQuerySpec "opts.time_bucket"))])) ∧
    ∀ s' : Spec, s'.opts = s.opts → s'.info = s.info → fragment s' = fragment s := by
  refine ⟨fun e => ?_, fun as has => ?_, fun h => step_run_unbucketed h, fun s' hopts hinfo => ?_⟩
  · by_cases h : s.Unbucketed
    · rw [viewArguments_of_unbucketed h, Except.error.injEq]
      exact ⟨fun he => ⟨h, he.symm⟩, fun he => he.2.symm⟩
    · rw [viewArguments_of_not h]
      exact ⟨nofun, fun he => absurd he.1 h⟩
  · by_cases h : s.Unbucketed
    · rw [viewArguments_of_unbucketed h] at has
      cases has
    · rw [viewArguments_of_not h] at has
      cases has
      exact arranged_of_not h table
  · unfold fragment Spec.timeColumn
    rw [hopts, hinfo]

end StoreGateway.Gateway
