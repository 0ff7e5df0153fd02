import Mathlib.Logic.Function.Basic
import StoreGateway.Proofs.BoundedNumerals
import StoreGateway.Proofs.Trimming
import StoreGateway.Settings.Config

/-!
# Configuration from the environment

Each setting is read from a variable of its own, and only the paths of the tools have a second
source, the directory that they may all stand in. Three variables hold numbers, and these and the
output limit are all that can be wrong.

* `Environment.value?_eq_some_iff`, `Environment.value?_eq_none_iff`: when a variable says
  something;
* `Number`, `Readable`: a number from a variable, and variables that have one or are not set;
* `Config.Failing`, `Config.ofEnvironment_eq_error_iff`: the fault that is reported;
* `Config.Configured`, `Config.ofEnvironment_eq_ok_iff`: the settings, each from its own variable;
* `Config.Unchanged`, `Config.Configured.unchanged`: what a change to one variable leaves alone.
-/

namespace StoreGateway.Settings

open StoreGateway.Command StoreGateway.Text

/-! ## Variables -/

namespace Environment

variable {env env' : Environment} {name v : String}

theorem value?_eq_some_iff :
    env.value? name = some v ↔
      ∃ raw, env name = some raw ∧ blank raw.toList = false ∧ v = trimmed raw := by
  unfold value?
  rw [Option.bind_eq_some_iff]
  refine exists_congr fun raw => and_congr_right fun _ => ?_
  rw [Option.ite_none_left_eq_some, trimmed_eq_empty_iff, Bool.not_eq_true, Option.some.injEq]
  exact and_congr_right fun _ => eq_comm

/-- A variable that is blank counts as not set. -/
theorem value?_eq_none_iff :
    env.value? name = none ↔ ∀ raw, env name = some raw → blank raw.toList = true := by
  unfold value?
  rw [Option.bind_eq_none_iff]
  refine forall_congr' fun raw => forall_congr' fun _ => ?_
  rw [← trimmed_eq_empty_iff]
  split
  · next h => exact ⟨fun _ => h, fun _ => rfl⟩
  · next h => exact ⟨nofun, fun h' => absurd h' h⟩

theorem toList_ne_nil_of_value? (h : env.value? name = some v) : v.toList ≠ [] := by
  obtain ⟨raw, -, hfilled, rfl⟩ := value?_eq_some_iff.1 h
  unfold trimmed
  rw [String.toList_ofList, Ne, trim_eq_nil_iff, hfilled]
  exact Bool.false_ne_true

/-- What a variable says depends on no other. -/
theorem value?_congr (h : env' name = env name) : env'.value? name = env.value? name := by
  unfold value?
  rw [h]

end Environment

/-! ## Numbers -/

/-- Numbers are kept in sixty-four bits. -/
def numberLimit : Nat := Nat.pow 2 64

theorem numberLimit_pos : 0 < numberLimit := by decide

/-- A variable is not set, or an unsigned numeral. -/
def Readable (env : Environment) (name : String) : Prop :=
  ∀ raw, env.value? name = some raw → ∃ n, Unsigned numberLimit raw.toList n

/-- A number from a variable, or else the one that it has by default. -/
def Number (env : Environment) (name : String) (default n : Nat) : Prop :=
  match env.value? name with
  | none => n = default
  | some raw => Unsigned numberLimit raw.toList n

section
variable {env env' : Environment} {name : String} {default n : Nat}

theorem Number.readable (h : Number env name default n) : Readable env name := by
  intro raw hraw
  unfold Number at h
  rw [hraw] at h
  exact ⟨n, h⟩

/-- Variables that say the same give the same number. -/
theorem Number.unique {m : Nat} (h : Number env name default n) (h' : Number env' name default m)
    (hvalue : env'.value? name = env.value? name) : m = n := by
  unfold Number at h h'
  rw [hvalue] at h'
  cases hraw : env.value? name with
  | none =>
    rw [hraw] at h h'
    exact h'.trans h.symm
  | some raw =>
    rw [hraw] at h h'
    exact h'.unique h

theorem natural?_of_readable (h : Readable env name) :
    ∃ n?, Config.natural? env name = .ok n? ∧
      ∀ default, Number env name default (n?.getD default) := by
  unfold Config.natural? Number
  cases hraw : env.value? name with
  | none => exact ⟨none, rfl, fun _ => rfl⟩
  | some raw =>
    obtain ⟨n, hn⟩ := h raw hraw
    have hread : readBounded (Nat.pow 2 64) raw.toList = .ok n :=
      readBounded_eq_ok_of_unsigned numberLimit_pos (Environment.toList_ne_nil_of_value? hraw) hn
    refine ⟨some n, ?_, fun _ => hn⟩
    dsimp only
    rw [hread]

theorem natural?_of_unreadable {raw : String} (hraw : env.value? name = some raw)
    (hbad : ∀ n, ¬Unsigned numberLimit raw.toList n) :
    Config.natural? env name = .error (.notNatural name raw (cause numberLimit raw.toList)) := by
  have hread : readBounded (Nat.pow 2 64) raw.toList = .error (cause numberLimit raw.toList) :=
    readBounded_eq_error_of_not_unsigned numberLimit_pos (Environment.toList_ne_nil_of_value? hraw)
      hbad
  unfold Config.natural?
  rw [hraw]
  dsimp only
  rw [hread]

/-- All variables are readable, or one is not behind others that are. -/
theorem readable_or_first (env : Environment) (names : List String) :
    (∀ name ∈ names, Readable env name) ∨
      ∃ before name after raw, names = before ++ name :: after ∧
        (∀ other ∈ before, Readable env other) ∧ env.value? name = some raw ∧
        ∀ n, ¬Unsigned numberLimit raw.toList n := by
  induction names with
  | nil => exact .inl fun _ h => absurd h List.not_mem_nil
  | cons name names ih =>
    by_cases hname : Readable env name
    · rcases ih with hall | ⟨before, other, after, raw, rfl, hbefore, hraw, hbad⟩
      · exact .inl (List.forall_mem_cons.2 ⟨hname, hall⟩)
      · exact .inr ⟨name :: before, other, after, raw, rfl,
          List.forall_mem_cons.2 ⟨hname, hbefore⟩, hraw, hbad⟩
    · unfold Readable at hname
      push Not at hname
      obtain ⟨raw, hraw, hbad⟩ := hname
      exact .inr ⟨[], name, names, raw, rfl, fun _ h => absurd h List.not_mem_nil, hraw, hbad⟩

end

/-! ## Paths of the tools -/

/-- The variable that a tool's own path is read from. -/
def overrideName : Tool → String
  | .query => "PCS_QUERY_BIN"
  | .ingest => "PCS_INGEST_BIN"
  | .digest => "PCS_DIGEST_BIN"

/-- A tool stands at its own path, else in the directory for all, else in the default one. -/
def toolPath (home : String) (env : Environment) (tool : Tool) : String :=
  match env.value? (overrideName tool), env.value? "PCS_BIN_DIR" with
  | some path, _ => path
  | none, some dir => ToolPaths.join dir tool.name
  | none, none => ToolPaths.join (ToolPaths.join home "bin") tool.name

theorem path_toolPaths (home : String) (env : Environment) (tool : Tool) :
    (Config.toolPaths home env).path tool = toolPath home env tool := by
  have hbase : ∀ tool : Tool, ∀ dir, (ToolPaths.inDirectory dir).path tool =
      ToolPaths.join dir tool.name := by
    intro tool dir
    cases tool <;> rfl
  have hpath : (Config.toolPaths home env).path tool = (env.value? (overrideName tool)).getD
      (ToolPaths.join ((env.value? "PCS_BIN_DIR").getD (ToolPaths.join home "bin")) tool.name) := by
    rw [← hbase]
    cases tool <;> rfl
  rw [hpath]
  unfold toolPath
  cases env.value? (overrideName tool) with
  | some path => rfl
  | none => cases env.value? "PCS_BIN_DIR" <;> rfl

theorem ToolPaths.ext_path {ps qs : ToolPaths} (h : ∀ tool, ps.path tool = qs.path tool) :
    ps = qs := by
  obtain ⟨query, ingest, digest⟩ := ps
  obtain ⟨query', ingest', digest'⟩ := qs
  obtain rfl : query = query' := h .query
  obtain rfl : ingest = ingest' := h .ingest
  obtain rfl : digest = digest' := h .digest
  rfl

/-! ## The configuration -/

namespace Config

/-- The variables that hold numbers, in the order in which they are read. -/
def numberNames : List String :=
  ["PCS_MAX_OUTPUT_BYTES", "PCS_COLUMN_TTL_SECS", "PCS_DIGEST_COOLDOWN_SECS"]

/-- The faults of an environment: a number that is none behind numbers that are, or else an output
limit of zero. -/
inductive Failing (env : Environment) : Fault → Prop where
  | unreadable {before : List String} {name : String} {after : List String} {raw : String}
    (order : numberNames = before ++ name :: after) (earlier : ∀ other ∈ before, Readable env other)
    (given : env.value? name = some raw) (bad : ∀ n, ¬Unsigned numberLimit raw.toList n) :
    Failing env (.notNatural name raw (cause numberLimit raw.toList))
  | zeroLimit (readable : ∀ name ∈ numberNames, Readable env name)
    (zero : Number env "PCS_MAX_OUTPUT_BYTES" 102400000 0) : Failing env .zeroOutputLimit

/-- The settings of an environment, each from its own variable. -/
structure Configured (home : String) (env : Environment) (c : Config) : Prop where
  path : ∀ tool, c.tools.path tool = toolPath home env tool
  workDir : c.workDir = (env.value? "PCS_DB_DIR").getD "./"
  outputBytes : Number env "PCS_MAX_OUTPUT_BYTES" 102400000 c.maxOutputBytes
  positive : 0 < c.maxOutputBytes
  columnTtl : Number env "PCS_COLUMN_TTL_SECS" 600 c.columnTtlSecs
  cooldown : Number env "PCS_DIGEST_COOLDOWN_SECS" 30 c.digestCooldownSecs
  defaultTable : c.defaultTable = (env.value? "PCS_DEFAULT_TABLE").getD "snorkel_test_data"

section
variable {home : String} {env : Environment}

theorem ofEnvironment_eq (home : String) (env : Environment) :
    ofEnvironment home env =
      (natural? env "PCS_MAX_OUTPUT_BYTES").bind fun outputBytes =>
      (natural? env "PCS_COLUMN_TTL_SECS").bind fun ttl =>
      (natural? env "PCS_DIGEST_COOLDOWN_SECS").bind fun cooldown =>
        if outputBytes = some 0 then .error .zeroOutputLimit
        else .ok ⟨toolPaths home env, (env.value? "PCS_DB_DIR").getD "./",
          outputBytes.getD 102400000, ttl.getD 600, cooldown.getD 30,
          (env.value? "PCS_DEFAULT_TABLE").getD "snorkel_test_data"⟩ := by
  unfold ofEnvironment
  refine bind_congr fun outputBytes => bind_congr fun ttl => bind_congr fun cooldown => ?_
  dsimp only
  split <;> rfl

theorem ofEnvironment_of_readable (home : String) (h : ∀ name ∈ numberNames, Readable env name) :
    (Number env "PCS_MAX_OUTPUT_BYTES" 102400000 0 ∧
        ofEnvironment home env = .error .zeroOutputLimit) ∨
      ∃ c, Configured home env c ∧ ofEnvironment home env = .ok c := by
  unfold numberNames at h
  simp only [List.forall_mem_cons] at h
  obtain ⟨hbytes, httl, hcooldown, -⟩ := h
  obtain ⟨bytes, hbytes, houtput⟩ := natural?_of_readable hbytes
  obtain ⟨ttl, httl, hcolumns⟩ := natural?_of_readable httl
  obtain ⟨cooldown, hcooldown, hdigest⟩ := natural?_of_readable hcooldown
  rw [ofEnvironment_eq, hbytes, httl, hcooldown]
  by_cases hzero : bytes = some 0
  · subst hzero
    exact .inl ⟨houtput 102400000, rfl⟩
  · have hpositive : 0 < bytes.getD 102400000 := by
      cases bytes with
      | none => decide
      | some n => exact Nat.pos_of_ne_zero fun hn => hzero (congrArg some hn)
    refine .inr ⟨_, ?_, if_neg hzero⟩
    exact ⟨path_toolPaths home env, rfl, houtput _, hpositive, hcolumns _, hdigest _, rfl⟩

theorem Configured.readable {c : Config} (h : Configured home env c) :
    ∀ name ∈ numberNames, Readable env name := by
  unfold numberNames
  simp only [List.forall_mem_cons]
  exact ⟨h.outputBytes.readable, h.columnTtl.readable, h.cooldown.readable,
    fun _ h => absurd h List.not_mem_nil⟩

/-- The output limit of settings is not zero. -/
theorem Configured.not_zero {c : Config} (h : Configured home env c) :
    ¬Number env "PCS_MAX_OUTPUT_BYTES" 102400000 0 := by
  intro hzero
  have hpositive := h.positive
  rw [hzero.unique h.outputBytes rfl] at hpositive
  exact Nat.lt_irrefl 0 hpositive

/-- The variables decide all settings. -/
theorem Configured.unique {c c' : Config} (h : Configured home env c)
    (h' : Configured home env c') : c = c' := by
  have htools : c.tools = c'.tools :=
    ToolPaths.ext_path fun tool => (h.path tool).trans (h'.path tool).symm
  have hbytes := h'.outputBytes.unique h.outputBytes rfl
  have httl := h'.columnTtl.unique h.columnTtl rfl
  have hcooldown := h'.cooldown.unique h.cooldown rfl
  have hworkDir := h.workDir.trans h'.workDir.symm
  have htable := h.defaultTable.trans h'.defaultTable.symm
  cases c
  cases c'
  simp only at htools hbytes httl hcooldown hworkDir htable
  rw [htools, hbytes, httl, hcooldown, hworkDir, htable]

theorem ofEnvironment_of_failing (home : String) {fault : Fault} (h : Failing env fault) :
    ofEnvironment home env = .error fault := by
  cases h with
  | zeroLimit hreadable hzero =>
    rcases ofEnvironment_of_readable home hreadable with ⟨-, herror⟩ | ⟨c, hc, -⟩
    · exact herror
    · exact absurd hzero hc.not_zero
  | @unreadable before name after raw horder hearlier hraw hbad =>
    have hfault := natural?_of_unreadable hraw hbad
    unfold numberNames at horder
    rw [ofEnvironment_eq]
    -- The variable is the first, the second or the third.
    rcases before with - | ⟨first, - | ⟨second, - | ⟨third, before⟩⟩⟩
    · obtain ⟨rfl, -⟩ := List.cons.inj horder
      rw [hfault]
      rfl
    · obtain ⟨rfl, hrest⟩ := List.cons.inj horder
      obtain ⟨rfl, -⟩ := List.cons.inj hrest
      obtain ⟨n?, hfirst, -⟩ := natural?_of_readable (hearlier _ List.mem_cons_self)
      rw [hfirst]
      show (natural? env "PCS_COLUMN_TTL_SECS").bind _ = _
      rw [hfault]
      rfl
    · obtain ⟨rfl, hrest⟩ := List.cons.inj horder
      obtain ⟨rfl, hlast⟩ := List.cons.inj hrest
      obtain ⟨rfl, -⟩ := List.cons.inj hlast
      simp only [List.forall_mem_cons] at hearlier
      obtain ⟨n?, hfirst, -⟩ := natural?_of_readable hearlier.1
      obtain ⟨m?, hsecond, -⟩ := natural?_of_readable hearlier.2.1
      rw [hfirst, hsecond]
      show (natural? env "PCS_DIGEST_COOLDOWN_SECS").bind _ = _
      rw [hfault]
      rfl
    · simp at horder

/-- **The fault that is reported.** -/
theorem ofEnvironment_eq_error_iff {fault : Fault} :
    ofEnvironment home env = .error fault ↔ Failing env fault := by
  constructor
  · intro h
    rcases readable_or_first env numberNames with hall |
      ⟨before, name, after, raw, horder, hearlier, hraw, hbad⟩
    · rcases ofEnvironment_of_readable home hall with ⟨hzero, herror⟩ | ⟨c, -, hok⟩
      · rw [herror] at h
        cases h
        exact .zeroLimit hall hzero
      · rw [hok] at h
        cases h
    · have hfailing : Failing env (.notNatural name raw (cause numberLimit raw.toList)) :=
        .unreadable horder hearlier hraw hbad
      rw [ofEnvironment_of_failing home hfailing] at h
      cases h
      exact hfailing
  · exact ofEnvironment_of_failing home

/-- **The settings, each from its own variable.** -/
theorem ofEnvironment_eq_ok_iff {c : Config} :
    ofEnvironment home env = .ok c ↔ Configured home env c := by
  constructor
  · intro h
    have hnone : ∀ fault, ¬Failing env fault := by
      intro fault hfailing
      rw [ofEnvironment_of_failing home hfailing] at h
      cases h
    rcases readable_or_first env numberNames with hall |
      ⟨before, name, after, raw, horder, hearlier, hraw, hbad⟩
    · rcases ofEnvironment_of_readable home hall with ⟨hzero, -⟩ | ⟨c', hc', hok⟩
      · exact absurd (.zeroLimit hall hzero) (hnone _)
      · rw [hok] at h
        cases h
        exact hc'
    · exact absurd (.unreadable horder hearlier hraw hbad) (hnone _)
  · intro h
    rcases ofEnvironment_of_readable home h.readable with ⟨hzero, -⟩ | ⟨c', hc', hok⟩
    · exact absurd hzero h.not_zero
    · rw [hok, hc'.unique h]

/-- There are no settings exactly when a number is none, or the output limit is zero. -/
theorem exists_failing_iff :
    (∃ fault, Failing env fault) ↔
      (∃ name ∈ numberNames, ∃ raw, env.value? name = some raw ∧
        ∀ n, ¬Unsigned numberLimit raw.toList n) ∨
      Number env "PCS_MAX_OUTPUT_BYTES" 102400000 0 := by
  constructor
  · rintro ⟨fault, h⟩
    cases h with
    | zeroLimit _ hzero => exact .inr hzero
    | @unreadable before name after raw horder _ hraw hbad =>
      have hname : name ∈ numberNames := by
        rw [horder]
        exact List.mem_append_right _ List.mem_cons_self
      exact .inl ⟨name, hname, raw, hraw, hbad⟩
  · intro h
    rcases readable_or_first env numberNames with hall |
      ⟨before, name, after, raw, horder, hearlier, hraw, hbad⟩
    · rcases h with ⟨name, hname, raw, hraw, hbad⟩ | hzero
      · obtain ⟨n, hn⟩ := hall name hname raw hraw
        exact absurd hn (hbad n)
      · exact ⟨_, .zeroLimit hall hzero⟩
    · exact ⟨_, .unreadable horder hearlier hraw hbad⟩

/-- Settings depend on what the variables say, and on nothing else. -/
theorem ofEnvironment_congr {env' : Environment} (h : ∀ name, env'.value? name = env.value? name)
    (home : String) : ofEnvironment home env' = ofEnvironment home env := by
  unfold ofEnvironment natural? toolPaths
  simp only [h]

theorem ofEnvironment_update_of_blank {name raw : String} (hraw : env name = some raw)
    (hblank : blank raw.toList = true) (home : String) :
    ofEnvironment home (Function.update env name none) = ofEnvironment home env := by
  have hnone : env.value? name = none := Environment.value?_eq_none_iff.2 fun raw' hraw' => by
    rw [hraw] at hraw'
    cases hraw'
    exact hblank
  refine ofEnvironment_congr (fun other => ?_) home
  by_cases hother : other = name
  · subst hother
    rw [hnone]
    refine Environment.value?_eq_none_iff.2 fun raw' hraw' => ?_
    rw [Function.update_self] at hraw'
    cases hraw'
  · exact Environment.value?_congr (Function.update_of_ne hother none env)

/-- What a change to a variable leaves alone: all that is not its own setting. The directory of the
tools moves those that have no path of their own. -/
structure Unchanged (env : Environment) (name : String) (c c' : Config) : Prop where
  path : ∀ tool, name ≠ overrideName tool →
    name ≠ "PCS_BIN_DIR" ∨ env.value? (overrideName tool) ≠ none →
    c'.tools.path tool = c.tools.path tool
  workDir : name ≠ "PCS_DB_DIR" → c'.workDir = c.workDir
  outputBytes : name ≠ "PCS_MAX_OUTPUT_BYTES" → c'.maxOutputBytes = c.maxOutputBytes
  columnTtl : name ≠ "PCS_COLUMN_TTL_SECS" → c'.columnTtlSecs = c.columnTtlSecs
  cooldown : name ≠ "PCS_DIGEST_COOLDOWN_SECS" → c'.digestCooldownSecs = c.digestCooldownSecs
  defaultTable : name ≠ "PCS_DEFAULT_TABLE" → c'.defaultTable = c.defaultTable

/-- **A change to one variable changes its own setting only.** -/
theorem Configured.unchanged {name : String} {v : Option String} {c c' : Config}
    (h : Configured home env c) (h' : Configured home (Function.update env name v) c') :
    Unchanged env name c c' := by
  have hvalue : ∀ own, name ≠ own →
      Environment.value? (Function.update env name v) own = env.value? own :=
    fun own hown => Environment.value?_congr (Function.update_of_ne hown.symm v env)
  refine ⟨?_, ?_, ?_, ?_, ?_, ?_⟩
  · intro tool hown hdir
    rw [h'.path, h.path]
    unfold toolPath
    rw [hvalue _ hown]
    rcases hdir with hdir | hset
    · rw [hvalue _ hdir]
    · obtain ⟨path, hpath⟩ := Option.ne_none_iff_exists'.1 hset
      rw [hpath]
  · intro hown
    rw [h'.workDir, h.workDir, hvalue _ hown]
  · exact fun hown => h.outputBytes.unique h'.outputBytes (hvalue _ hown)
  · exact fun hown => h.columnTtl.unique h'.columnTtl (hvalue _ hown)
  · exact fun hown => h.cooldown.unique h'.cooldown (hvalue _ hown)
  · intro hown
    rw [h'.defaultTable, h.defaultTable, hvalue _ hown]

end

/--
**Configuration from the environment.** In every environment:

* there is a fault exactly when one of the three numbers is set and is not an unsigned numeral below
  its limit, or the output limit comes out as zero;
* the first number that is none is the fault that is reported, and an output limit of zero is only
  where all three are numbers;
* else each setting is what its own variable says, or its default, the output limit is positive, and
  a tool stands at its own path, else in the directory for all, else in the default one;
* a variable that is blank might as well not be set;
* a change to one variable, to any value, changes no setting but its own.
-/
theorem settings_decided (home : String) (env : Environment) :
    ((∃ fault, ofEnvironment home env = .error fault) ↔
      (∃ name ∈ numberNames, ∃ raw, env.value? name = some raw ∧
        ∀ n, ¬Unsigned numberLimit raw.toList n) ∨
      Number env "PCS_MAX_OUTPUT_BYTES" 102400000 0) ∧
    (∀ fault, ofEnvironment home env = .error fault ↔ Failing env fault) ∧
    (∀ c, ofEnvironment home env = .ok c ↔ Configured home env c) ∧
    (∀ name raw, env name = some raw → blank raw.toList = true →
      ofEnvironment home (Function.update env name none) = ofEnvironment home env) ∧
    ∀ name v c c', ofEnvironment home env = .ok c →
      ofEnvironment home (Function.update env name v) = .ok c' → Unchanged env name c c' := by
  refine ⟨?_, ?_, ?_, ?_, ?_⟩
  · simp only [ofEnvironment_eq_error_iff]
    exact exists_failing_iff
  · exact fun fault => ofEnvironment_eq_error_iff
  · exact fun c => ofEnvironment_eq_ok_iff
  · exact fun name raw hraw hblank => ofEnvironment_update_of_blank hraw hblank home
  · intro name v c c' hc hc'
    have hconfigured : Configured home env c := ofEnvironment_eq_ok_iff.1 hc
    exact hconfigured.unchanged (ofEnvironment_eq_ok_iff.1 hc')

/-- The second number is reported before the third, and before the limit of zero. -/
example :
    ofEnvironment "/srv" (fun
      | "PCS_MAX_OUTPUT_BYTES" => some " +0"
      | "PCS_COLUMN_TTL_SECS" => some "-1"
      | "PCS_DIGEST_COOLDOWN_SECS" => some "18446744073709551616"
      | _ => none) = .error (.notNatural "PCS_COLUMN_TTL_SECS" "-1" .invalidDigit) := by
  decide

end Config

end StoreGateway.Settings
