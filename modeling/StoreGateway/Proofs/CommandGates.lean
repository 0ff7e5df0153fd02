import StoreGateway.CommandLine.Run
import StoreGateway.Proofs.UnmarkedRuns

/-!
# What stands before a tool

A command line is checked before anything is done for it, and the first check that complains is the
one that is reported. Help and the version are printed before anything but the words is looked at. A
command that gets through all checks makes one request at most, and a shutdown is asked for behind
it.

* `Invocation.read_of_help`: help is given where it is asked for, whatever follows;
* `complaints`: what each check says by itself, in the order of the checks;
* `run_of_page`: a page is printed whatever the checks say;
* `run_eq`: a command is carried out when no check complains;
* `exists_run_execute`: what a command attempts are the calls of a run with these requests;
* `attempts_execute_le_one`: a command that writes nothing attempts one call of the query tool at most;
* `run_gated`: all of this for every command line.
-/

namespace StoreGateway.CommandLine

open StoreGateway.Command StoreGateway.Settings

/-! ## Pages -/

/-- What follows a step that went well may follow it in another way. -/
theorem bind_eq_of_bind {x : Except Stop Given} {f k : Given → Except Stop Given} {g : Given}
    {r : Except Stop Given} (h : x.bind f = .ok g) (hk : ∀ given, f given = .ok g → k given = r) :
    x.bind k = r := by
  cases x with
  | error e => cases h
  | ok given => exact hk given h

/-- What is read behind words that are in order goes on from what these have given. -/
theorem Signature.read_append {s : Signature} {help : Page} {g g' : Given} {before : List String}
    (hread : s.read help g before = .ok g') (hopen : ∀ w ∈ before, Word.of w ≠ .separator)
    (after : List String) : s.read help g (before ++ after) = s.read help g' after := by
  fun_induction Signature.read s help g before with
  | case1 g =>
    cases hread
    rfl
  | case2 | case4 | case9 | case10 => cases hread
  | case3 g w ws _ hword => exact absurd hword (hopen w List.mem_cons_self)
  | case5 g w ws hasks text hword ih | case6 g w ws hasks name value hword ih =>
    rw [List.cons_append, Signature.read, if_neg hasks, hword]
    exact bind_eq_of_bind hread fun given hrest =>
      ih given hrest fun v hv => hopen v (List.mem_cons_of_mem w hv)
  | case7 g w ws hasks name hword hflag ih =>
    rw [List.cons_append, Signature.read, if_neg hasks, hword]
    refine (if_pos hflag).trans (bind_eq_of_bind hread fun given hrest => ?_)
    exact ih given hrest fun v hv => hopen v (List.mem_cons_of_mem w hv)
  | case8 g w hasks name hword hflag v rest value hvalue ih =>
    rw [List.cons_append, List.cons_append, Signature.read, if_neg hasks, hword]
    refine (if_neg hflag).trans ?_
    dsimp only
    rw [hvalue]
    refine bind_eq_of_bind hread fun given hrest => ?_
    exact ih given hrest fun u hu => hopen u (List.mem_cons_of_mem w (List.mem_cons_of_mem v hu))

theorem Command.of_signature? {name : String} {s : Signature}
    (h : Command.signature? name = some s) : Word.of name = .plain name ∧ name ≠ helpCommand := by
  unfold Command.signature? at h
  split at h
  case h_6 => cases h
  all_goals exact ⟨by decide +kernel, by decide⟩

/--
**Help is given where it is asked for**, whatever follows, and also when words that the command needs
are missing.
-/
theorem Invocation.read_of_help {name w : String} {s : Signature} {before : List String}
    {given : Given} (hname : Command.signature? name = some s)
    (hread : s.read (.command name) ⟨[], [], []⟩ before = .ok given)
    (hopen : ∀ v ∈ before, Word.of v ≠ .separator) (hasks : (Word.of w).asksHelp = true)
    (after : List String) :
    Invocation.read (name :: (before ++ w :: after)) = .error (.page (.command name)) := by
  obtain ⟨hword, hhelp⟩ := Command.of_signature? hname
  have hstop : s.read (.command name) ⟨[], [], []⟩ (before ++ w :: after) =
      .error (.page (.command name)) := by
    rw [Signature.read_append hread hopen, Signature.read, if_pos hasks]
  unfold Invocation.read Invocation.readBehind
  rw [hword]
  refine (if_neg hhelp).trans ?_
  unfold Invocation.readCommand
  simp only [hname, hstop]
  rfl

example : Invocation.read ["ingest", "--dataset", "web", "-h", "--", "--dataset"] =
    .error (.page (.command "ingest")) := by decide +kernel

/-! ## Checks -/

/-- What a check of the settings complains of. -/
def complaint? {α : Type} : Except Fault α → Option Failure
  | .ok _ => none
  | .error f => some (.error f.toError)

/-- What a reading of the words complains of; to ask for a page is no misuse. -/
def misuse? : Except Stop Invocation → Option Failure
  | .error .misuse => some .usage
  | .error (.page _) => none
  | .ok _ => none

/--
What each check says by itself: about the words, the variables for telemetry, the log level and the
configuration. Without a command there is no log level to be checked.
-/
def complaints (h : Host) (words : List String) : List (Option Failure) := [
  misuse? (Invocation.read words),
  complaint? (Telemetry.ofEnvironment serviceName h.env),
  (Invocation.read words).toOption.bind fun i => complaint? (LogLevel.read (logLevel h i)),
  complaint? (Config.ofEnvironment h.home h.env)]

/-- A page is printed before anything but the words is looked at. -/
theorem run_of_page {h : Host} {words : List String} {p : Page}
    (hread : Invocation.read words = .error (.page p)) : run h words = ⟨.ok (h.manual p), []⟩ := by
  simp only [run, hread]

/-- Unless a page is asked for, the first complaint is the result, or the command is carried out. -/
theorem run_eq {h : Host} {words : List String}
    (hread : ∀ p, Invocation.read words ≠ .error (.page p)) :
    match (complaints h words).findSome? id with
    | some failure => run h words = ⟨.error failure, []⟩
    | none => ∃ i c, Invocation.read words = .ok i ∧ settings h i = .ok c ∧
        run h words = execute h c i.command := by
  unfold run complaints
  match hwords : Invocation.read words with
  | .error .misuse => simp [misuse?]
  | .error (.page p) => exact absurd hwords (hread p)
  | .ok i =>
    cases htelemetry : Telemetry.ofEnvironment serviceName h.env <;>
      cases hlevel : LogLevel.read (logLevel h i) <;>
      cases hconfig : Config.ofEnvironment h.home h.env <;>
      simp [settings, complaint?, misuse?, Except.toOption, htelemetry, hlevel, hconfig, bind,
        Except.bind]

/-- Where a check complains nothing is attempted, whether it is heard or not. -/
theorem attempts_of_complaint {h : Host} {words : List String} {failure : Failure}
    (hmem : some failure ∈ complaints h words) : (run h words).attempts = [] := by
  by_cases hpage : ∃ p, Invocation.read words = .error (.page p)
  · obtain ⟨p, hread⟩ := hpage
    rw [run_of_page hread]
  · obtain ⟨first, hfirst⟩ := Option.isSome_iff_exists.1
      (List.findSome?_isSome_iff (f := id) |>.2 ⟨some failure, hmem, rfl⟩)
    have hrun := run_eq (h := h) (not_exists.1 hpage)
    rw [hfirst] at hrun
    rw [hrun]

theorem run_of_read {h : Host} {words : List String} {i : Invocation}
    (hread : Invocation.read words = .ok i) :
    run h words = match settings h i with
      | .error f => ⟨.error (.error f.toError), []⟩
      | .ok c => execute h c i.command := by
  cases hsettings : settings h i <;> simp only [run, hread, hsettings]

/-- Something is printed exactly on success. -/
theorem stdout_eq_empty_iff (o : Outcome) : o.stdout = "" ↔ o.exitCode ≠ 0 := by
  unfold Outcome.stdout Outcome.exitCode
  cases o.result with
  | ok text => simp
  | error failure => cases failure <;> simp

/-! ## Commands -/

/-- The gateway of a process that has just begun. -/
def freshGateway (c : Config) : Gateway :=
  .empty (1000 * c.columnTtlSecs) (1000 * c.digestCooldownSecs)

/--
What a command attempts are the calls of a run, whose requests are that of the command, if it makes
one, and a shutdown.
-/
theorem exists_run_execute (h : Host) (c : Config) (command : CommandLine.Command) :
    ∃ run, requests run = (request h c command).toOption.toList ++ [.shutdown] ∧
      (execute h c command).attempts =
        ((freshGateway c).callsMade run).map fun call => ⟨call, h.launch? c call⟩ := by
  have hstart := Timeline.follows_start (freshGateway c) ()
  unfold execute
  dsimp only
  cases request h c command with
  | error e =>
    obtain ⟨more, hmore, hfollows⟩ := Timeline.follows_serve (h.tools c) hstart .shutdown
    refine ⟨more, hmore, ?_⟩
    rw [← List.nil_append more, ← hfollows.calls, List.map_map]
    rfl
  | ok r =>
    obtain ⟨served, hserved, hrequest⟩ := Timeline.follows_serve (h.tools c) hstart r
    obtain ⟨more, hmore, hfollows⟩ := Timeline.follows_serve (h.tools c) hrequest .shutdown
    refine ⟨served ++ more, ?_, ?_⟩
    · rw [requests_append, hserved, hmore]
      rfl
    · rw [← List.nil_append (served ++ more), ← List.append_assoc, ← hfollows.calls, List.map_map]
      rfl

section

variable {h : Host} {c : Config} {command : CommandLine.Command}

/-- A command whose request marks nothing attempts what that costs, of the query tool alone. -/
theorem attempts_execute_le (hmarks : ∀ r, request h c command = .ok r → r.MarksNothing) :
    (execute h c command).attempts.length ≤ (request h c command).toOption.elim 0 Request.cost ∧
      ∀ a ∈ (execute h c command).attempts, a.call.tool = .query := by
  obtain ⟨run, hrequests, hattempts⟩ := exists_run_execute h c command
  have hrun : ∀ r ∈ requests run, r.MarksNothing := by
    intro r hr
    rw [hrequests] at hr
    rcases List.mem_append.1 hr with hr | hr
    · cases hrequest : request h c command with
      | error e =>
        rw [hrequest] at hr
        cases hr
      | ok s =>
        rw [hrequest] at hr
        rw [List.mem_singleton.1 hr]
        exact hmarks s hrequest
    · rw [List.mem_singleton.1 hr]
      trivial
  rw [hattempts]
  constructor
  · rw [List.length_map]
    refine Nat.le_trans (Gateway.length_callsMade_le _ _ hrun) (Nat.le_of_eq ?_)
    rw [hrequests]
    cases request h c command <;> rfl
  · intro a ha
    obtain ⟨call, hcall, rfl⟩ := List.mem_map.1 ha
    exact Gateway.tool_of_marksNothing _ _ hrun hcall

/-- A command without a request starts nothing, and it fails. -/
theorem execute_of_error {e : Error} (hrequest : request h c command = .error e) :
    execute h c command = ⟨.error (.error e), []⟩ := by
  have hmarks : ∀ r, request h c command = .ok r → r.MarksNothing := by
    rw [hrequest]
    rintro r ⟨⟩
  have hle := (attempts_execute_le hmarks).1
  rw [hrequest] at hle
  have hattempts := List.length_eq_zero_iff.1 (Nat.le_zero.1 hle)
  have hresult : (execute h c command).result = .error (.error e) := by
    unfold execute
    rw [hrequest]
    rfl
  calc execute h c command
      = ⟨(execute h c command).result, (execute h c command).attempts⟩ := rfl
    _ = ⟨.error (.error e), []⟩ := by rw [hresult, hattempts]

/-- A query is asked for when its spec is read, and otherwise nothing is. -/
theorem request_query (table : Option String) (spec : String) (unweight : Bool) :
    (∃ text s, readInput h spec = .ok text ∧ Query.Spec.ofText text = some s ∧
      request h c (.query table spec unweight) =
        .ok (.run (.bare (table.getD c.defaultTable)) s unweight)) ∨
    ((∀ text, readInput h spec = .ok text → Query.Spec.ofText text = none) ∧
      ∃ e, request h c (.query table spec unweight) = .error e) := by
  unfold request
  dsimp only
  cases hinput : readInput h spec with
  | error e => exact .inr ⟨by rintro text ⟨⟩, e, rfl⟩
  | ok text =>
    cases hspec : Query.Spec.ofText text with
    | none =>
      refine .inr ⟨?_, .serialization "not a query spec", by simp [Except.bind, hspec]⟩
      rintro _ ⟨⟩
      exact hspec
    | some s => exact .inl ⟨text, s, rfl, hspec, by simp [Except.bind, hspec]⟩

/-- Only the ingest command writes. -/
theorem marksNothing_of_request
    (hcommand : ∀ dataset subset input, command ≠ .ingest dataset subset input)
    {r : Request} (hr : request h c command = .ok r) : r.MarksNothing := by
  cases command with
  | query table spec unweight =>
    rcases request_query (h := h) (c := c) table spec unweight with
      ⟨text, s, -, -, hrequest⟩ | ⟨-, e, hrequest⟩
    · rw [hrequest] at hr
      cases hr
      trivial
    · rw [hrequest] at hr
      cases hr
  | ingest dataset subset input => exact absurd rfl (hcommand dataset subset input)
  | tables | columns table | stats table =>
    cases hr
    trivial

/-- Any other command attempts one call of the query tool at most. -/
theorem attempts_execute_le_one
    (hcommand : ∀ dataset subset input, command ≠ .ingest dataset subset input) :
    (execute h c command).attempts.length ≤ 1 ∧
      ∀ a ∈ (execute h c command).attempts, a.call.tool = .query := by
  obtain ⟨hle, htool⟩ := attempts_execute_le (h := h) (c := c) fun r hr =>
    marksNothing_of_request hcommand hr
  refine ⟨Nat.le_trans hle ?_, htool⟩
  cases request h c command with
  | error e => exact Nat.zero_le 1
  | ok r => exact r.cost_le_one

/-- A query whose spec cannot be read attempts nothing and fails. -/
theorem execute_of_unread {spec : String}
    (hspec : ∀ text, readInput h spec = .ok text → Query.Spec.ofText text = none)
    (table : Option String) (unweight : Bool) :
    (execute h c (.query table spec unweight)).attempts = [] ∧
      (execute h c (.query table spec unweight)).exitCode = 1 := by
  rcases request_query (h := h) (c := c) table spec unweight with
    ⟨text, s, hinput, hread, -⟩ | ⟨-, e, hrequest⟩
  · rw [hspec text hinput] at hread
    cases hread
  · rw [execute_of_error hrequest]
    exact ⟨rfl, rfl⟩

end

/--
**Nothing is started before all checks have passed, and nothing is printed unless all went well.**
For every command line, in all surroundings and whatever the tools are and do:

* something is printed exactly when the exit code is zero;
* if the words, the telemetry variables, the log level or the configuration are not in order, no
  tool is attempted;
* of all that is not in order the first, in this order, is reported, unless the words ask for help
  or the version: then this is printed before anything else is looked at, and the exit code is zero;
* if all are in order and no page is asked for, the command is carried out;
* a query, a listing, columns and statistics attempt one call at most, which is one of the query
  tool;
* a query whose spec cannot be read attempts no tool, whatever its table, and fails.
-/
theorem run_gated (h : Host) (words : List String) :
    ((run h words).stdout = "" ↔ (run h words).exitCode ≠ 0) ∧
    ((∃ failure, some failure ∈ complaints h words) → (run h words).attempts = []) ∧
    (∀ p, Invocation.read words = .error (.page p) →
      (run h words).stdout = h.manual p ++ "\n" ∧ (run h words).exitCode = 0 ∧
        (run h words).attempts = []) ∧
    ((∀ p, Invocation.read words ≠ .error (.page p)) →
      (∀ failure, (complaints h words).findSome? id = some failure →
        (run h words).result = .error failure) ∧
      ((complaints h words).findSome? id = none →
        ∃ i c, Invocation.read words = .ok i ∧ settings h i = .ok c ∧
          run h words = execute h c i.command)) ∧
    ∀ i, Invocation.read words = .ok i →
      ((∀ dataset subset input, i.command ≠ .ingest dataset subset input) →
        (run h words).attempts.length ≤ 1 ∧
          ∀ a ∈ (run h words).attempts, a.call.tool = .query) ∧
      ∀ table spec unweight, i.command = .query table spec unweight →
        (∀ text, readInput h spec = .ok text → Query.Spec.ofText text = none) →
        (run h words).attempts = [] ∧ (run h words).exitCode = 1 := by
  refine ⟨stdout_eq_empty_iff _, fun ⟨_, hmem⟩ => attempts_of_complaint hmem, ?_, ?_, ?_⟩
  · intro p hread
    rw [run_of_page hread]
    exact ⟨rfl, rfl, rfl⟩
  · intro hpage
    have hrun := run_eq (h := h) hpage
    constructor
    · intro failure hfirst
      rw [hfirst] at hrun
      rw [hrun]
    · intro hnone
      rw [hnone] at hrun
      exact hrun
  · intro i hread
    rw [run_of_read hread]
    cases settings h i with
    | error f =>
      exact ⟨fun _ => ⟨Nat.zero_le 1, fun _ ha => absurd ha List.not_mem_nil⟩,
        fun _ _ _ _ _ => ⟨rfl, rfl⟩⟩
    | ok c =>
      refine ⟨attempts_execute_le_one, fun table spec unweight hcommand hspec => ?_⟩
      rw [hcommand]
      exact execute_of_unread hspec table unweight

end StoreGateway.CommandLine
