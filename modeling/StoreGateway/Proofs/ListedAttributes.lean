import StoreGateway.Fields.Order
import StoreGateway.Proofs.Pieces
import StoreGateway.Proofs.Trimming
import StoreGateway.Settings.Telemetry

/-!
# Attributes of the service

A variable lists attributes as `key=value` between commas, with blanks wherever one likes. The
service sets some attributes itself, over what is listed or under it.

* `Says`, `Wrong`: what a piece between commas says, and what is wrong with it;
* `Lists`: the pairs that pieces list, with blank pieces anywhere in between;
* `readAttributes_eq_ok_iff`, `readAttributes_eq_error_iff`: what is read, and which fault is
  reported;
* `Listable`, `Spaced`, `readAttributes_of_spaced`: pairs that are read back from any text that
  lists them;
* `lastValue`, `Telemetry.Merged`: the attributes of a service, each with the source that decides
  it.
-/

namespace StoreGateway.Settings

open StoreGateway.Text

/-! ## Pieces between commas -/

/-- A piece says a key and a value: what stands around its first equals sign, without blanks. -/
def Says (piece : List Char) (pair : String × String) : Prop :=
  ∃ key value, piece = key ++ '=' :: value ∧ '=' ∉ key ∧ blank key = false ∧
    pair = (String.ofList (trim key), String.ofList (trim value))

/-- What is wrong with a piece: it has no equals sign, or nothing in front of the first. -/
inductive Wrong (piece : List Char) : Fault → Prop where
  | notPair (filled : blank piece = false) (missing : '=' ∉ piece) :
    Wrong piece (.notPair (String.ofList (trim piece)))
  | emptyKey {key value : List Char} (parts : piece = key ++ '=' :: value)
      (empty : blank key = true) : Wrong piece (.emptyKey (String.ofList (trim piece)))

theorem isBlank_equals : isBlank '=' = false := by decide

theorem isBlank_comma : isBlank ',' = false := by decide

theorem Says.filled {piece : List Char} {pair : String × String} (h : Says piece pair) :
    blank piece = false := by
  obtain ⟨key, value, rfl, -, hkey, -⟩ := h
  unfold blank at hkey ⊢
  rw [List.all_append, hkey, Bool.false_and]

theorem Wrong.filled {piece : List Char} {fault : Fault} (h : Wrong piece fault) :
    blank piece = false := by
  cases h with
  | notPair hfilled _ => exact hfilled
  | emptyKey hparts _ =>
    rw [hparts]
    unfold blank
    rw [List.all_append, List.all_cons, isBlank_equals, Bool.false_and, Bool.and_false]

/-- A piece is blank, or says a pair, or is wrong. -/
theorem piece_cases (piece : List Char) :
    blank piece = true ∨ (∃ pair, Says piece pair) ∨ ∃ fault, Wrong piece fault := by
  cases hblank : blank piece with
  | true => exact .inl rfl
  | false =>
    refine .inr ?_
    cases hsplit : splitOnce '=' piece with
    | none => exact .inr ⟨_, .notPair hblank (splitOnce_eq_none_iff.1 hsplit)⟩
    | some sides =>
      obtain ⟨key, value⟩ := sides
      obtain ⟨hparts, hfirst⟩ := splitOnce_eq_some_iff.1 hsplit
      cases hkey : blank key with
      | true => exact .inr ⟨_, .emptyKey hparts hkey⟩
      | false => exact .inl ⟨_, key, value, hparts, hfirst, hkey, rfl⟩

theorem readPair_of_says {piece : List Char} {pair : String × String} (h : Says piece pair) :
    readPair (trim piece) = .ok pair := by
  obtain ⟨key, value, rfl, hfirst, hkey, rfl⟩ := h
  have hsplit : splitOnce '=' (trim (key ++ '=' :: value)) =
      some (trimStart key, trimEnd value) := by
    rw [trim_append_cons isBlank_equals]
    refine splitOnce_append (fun hmem => hfirst ?_) _
    exact (List.dropWhile_sublist _).subset hmem
  have hfilled : blank (trimStart key) = false := by
    rw [Bool.eq_false_iff, Ne, ← trim_eq_nil_iff, trim_trimStart, trim_eq_nil_iff]
    simp [hkey]
  unfold readPair
  rw [hsplit]
  dsimp only
  rw [hfilled, trim_trimStart, trim_trimEnd]
  rfl

theorem readPair_of_wrong {piece : List Char} {fault : Fault} (h : Wrong piece fault) :
    readPair (trim piece) = .error fault := by
  cases h with
  | notPair _ hmissing =>
    have hsplit : splitOnce '=' (trim piece) = none :=
      splitOnce_eq_none_iff.2 fun hmem => hmissing (mem_of_mem_trim hmem)
    unfold readPair
    rw [hsplit]
  | @emptyKey key value hparts hempty =>
    have hsplit : splitOnce '=' (trim piece) = some ([], trimEnd value) := by
      rw [hparts, trim_append_cons isBlank_equals, trimStart_eq_nil_iff.2 hempty]
      rfl
    unfold readPair
    rw [hsplit]
    rfl

/-! ## Lists of attributes -/

/-- The pairs of pieces, each of which is blank or means one pair. -/
inductive Lists (Means : List Char → String × String → Prop) :
    List (List Char) → List (String × String) → Prop where
  | nil : Lists Means [] []
  | blank {piece pieces pairs} (skipped : Text.blank piece = true)
    (rest : Lists Means pieces pairs) : Lists Means (piece :: pieces) pairs
  | pair {piece pieces pair pairs} (meant : Means piece pair) (rest : Lists Means pieces pairs) :
    Lists Means (piece :: pieces) (pair :: pairs)

/-- The pairs of the pieces that are not blank. -/
def readPieces (pieces : List (List Char)) : Except Fault (List (String × String)) :=
  ((pieces.map trim).filter fun entry => !entry.isEmpty).mapM readPair

theorem readAttributes_eq (raw : String) :
    readAttributes raw = readPieces (raw.toList.splitOn ',') := by
  rw [← splitOn_eq]
  rfl

theorem readPieces_blank {piece : List Char} (h : blank piece = true) (pieces : List (List Char)) :
    readPieces (piece :: pieces) = readPieces pieces := by
  unfold readPieces
  rw [List.map_cons, trim_eq_nil_iff.2 h]
  rfl

theorem readPieces_cons {piece : List Char} (h : blank piece = false) (pieces : List (List Char)) :
    readPieces (piece :: pieces) =
      (readPair (trim piece)).bind fun pair => (readPieces pieces).map (pair :: ·) := by
  have hne : trim piece ≠ [] := fun e => by
    rw [trim_eq_nil_iff.1 e] at h
    cases h
  unfold readPieces
  rw [List.map_cons, List.filter_cons_of_pos (by simpa using hne), List.mapM_cons]
  rfl

theorem readPieces_of_lists {pieces : List (List Char)} {pairs : List (String × String)}
    (h : Lists Says pieces pairs) : readPieces pieces = .ok pairs := by
  induction h with
  | nil => rfl
  | blank hblank _ ih => rw [readPieces_blank hblank, ih]
  | pair hsays _ ih =>
    rw [readPieces_cons hsays.filled, readPair_of_says hsays, ih]
    rfl

/-- The first piece that is wrong, behind pieces that are blank or say a pair. -/
def FirstWrong (pieces : List (List Char)) (fault : Fault) : Prop :=
  ∃ before piece after, pieces = before ++ piece :: after ∧
    (∀ p ∈ before, blank p = true ∨ ∃ pair, Says p pair) ∧ Wrong piece fault

theorem FirstWrong.cons {piece : List Char} {pieces : List (List Char)} {fault : Fault}
    (h : FirstWrong pieces fault) (hpiece : blank piece = true ∨ ∃ pair, Says piece pair) :
    FirstWrong (piece :: pieces) fault := by
  obtain ⟨before, wrong, after, rfl, hbefore, hwrong⟩ := h
  refine ⟨piece :: before, wrong, after, rfl, fun p hp => ?_, hwrong⟩
  rcases List.mem_cons.1 hp with rfl | hp
  · exact hpiece
  · exact hbefore p hp

theorem readPieces_of_firstWrong {pieces : List (List Char)} {fault : Fault}
    (h : FirstWrong pieces fault) : readPieces pieces = .error fault := by
  obtain ⟨before, wrong, after, rfl, hbefore, hwrong⟩ := h
  induction before with
  | nil =>
    rw [List.nil_append, readPieces_cons hwrong.filled, readPair_of_wrong hwrong]
    rfl
  | cons p before ih =>
    have hrest := ih fun q hq => hbefore q (List.mem_cons_of_mem p hq)
    rw [List.cons_append]
    rcases hbefore p List.mem_cons_self with hblank | ⟨pair, hsays⟩
    · rw [readPieces_blank hblank, hrest]
    · rw [readPieces_cons hsays.filled, readPair_of_says hsays, hrest]
      rfl

/-- All pieces are read, or there is a first one that is wrong. -/
theorem lists_or_firstWrong (pieces : List (List Char)) :
    (∃ pairs, Lists Says pieces pairs) ∨ ∃ fault, FirstWrong pieces fault := by
  induction pieces with
  | nil => exact .inl ⟨[], .nil⟩
  | cons piece pieces ih =>
    rcases piece_cases piece with hblank | ⟨pair, hsays⟩ | ⟨fault, hwrong⟩
    · rcases ih with ⟨pairs, hlists⟩ | ⟨fault, hfirst⟩
      · exact .inl ⟨pairs, .blank hblank hlists⟩
      · exact .inr ⟨fault, hfirst.cons (.inl hblank)⟩
    · rcases ih with ⟨pairs, hlists⟩ | ⟨fault, hfirst⟩
      · exact .inl ⟨pair :: pairs, .pair hsays hlists⟩
      · exact .inr ⟨fault, hfirst.cons (.inr ⟨pair, hsays⟩)⟩
    · exact .inr ⟨fault, [], piece, pieces, rfl, fun _ hp => absurd hp List.not_mem_nil, hwrong⟩

theorem readAttributes_eq_ok_iff {raw : String} {pairs : List (String × String)} :
    readAttributes raw = .ok pairs ↔ Lists Says (raw.toList.splitOn ',') pairs := by
  rw [readAttributes_eq]
  constructor
  · intro h
    rcases lists_or_firstWrong (raw.toList.splitOn ',') with ⟨pairs', hlists⟩ | ⟨fault, hfirst⟩
    · rw [readPieces_of_lists hlists] at h
      cases h
      exact hlists
    · rw [readPieces_of_firstWrong hfirst] at h
      cases h
  · exact readPieces_of_lists

theorem readAttributes_eq_error_iff {raw : String} {fault : Fault} :
    readAttributes raw = .error fault ↔ FirstWrong (raw.toList.splitOn ',') fault := by
  rw [readAttributes_eq]
  constructor
  · intro h
    rcases lists_or_firstWrong (raw.toList.splitOn ',') with ⟨pairs, hlists⟩ | ⟨fault', hfirst⟩
    · rw [readPieces_of_lists hlists] at h
      cases h
    · rw [readPieces_of_firstWrong hfirst] at h
      cases h
      exact hfirst
  · exact readPieces_of_firstWrong

theorem exists_lists_iff {pieces : List (List Char)} :
    (∃ pairs, Lists Says pieces pairs) ↔ ∀ p ∈ pieces, blank p = true ∨ ∃ pair, Says p pair := by
  constructor
  · rintro ⟨pairs, h⟩
    induction h with
    | nil => exact fun _ hp => absurd hp List.not_mem_nil
    | blank hblank _ ih => exact List.forall_mem_cons.2 ⟨.inl hblank, ih⟩
    | pair hsays _ ih => exact List.forall_mem_cons.2 ⟨.inr ⟨_, hsays⟩, ih⟩
  · intro h
    induction pieces with
    | nil => exact ⟨[], .nil⟩
    | cons piece pieces ih =>
      obtain ⟨hpiece, hrest⟩ := List.forall_mem_cons.1 h
      obtain ⟨pairs, hpairs⟩ := ih hrest
      rcases hpiece with hblank | ⟨pair, hsays⟩
      · exact ⟨pairs, .blank hblank hpairs⟩
      · exact ⟨pair :: pairs, .pair hsays hpairs⟩

/-- A text is accepted when each piece is blank or has something before its first equals sign. -/
theorem exists_readAttributes_eq_ok_iff {raw : String} :
    (∃ pairs, readAttributes raw = .ok pairs) ↔ ∀ piece ∈ raw.toList.splitOn ',',
      blank piece = true ∨
        ∃ key value, piece = key ++ '=' :: value ∧ '=' ∉ key ∧ blank key = false := by
  have hsays : ∀ piece, (∃ pair, Says piece pair) ↔
      ∃ key value, piece = key ++ '=' :: value ∧ '=' ∉ key ∧ blank key = false := by
    intro piece
    constructor
    · rintro ⟨pair, key, value, hparts, hfirst, hkey, -⟩
      exact ⟨key, value, hparts, hfirst, hkey⟩
    · rintro ⟨key, value, hparts, hfirst, hkey⟩
      exact ⟨_, key, value, hparts, hfirst, hkey, rfl⟩
  simp only [readAttributes_eq_ok_iff, exists_lists_iff, hsays]

/-! ## Written lists -/

/-- A pair without blanks at its ends, without commas, and with the first equals sign behind its
key. -/
structure Listable (pair : String × String) : Prop where
  key_ne : pair.1 ≠ ""
  key_trimmed : trimmed pair.1 = pair.1
  value_trimmed : trimmed pair.2 = pair.2
  comma_key : ',' ∉ pair.1.toList
  comma_value : ',' ∉ pair.2.toList
  equals_key : '=' ∉ pair.1.toList

/-- A piece is a key and a value with an equals sign in between, and blanks anywhere around them. -/
def Spaced (piece : List Char) (pair : String × String) : Prop :=
  ∃ front behind before back, (∀ pad ∈ [front, behind, before, back], blank pad = true) ∧
    piece = (front ++ (pair.1.toList ++ behind)) ++ '=' :: (before ++ (pair.2.toList ++ back))

theorem ofList_trim_padded {s : String} (h : trimmed s = s) {front back : List Char}
    (hfront : blank front = true) (hback : blank back = true) :
    String.ofList (trim (front ++ (s.toList ++ back))) = s := by
  rw [trim_append_left hfront, trim_append_right hback]
  exact h

section
variable {piece : List Char} {pair : String × String} (hspaced : Spaced piece pair)
  (hpair : Listable pair)
include hspaced hpair

theorem says_of_spaced : Says piece pair := by
  obtain ⟨front, behind, before, back, hpads, rfl⟩ := hspaced
  simp only [List.forall_mem_cons] at hpads
  obtain ⟨hfront, hbehind, hbefore, hback, -⟩ := hpads
  refine ⟨_, _, rfl, ?_, ?_, ?_⟩
  · simp [not_mem_of_blank hfront isBlank_equals, not_mem_of_blank hbehind isBlank_equals,
      hpair.equals_key]
  · -- A key of blanks only would be empty without them.
    rw [Bool.eq_false_iff, Ne, ← trim_eq_nil_iff, trim_append_left hfront,
      trim_append_right hbehind]
    intro hnil
    have hempty : trimmed pair.1 = "" := congrArg String.ofList hnil
    exact hpair.key_ne (hpair.key_trimmed.symm.trans hempty)
  · rw [ofList_trim_padded hpair.key_trimmed hfront hbehind,
      ofList_trim_padded hpair.value_trimmed hbefore hback]

theorem not_mem_comma_of_spaced : ',' ∉ piece := by
  obtain ⟨front, behind, before, back, hpads, rfl⟩ := hspaced
  simp only [List.forall_mem_cons] at hpads
  obtain ⟨hfront, hbehind, hbefore, hback, -⟩ := hpads
  simp [not_mem_of_blank hfront isBlank_comma, not_mem_of_blank hbehind isBlank_comma,
    not_mem_of_blank hbefore isBlank_comma, not_mem_of_blank hback isBlank_comma,
    hpair.comma_key, hpair.comma_value]

end

/-- Written pairs say what they were, and no piece holds a comma. -/
theorem lists_of_spaced {pieces : List (List Char)} {pairs : List (String × String)}
    (h : Lists Spaced pieces pairs) (hpairs : ∀ pair ∈ pairs, Listable pair) :
    Lists Says pieces pairs ∧ ∀ piece ∈ pieces, ',' ∉ piece := by
  induction h with
  | nil => exact ⟨.nil, fun _ hp => absurd hp List.not_mem_nil⟩
  | blank hblank _ ih =>
    obtain ⟨hlists, hcommas⟩ := ih hpairs
    exact ⟨.blank hblank hlists,
      List.forall_mem_cons.2 ⟨not_mem_of_blank hblank isBlank_comma, hcommas⟩⟩
  | pair hspaced _ ih =>
    obtain ⟨hpair, hrest⟩ := List.forall_mem_cons.1 hpairs
    obtain ⟨hlists, hcommas⟩ := ih hrest
    exact ⟨.pair (says_of_spaced hspaced hpair) hlists,
      List.forall_mem_cons.2 ⟨not_mem_comma_of_spaced hspaced hpair, hcommas⟩⟩

/-- **Pairs are read back from any text that lists them.** -/
theorem readAttributes_of_spaced {pieces : List (List Char)} {pairs : List (String × String)}
    (h : Lists Spaced pieces pairs) (hpairs : ∀ pair ∈ pairs, Listable pair) :
    readAttributes (String.ofList (joinWith ',' pieces)) = .ok pairs := by
  obtain ⟨hlists, hcommas⟩ := lists_of_spaced h hpairs
  by_cases hne : pieces = []
  · subst hne
    cases hlists
    rfl
  · rw [readAttributes_eq, String.toList_ofList, ← splitOn_eq, splitOn_joinWith hne hcommas]
    exact readPieces_of_lists hlists

/-- Pairs are read back from `key=value` with commas. -/
theorem readAttributes_commaJoin {pairs : List (String × String)}
    (hpairs : ∀ pair ∈ pairs, Listable pair) :
    readAttributes (commaJoin (pairs.map fun pair => pair.1 ++ "=" ++ pair.2)) = .ok pairs := by
  refine readAttributes_of_spaced ?_ hpairs
  clear hpairs
  induction pairs with
  | nil => exact .nil
  | cons pair pairs ih =>
    refine .pair ⟨[], [], [], [], by simp [blank], ?_⟩ ih
    simp

/-! ## Attributes of the service -/

/-- The value that stands last under a key. -/
def lastValue (listed : List (String × String)) (key : String) : Option String :=
  (listed.filter fun pair => pair.1 = key).getLast?.map (·.2)

theorem get?_ofList_eq_lastValue (listed : List (String × String)) (key : String) :
    (Fields.ofList listed).get? key = lastValue listed key := by
  induction listed using List.reverseRecOn with
  | nil => rfl
  | append_singleton listed pair ih =>
    have hlast : (Fields.ofList [pair]).get? key = if pair.1 = key then some pair.2 else none := rfl
    rw [Fields.get?_ofList_append, ih, hlast]
    unfold lastValue
    by_cases h : pair.1 = key <;> simp [h]

/-- A value that is set only where there is none. -/
theorem get?_insert_of_absent (fs : Fields String) (name value key : String) :
    (if fs.contains name then fs else fs.insert name value).get? key =
      if key = name then some ((fs.get? name).getD value) else fs.get? key := by
  unfold Fields.contains
  by_cases hkey : key = name
  · subst hkey
    rw [if_pos rfl]
    cases h : fs.get? key with
    | none => simp [Fields.get?_insert]
    | some v => simp [h]
  · rw [if_neg hkey]
    split
    · rfl
    · rw [Fields.get?_insert, if_neg (Ne.symm hkey)]

namespace Telemetry

section
variable (service : String) (run : Option String) (listed : List (String × String))

/-- The attributes without the number of the run. -/
def placed : Fields String :=
  let named := (Fields.ofList listed).insert serviceKey service
  if named.contains namespaceKey then named else named.insert namespaceKey "pcs"

theorem attributesOf_eq :
    attributesOf service run listed =
      run.elim (placed service listed) ((placed service listed).insert runKey) := by
  cases run <;> rfl

theorem ascending_attributesOf : (attributesOf service run listed).Ascending := by
  have hnamed : ((Fields.ofList listed).insert serviceKey service).Ascending :=
    Fields.ascending_insert (Fields.ascending_ofList listed) serviceKey service
  have hplaced : (placed service listed).Ascending := by
    unfold placed
    dsimp only
    split
    · exact hnamed
    · exact Fields.ascending_insert hnamed namespaceKey "pcs"
  rw [attributesOf_eq]
  cases run with
  | none => exact hplaced
  | some id => exact Fields.ascending_insert hplaced runKey id

theorem get?_placed (key : String) :
    (placed service listed).get? key =
      if key = namespaceKey then some ((lastValue listed namespaceKey).getD "pcs")
      else if key = serviceKey then some service
      else lastValue listed key := by
  have hnamed : ∀ key, ((Fields.ofList listed).insert serviceKey service).get? key =
      if key = serviceKey then some service else lastValue listed key := by
    intro key
    rw [Fields.get?_insert, get?_ofList_eq_lastValue]
    simp only [eq_comm]
  have hspace := hnamed namespaceKey
  rw [if_neg (by decide)] at hspace
  unfold placed
  rw [get?_insert_of_absent, hspace, hnamed]

end

/-- A service with its attributes, each from the source that decides it: its name is its own, a
listed namespace goes before the one that it has by default, and a run that has a number is told by
it. -/
structure Merged (service : String) (run : Option String) (listed : List (String × String))
    (t : Telemetry) : Prop where
  serviceName : t.serviceName = service
  runId : t.runId = run
  ascending : t.attributes.Ascending
  name : t.attributes.get? "service.name" = some service
  space : t.attributes.get? "service.namespace" =
    some ((lastValue listed "service.namespace").getD "pcs")
  number : ∀ id, run = some id → t.attributes.get? "pcs.run_id" = some id
  other : ∀ key, key ≠ "service.name" → key ≠ "service.namespace" →
    (key = "pcs.run_id" → run = none) → t.attributes.get? key = lastValue listed key

section
variable {service : String} {run : Option String} {listed : List (String × String)}

theorem merged_attributesOf :
    Merged service run listed ⟨service, run, attributesOf service run listed⟩ := by
  have hget : ∀ key, (key = runKey → run = none) →
      (attributesOf service run listed).get? key = (placed service listed).get? key := by
    intro key hkey
    rw [attributesOf_eq]
    cases run with
    | none => rfl
    | some id =>
      have hne : runKey ≠ key := fun e => Option.some_ne_none id (hkey e.symm)
      show ((placed service listed).insert runKey id).get? key = _
      rw [Fields.get?_insert, if_neg hne]
  refine ⟨rfl, rfl, ascending_attributesOf service run listed, ?_, ?_, ?_, ?_⟩
  · rw [hget _ fun h => absurd h (by decide), get?_placed]
    rfl
  · rw [hget _ fun h => absurd h (by decide), get?_placed]
    rfl
  · rintro id rfl
    show (attributesOf service (some id) listed).get? runKey = some id
    rw [attributesOf_eq]
    show ((placed service listed).insert runKey id).get? runKey = some id
    rw [Fields.get?_insert, if_pos rfl]
  · intro key hservice hspace hrun
    have hservice' : ¬key = serviceKey := hservice
    have hspace' : ¬key = namespaceKey := hspace
    show (attributesOf service run listed).get? key = _
    rw [hget key hrun, get?_placed, if_neg hspace', if_neg hservice']

/-- The sources decide all there is. -/
theorem Merged.unique {t t' : Telemetry} (h : Merged service run listed t)
    (h' : Merged service run listed t') : t = t' := by
  have hattributes : t.attributes = t'.attributes := by
    refine Fields.eq_of_get? h.ascending h'.ascending fun key => ?_
    by_cases hname : key = "service.name"
    · rw [hname, h.name, h'.name]
    · by_cases hspace : key = "service.namespace"
      · rw [hspace, h.space, h'.space]
      · by_cases hrun : key = "pcs.run_id" → run = none
        · rw [h.other key hname hspace hrun, h'.other key hname hspace hrun]
        · obtain ⟨hkey, hsome⟩ := Classical.not_imp.1 hrun
          obtain ⟨id, hid⟩ := Option.ne_none_iff_exists'.1 hsome
          rw [hkey, h.number id hid, h'.number id hid]
  obtain ⟨name, id, attributes⟩ := t
  obtain ⟨name', id', attributes'⟩ := t'
  obtain rfl : name = name' := h.serviceName.trans h'.serviceName.symm
  obtain rfl : id = id' := h.runId.trans h'.runId.symm
  obtain rfl : attributes = attributes' := hattributes
  rfl

end

/-- What the environment lists; nothing, if the variable is not set. -/
def listedIn (env : Environment) : Except Fault (List (String × String)) :=
  (env "OTEL_RESOURCE_ATTRIBUTES").elim (.ok []) readAttributes

theorem ofEnvironment_eq (defaultService : String) (env : Environment) :
    ofEnvironment defaultService env =
      let service := trimmed ((env "OTEL_SERVICE_NAME").getD defaultService)
      let run := env.value? "PCS_TELEMETRY_RUN_ID"
      if service = "" then .error .emptyServiceName
      else (listedIn env).map fun listed => ⟨service, run, attributesOf service run listed⟩ := by
  unfold ofEnvironment listedIn
  dsimp only
  split
  · rfl
  · cases env "OTEL_RESOURCE_ATTRIBUTES" with
    | none => rfl
    | some raw =>
      show (readAttributes raw).bind _ = (readAttributes raw).map _
      cases readAttributes raw <;> rfl

theorem ofEnvironment_eq_ok_iff {defaultService : String} {env : Environment} {t : Telemetry} :
    ofEnvironment defaultService env = .ok t ↔
      trimmed ((env "OTEL_SERVICE_NAME").getD defaultService) ≠ "" ∧
        ∃ listed, listedIn env = .ok listed ∧
          Merged (trimmed ((env "OTEL_SERVICE_NAME").getD defaultService))
            (env.value? "PCS_TELEMETRY_RUN_ID") listed t := by
  rw [ofEnvironment_eq]
  dsimp only
  by_cases hservice : trimmed ((env "OTEL_SERVICE_NAME").getD defaultService) = ""
  · rw [if_pos hservice]
    exact ⟨nofun, fun h => absurd hservice h.1⟩
  · rw [if_neg hservice]
    cases listedIn env with
    | error fault =>
      exact ⟨nofun, fun ⟨_, _, h, _⟩ => by cases h⟩
    | ok listed =>
      constructor
      · intro h
        cases h
        exact ⟨hservice, listed, rfl, merged_attributesOf⟩
      · rintro ⟨-, listed', hlisted, hmerged⟩
        cases hlisted
        exact congrArg Except.ok (merged_attributesOf.unique hmerged)

end Telemetry

/--
**The attributes of the service.**

* A text is accepted exactly when each piece between commas is blank or has something other than
  blanks before its first equals sign; the pairs are what those pieces say, in order, and else the
  first piece that is wrong is reported.
* Pairs without blanks at their ends and without commas, with keys that are not empty and hold no
  equals sign, are read back when they are joined as `key=value` with commas, and also with blanks
  around keys and values and with blank pieces anywhere in between.
* Settings are had exactly when the service has a name and the text is accepted, and each attribute
  then comes from the source that decides it: `Telemetry.Merged`.
-/
theorem attributes_decided :
    (∀ raw,
      ((∃ pairs, readAttributes raw = .ok pairs) ↔ ∀ piece ∈ raw.toList.splitOn ',',
        blank piece = true ∨
          ∃ key value, piece = key ++ '=' :: value ∧ '=' ∉ key ∧ blank key = false) ∧
      (∀ pairs, readAttributes raw = .ok pairs ↔ Lists Says (raw.toList.splitOn ',') pairs) ∧
      ∀ fault, readAttributes raw = .error fault ↔ FirstWrong (raw.toList.splitOn ',') fault) ∧
    (∀ pairs : List (String × String), (∀ pair ∈ pairs, Listable pair) →
      readAttributes (commaJoin (pairs.map fun pair => pair.1 ++ "=" ++ pair.2)) = .ok pairs ∧
      ∀ pieces, Lists Spaced pieces pairs →
        readAttributes (String.ofList (joinWith ',' pieces)) = .ok pairs) ∧
    ∀ (defaultService : String) (env : Environment) (t : Telemetry),
      let service := trimmed ((env "OTEL_SERVICE_NAME").getD defaultService)
      Telemetry.ofEnvironment defaultService env = .ok t ↔ service ≠ "" ∧
        ∃ listed, (env "OTEL_RESOURCE_ATTRIBUTES").elim (.ok []) readAttributes = .ok listed ∧
          Telemetry.Merged service (env.value? "PCS_TELEMETRY_RUN_ID") listed t := by
  refine ⟨fun raw => ⟨?_, ?_, ?_⟩, fun pairs hpairs => ⟨?_, ?_⟩, ?_⟩
  · exact exists_readAttributes_eq_ok_iff
  · exact fun pairs => readAttributes_eq_ok_iff
  · exact fun fault => readAttributes_eq_error_iff
  · exact readAttributes_commaJoin hpairs
  · exact fun pieces hspaced => readAttributes_of_spaced hspaced hpairs
  · exact fun defaultService env t => Telemetry.ofEnvironment_eq_ok_iff

/-- A listed name of the service is put aside, and the last value of a key counts. -/
example :
    Telemetry.ofEnvironment "pcs" (fun
      | "OTEL_RESOURCE_ATTRIBUTES" => some " team = store ,, a=b=c,a=d,service.name=other,\t"
      | "PCS_TELEMETRY_RUN_ID" => some " 7 "
      | _ => none) =
      .ok ⟨"pcs", some "7", [("a", "d"), ("pcs.run_id", "7"), ("service.name", "pcs"),
        ("service.namespace", "pcs"), ("team", "store")]⟩ := by
  decide

end StoreGateway.Settings
