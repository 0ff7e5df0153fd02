import StoreGateway.Proofs.RowWise
import StoreGateway.Proofs.WrittenIntegers

/-!
# Buckets in order of time

The time view shows its buckets one after the other. Buckets are sorted by the integers in front of
their names, and since sorting leaves the order of equal ones alone, names that read as the same
integer, or as none, stay in the order of the names.

* `Before`: which of two buckets comes first;
* `filter_mergeSort`: sorting leaves equal ones alone;
* `pairwise_namedOrder`: so the buckets are in that order;
* `TimeOf`, `Stamped`, `BucketRows`: the rows of one bucket, with its time;
* `TimeLe`: times ascend, and rows without a time come last;
* `TimeRows`: the rows of all buckets;
* `time_rows_in_order`: when there are rows, and which.
-/

namespace StoreGateway.Query

open StoreGateway.Text

/-! ## The order of buckets -/

/--
Integers come before other names, smaller ones before greater ones, and what reads alike is in the
order of the names.
-/
def Before (a b : String) : Prop :=
  (∃ m, LeadsWith a m ∧ ∀ n, LeadsWith b n → m < n) ∨
    ((∀ n, LeadsWith a n ↔ LeadsWith b n) ∧ a < b)

theorem bucketLe_trans (a b c : Option Int) (hab : bucketLe a b = true)
    (hbc : bucketLe b c = true) : bucketLe a c = true := by
  cases c with
  | none => cases a <;> rfl
  | some n =>
    cases b with
    | none => cases hbc
    | some m =>
      cases a with
      | none => cases hab
      | some l =>
        have hlm : l ≤ m := of_decide_eq_true hab
        have hmn : m ≤ n := of_decide_eq_true hbc
        have hln : l ≤ n := by omega
        exact decide_eq_true hln

theorem bucketLe_total (a b : Option Int) : (bucketLe a b || bucketLe b a) = true := by
  cases a with
  | none => cases b <;> rfl
  | some m =>
    cases b with
    | none => rfl
    | some n =>
      have htotal : m ≤ n ∨ n ≤ m := by omega
      rw [Bool.or_eq_true]
      exact htotal.imp decide_eq_true decide_eq_true

/-- Sorting leaves alone the order of elements that are not told apart. -/
theorem filter_mergeSort {α : Type} {le : α → α → Bool} {p : α → Bool}
    (htrans : ∀ a b c, le a b = true → le b c = true → le a c = true)
    (htotal : ∀ a b, (le a b || le b a) = true)
    (hp : ∀ a b, p a = true → p b = true → le a b = true) (l : List α) :
    (l.mergeSort le).filter p = l.filter p := by
  have hpairs : (l.filter p).Pairwise fun a b => le a b = true :=
    List.pairwise_of_forall_mem_list fun a ha b hb =>
      hp a b (List.mem_filter.1 ha).2 (List.mem_filter.1 hb).2
  have hsub : (l.filter p).Sublist (l.mergeSort le) :=
    List.sublist_mergeSort htrans htotal hpairs List.filter_sublist
  have hsub' : (l.filter p).Sublist ((l.mergeSort le).filter p) := by
    have hfilter := hsub.filter p
    simp only [List.filter_filter, Bool.and_self] at hfilter
    exact hfilter
  have hlength : (l.filter p).length = ((l.mergeSort le).filter p).length :=
    ((List.mergeSort_perm l le).filter p).length_eq.symm
  exact (hsub'.eq_of_length hlength).symm

/-- The order of buckets by their names. -/
def nameLe (a b : String × Json) : Bool :=
  bucketLe (lenientInt a.1) (lenientInt b.1)

theorem nameLe_trans (a b c : String × Json) (hab : nameLe a b = true) (hbc : nameLe b c = true) :
    nameLe a c = true :=
  bucketLe_trans _ _ _ hab hbc

theorem nameLe_total (a b : String × Json) : (nameLe a b || nameLe b a) = true :=
  bucketLe_total _ _

theorem nameLe_of_eq {a b : String × Json} (h : lenientInt a.1 = lenientInt b.1) :
    nameLe a b = true := by
  have hself := bucketLe_total (lenientInt b.1) (lenientInt b.1)
  rw [Bool.or_self] at hself
  unfold nameLe
  rw [h]
  exact hself

/-- The buckets in order, with their names. -/
def namedOrder (buckets : Fields Json) : List (String × Json) :=
  buckets.mergeSort nameLe

theorem orderedBuckets_eq (buckets : Fields Json) :
    orderedBuckets buckets = (namedOrder buckets).map fun b => (lenientInt b.1, b.2) := by
  unfold orderedBuckets namedOrder
  rw [List.map_mergeSort]
  intro a _ b _
  rfl

theorem perm_namedOrder (buckets : Fields Json) : (namedOrder buckets).Perm buckets :=
  List.mergeSort_perm _ _

/-- Buckets that are not told apart stand in the sorted list as they did before. -/
theorem lt_of_alike {buckets : Fields Json} (h : buckets.Ascending) {a b : String × Json}
    (hab : [a, b].Sublist (namedOrder buckets)) (heq : lenientInt a.1 = lenientInt b.1) :
    a.1 < b.1 := by
  have hfilter : (namedOrder buckets).filter (fun c => lenientInt c.1 = lenientInt b.1) =
      buckets.filter fun c => lenientInt c.1 = lenientInt b.1 := by
    refine filter_mergeSort nameLe_trans nameLe_total ?_ buckets
    intro c d hc hd
    exact nameLe_of_eq ((of_decide_eq_true hc).trans (of_decide_eq_true hd).symm)
  have hpair : [a, b].filter (fun c => lenientInt c.1 = lenientInt b.1) = [a, b] := by
    simp [heq]
  have hsub := hab.filter fun c => decide (lenientInt c.1 = lenientInt b.1)
  rw [hpair, hfilter] at hsub
  exact List.pairwise_iff_forall_sublist.1 h (hsub.trans List.filter_sublist)

theorem before_of_nameLe {a b : String × Json} (hle : nameLe a b = true)
    (halike : lenientInt a.1 = lenientInt b.1 → a.1 < b.1) : Before a.1 b.1 := by
  by_cases heq : lenientInt a.1 = lenientInt b.1
  · refine .inr ⟨fun n => ?_, halike heq⟩
    rw [← lenientInt_eq_some_iff, ← lenientInt_eq_some_iff, heq]
  · unfold nameLe at hle
    cases ha : lenientInt a.1 with
    | none =>
      -- What is no integer comes before nothing but its like.
      rw [ha] at hle heq
      cases hb : lenientInt b.1 with
      | none => exact absurd hb.symm heq
      | some n =>
        rw [hb] at hle
        cases hle
    | some m =>
      refine .inl ⟨m, lenientInt_eq_some_iff.1 ha, fun n hn => ?_⟩
      rw [ha, lenientInt_eq_some_iff.2 hn] at hle heq
      have hmn : m ≤ n := of_decide_eq_true hle
      have hne : m ≠ n := fun h => heq (congrArg some h)
      omega

theorem pairwise_namedOrder {buckets : Fields Json} (h : buckets.Ascending) :
    (namedOrder buckets).Pairwise fun a b => Before a.1 b.1 := by
  have hsorted : (namedOrder buckets).Pairwise fun a b => nameLe a b = true :=
    List.pairwise_mergeSort nameLe_trans nameLe_total buckets
  rw [List.pairwise_iff_forall_sublist] at hsorted ⊢
  intro a b hab
  exact before_of_nameLe (hsorted hab) (lt_of_alike h hab)

/-! ## The rows of one bucket -/

/-- The time of a bucket: the integer in front of its name, or null. -/
inductive TimeOf (name : String) : Json → Prop where
  | integer {n : Int} (fits : FitsInteger n) (h : LeadsWith name n) : TimeOf name (.int n fits)
  | none (h : ∀ n, ¬LeadsWith name n) : TimeOf name .null

/-- A row with a time added to its group, in place of any other value of that name. -/
structure Stamped (time : Json) (plain r : Row) : Prop where
  metrics : r.metrics = plain.metrics
  count : r.count = plain.count
  id_ascending : r.id.Ascending
  id : ∀ name, r.id.get? name = if name = "time_bucket" then some time else plain.id.get? name

/-- The rows of a bucket are those of its table view, with its time. -/
def BucketRows (cols dims : List String) (b : String × Json) (rs : List Row) : Prop :=
  ∃ time plain, TimeOf b.1 time ∧ tableRows cols dims b.2 = .ok plain ∧
    List.Forall₂ (Stamped time) plain rs

theorem timeOf_lenientInt (name : String) :
    TimeOf name ((lenientInt name).elim .null Json.ofInt) := by
  cases h : lenientInt name with
  | none => exact .none (lenientInt_eq_none_iff.1 h)
  | some n =>
    have hn := lenientInt_eq_some_iff.1 h
    have hpow : Int.pow 2 63 < Int.pow 2 64 := by decide
    have hfits : FitsInteger n := ⟨hn.2.1, Int.lt_trans hn.2.2 hpow⟩
    have heq : Json.ofInt n = .int n hfits := dif_pos hfits
    show TimeOf name (Json.ofInt n)
    rw [heq]
    exact .integer hfits hn

theorem stamped_insert (time : Json) (cols dims : List String) (raw : Fields Json) :
    Stamped time (tableRow cols dims raw)
      { tableRow cols dims raw with id := (tableRow cols dims raw).id.insert bucketName time } := by
  refine ⟨rfl, rfl, Fields.ascending_insert (Fields.ascending_ofList _) _ _, fun name => ?_⟩
  rw [Fields.get?_insert]
  simp only [bucketName, eq_comm]

/-- Null or an array of raw rows. -/
def Rows (v : Json) : Prop :=
  v = .null ∨ ∃ raws : List (Fields Json), v = .arr (raws.map .obj)

/-- How many rows a bucket has. -/
def rowCount : Json → Nat
  | .arr vs => vs.length
  | _ => 0

theorem bucketRows_of_rowObjects {cols dims : List String} {v : Json} {raws : List (Fields Json)}
    (h : rowObjects .time v = .ok raws) (time : Option Int) :
    bucketRows cols dims time v = .ok (raws.map fun raw =>
      { tableRow cols dims raw with
        id := (tableRow cols dims raw).id.insert bucketName (time.elim .null Json.ofInt) }) := by
  unfold bucketRows
  rw [h]
  rfl

/-- A bucket has its rows, or it is misshapen. -/
theorem bucketRows_cases (cols dims : List String) (b : String × Json) :
    (Rows b.2 ∧ ∃ rs, bucketRows cols dims (lenientInt b.1) b.2 = .ok rs ∧
      BucketRows cols dims b rs) ∨
    ¬Rows b.2 ∧ ∃ e, bucketRows cols dims (lenientInt b.1) b.2 = .error e ∧
      Misshapen .time b.2 e.message := by
  rcases rowObjects_cases .time b.2 with ⟨hnull, hok⟩ | ⟨raws, harr, hok⟩ | ⟨e, herror, hmis⟩
  · have htable : tableRows cols dims b.2 = .ok [] := by
      rw [hnull]
      exact (rowWise_tableRows cols dims).null
    exact .inl ⟨.inl hnull, [], bucketRows_of_rowObjects hok _, _, [], timeOf_lenientInt b.1, htable,
      .nil⟩
  · have htable : tableRows cols dims b.2 = .ok (raws.map (tableRow cols dims)) := by
      rw [harr]
      exact tableRows_arr cols dims raws
    refine .inl ⟨.inr ⟨raws, harr⟩, _, bucketRows_of_rowObjects hok _, _, _, timeOf_lenientInt b.1,
      htable, ?_⟩
    rw [List.forall₂_map_left_iff, List.forall₂_map_right_iff, List.forall₂_same]
    exact fun raw _ => stamped_insert _ cols dims raw
  · have hnot : ¬Rows b.2 := by
      rintro (hnull | ⟨raws, harr⟩)
      · exact hmis.not_rows.1 hnull
      · obtain ⟨v, hv, hobj⟩ := hmis.not_rows.2 _ harr
        obtain ⟨fields, -, rfl⟩ := List.mem_map.1 hv
        exact hobj fields rfl
    refine .inr ⟨hnot, e, ?_, hmis⟩
    unfold bucketRows
    rw [herror]
    rfl

theorem rows_of_bucketRows {cols dims : List String} {b : String × Json} {rs : List Row}
    (h : bucketRows cols dims (lenientInt b.1) b.2 = .ok rs) :
    Rows b.2 ∧ BucketRows cols dims b rs := by
  rcases bucketRows_cases cols dims b with ⟨hb, rs', hok, hrows⟩ | ⟨-, e, herror, -⟩
  · rw [hok] at h
    cases h
    exact ⟨hb, hrows⟩
  · rw [herror] at h
    cases h

theorem misshapen_of_bucketRows {cols dims : List String} {b : String × Json} {e : ShapeError}
    (h : bucketRows cols dims (lenientInt b.1) b.2 = .error e) :
    ¬Rows b.2 ∧ Misshapen .time b.2 e.message := by
  rcases bucketRows_cases cols dims b with ⟨-, rs, hok, -⟩ | ⟨hnot, e', herror, hmis⟩
  · rw [hok] at h
    cases h
  · rw [herror] at h
    cases h
    exact ⟨hnot, hmis⟩

/-- A bucket has as many rows as there are raw rows. -/
theorem BucketRows.length {cols dims : List String} {b : String × Json} {rs : List Row}
    (h : BucketRows cols dims b rs) : rs.length = rowCount b.2 := by
  obtain ⟨time, plain, -, htable, hall⟩ := h
  obtain ⟨raws, hraws, rfl⟩ := exists_of_map_ok htable
  rw [← hall.length_eq, List.length_map]
  rcases rowObjects_cases .table b.2 with ⟨hv, hok⟩ | ⟨raws', hv, hok⟩ | ⟨e, herror, -⟩
  · rw [hok] at hraws
    cases hraws
    rw [hv]
    rfl
  · rw [hok] at hraws
    cases hraws
    rw [hv]
    exact (List.length_map _).symm
  · rw [herror] at hraws
    cases hraws

/-- The rows of a bucket all have its time. -/
theorem BucketRows.time {cols dims : List String} {b : String × Json} {rs : List Row}
    (h : BucketRows cols dims b rs) :
    ∃ time, TimeOf b.1 time ∧ ∀ r ∈ rs, r.id.get? "time_bucket" = some time := by
  obtain ⟨time, plain, htime, -, hall⟩ := h
  refine ⟨time, htime, fun r hr => ?_⟩
  obtain ⟨p, -, hp⟩ := exists_left_of_mem hall hr
  rw [hp.id, if_pos rfl]

/-! ## Times -/

/-- Integers do not descend, and there are none after null. -/
inductive TimeLe : Option Json → Option Json → Prop where
  | integer {m n : Int} {hm : FitsInteger m} {hn : FitsInteger n} (h : m ≤ n) :
      TimeLe (some (.int m hm)) (some (.int n hn))
  | null (t : Option Json) : TimeLe t (some .null)

theorem timeLe_of_names {a b : String} {t u : Json} (ht : TimeOf a t) (hu : TimeOf b u)
    (hle : ∀ m n, LeadsWith a m → LeadsWith b n → m ≤ n)
    (hlast : (∀ m, ¬LeadsWith a m) → ∀ n, ¬LeadsWith b n) : TimeLe (some t) (some u) := by
  cases hu with
  | none hb => exact .null _
  | integer fits hn =>
    cases ht with
    | none ha => exact absurd hn (hlast ha _)
    | integer fits' hm => exact .integer (hle _ _ hm hn)

theorem Before.timeLe {a b : String} {t u : Json} (h : Before a b) (ht : TimeOf a t)
    (hu : TimeOf b u) : TimeLe (some t) (some u) := by
  rcases h with ⟨m, hm, hlt⟩ | ⟨hsame, -⟩
  · refine timeLe_of_names ht hu (fun m' n hm' hn => ?_) fun hnone => absurd hm (hnone m)
    rw [hm'.unique hm]
    exact Int.le_of_lt (hlt n hn)
  · refine timeLe_of_names ht hu (fun m n hm hn => ?_) fun hnone n hn => hnone n ((hsame n).2 hn)
    exact Int.le_of_eq (((hsame m).1 hm).unique hn)

theorem timeLe_self {name : String} {t : Json} (h : TimeOf name t) : TimeLe (some t) (some t) :=
  timeLe_of_names h h (fun _ _ hm hn => Int.le_of_eq (hm.unique hn)) id

/-- An order on one list is one on the other if the elements side by side agree on it. -/
theorem pairwise_right {α β : Type} {R : α → β → Prop} {S : α → α → Prop} {T : β → β → Prop}
    {as : List α} {bs : List β} (hS : as.Pairwise S) (h : List.Forall₂ R as bs)
    (hT : ∀ a a' b b', R a b → R a' b' → S a a' → T b b') : bs.Pairwise T := by
  induction h with
  | nil => exact List.Pairwise.nil
  | cons hab hrest ih =>
    obtain ⟨hfirst, hS⟩ := List.pairwise_cons.1 hS
    refine List.pairwise_cons.2 ⟨fun b' hb' => ?_, ih hS⟩
    obtain ⟨a', ha', hR⟩ := exists_left_of_mem hrest hb'
    exact hT _ _ _ _ hab hR (hfirst a' ha')

/-- Within a bucket and from one bucket to the next, times are in order. -/
theorem pairwise_timeLe {cols dims : List String} {order : List (String × Json)}
    {parts : List (List Row)} (h : order.Pairwise fun a b => Before a.1 b.1)
    (hall : List.Forall₂ (BucketRows cols dims) order parts) :
    parts.flatten.Pairwise fun r r' =>
      TimeLe (r.id.get? "time_bucket") (r'.id.get? "time_bucket") := by
  rw [List.pairwise_flatten]
  constructor
  · intro part hpart
    obtain ⟨b, -, hb⟩ := exists_left_of_mem hall hpart
    obtain ⟨time, htime, hrows⟩ := hb.time
    refine List.pairwise_of_forall_mem_list fun r hr r' hr' => ?_
    rw [hrows r hr, hrows r' hr']
    exact timeLe_self htime
  · refine pairwise_right h hall fun a b part part' ha hb hbefore r hr r' hr' => ?_
    obtain ⟨time, htime, hrows⟩ := ha.time
    obtain ⟨time', htime', hrows'⟩ := hb.time
    rw [hrows r hr, hrows' r' hr']
    exact hbefore.timeLe htime htime'

/-! ## All buckets -/

/-- The rows of all buckets. -/
structure TimeRows (cols dims : List String) (buckets : Fields Json) (rs : List Row) : Prop where
  ordered : ∃ (order : List (String × Json)) (parts : List (List Row)),
    order.Perm buckets ∧ (order.Pairwise fun a b => Before a.1 b.1) ∧
    List.Forall₂ (BucketRows cols dims) order parts ∧ rs = parts.flatten
  whole : ∀ b ∈ buckets, ∃ part, BucketRows cols dims b part ∧ part <:+: rs
  length : rs.length = (buckets.map fun b => rowCount b.2).sum
  times : rs.Pairwise fun r r' => TimeLe (r.id.get? "time_bucket") (r'.id.get? "time_bucket")

theorem timeRows_of_order {cols dims : List String} {buckets : Fields Json}
    {order : List (String × Json)} {parts : List (List Row)} (hperm : order.Perm buckets)
    (hbefore : order.Pairwise fun a b => Before a.1 b.1)
    (hall : List.Forall₂ (BucketRows cols dims) order parts) :
    TimeRows cols dims buckets parts.flatten where
  ordered := ⟨order, parts, hperm, hbefore, hall, rfl⟩
  whole b hb := by
    obtain ⟨part, hpart, hrows⟩ := exists_right_of_mem hall (hperm.mem_iff.2 hb)
    exact ⟨part, hrows, List.infix_of_mem_flatten hpart⟩
  length := by
    have hcounts : List.Forall₂ (· = ·) (parts.map List.length)
        (order.map fun b => rowCount b.2) := by
      rw [List.forall₂_map_left_iff, List.forall₂_map_right_iff]
      exact (hall.imp fun _ _ h => h.length).flip
    rw [List.forall₂_eq_eq_eq] at hcounts
    rw [List.length_flatten, hcounts]
    exact (hperm.map _).sum_nat
  times := pairwise_timeLe hbefore hall

/-- The buckets are read in order, each with its name at hand. -/
theorem timeRows_obj (cols dims : List String) (buckets : Fields Json) :
    timeRows cols dims (.obj buckets) = ((namedOrder buckets).mapM fun b =>
      bucketRows cols dims (lenientInt b.1) b.2).map List.flatten := by
  show ((orderedBuckets buckets).mapM fun b => bucketRows cols dims b.1 b.2).map _ = _
  rw [orderedBuckets_eq, List.mapM_map, Function.comp_def]

/-- The buckets have their rows, or one of them is misshapen. -/
theorem timeRows_cases {buckets : Fields Json} (h : buckets.Ascending) (cols dims : List String) :
    ((∀ b ∈ buckets, Rows b.2) ∧ ∃ rs, timeRows cols dims (.obj buckets) = .ok rs ∧
      TimeRows cols dims buckets rs) ∨
    ∃ b ∈ buckets, ¬Rows b.2 ∧ ∃ e, timeRows cols dims (.obj buckets) = .error e ∧
      Misshapen .time b.2 e.message := by
  have hperm := perm_namedOrder buckets
  rw [timeRows_obj]
  rcases mapM_cases (fun b => bucketRows cols dims (lenientInt b.1) b.2) (namedOrder buckets) with
    ⟨parts, hparts, hall⟩ | ⟨e, herror, b, hb, hbucket⟩
  · rw [hparts]
    have hrows : List.Forall₂ (BucketRows cols dims) (namedOrder buckets) parts :=
      hall.imp fun b part hpart => (rows_of_bucketRows hpart).2
    refine .inl ⟨fun b hb => ?_, _, rfl, timeRows_of_order hperm (pairwise_namedOrder h) hrows⟩
    obtain ⟨part, -, hpart⟩ := exists_right_of_mem hall (hperm.mem_iff.2 hb)
    exact (rows_of_bucketRows hpart).1
  · rw [herror]
    obtain ⟨hnot, hmis⟩ := misshapen_of_bucketRows hbucket
    exact .inr ⟨b, hperm.mem_iff.1 hb, hnot, e, rfl, hmis⟩

/--
**Rows in order of time.** The time view of an object has rows exactly if all of its buckets are null
or arrays of objects; if not, the error tells of one that is not. The rows are those of the buckets'
table views, bucket after bucket in order of the integers in front of their names, so no bucket loses
rows to another, also if their names read as the same integer.
-/
theorem time_rows_in_order {buckets : Fields Json} (h : buckets.Ascending)
    (cols dims : List String) :
    ((∃ rs, timeRows cols dims (.obj buckets) = .ok rs) ↔ ∀ b ∈ buckets, Rows b.2) ∧
    (∀ e, timeRows cols dims (.obj buckets) = .error e → ∃ b ∈ buckets, ∃ text,
      e.toError = .protocol text ∧ Misshapen .time b.2 text) ∧
    ∀ rs, timeRows cols dims (.obj buckets) = .ok rs → TimeRows cols dims buckets rs := by
  rcases timeRows_cases h cols dims with ⟨hall, rs, hok, hrows⟩ | ⟨b, hb, hnot, e, herror, hmis⟩
  · rw [hok]
    refine ⟨⟨fun _ => hall, fun _ => ⟨rs, rfl⟩⟩, nofun, ?_⟩
    rintro rs' ⟨⟩
    exact hrows
  · rw [herror]
    refine ⟨⟨nofun, fun hall => absurd (hall b hb) hnot⟩, ?_, nofun⟩
    rintro e' ⟨⟩
    exact ⟨b, hb, e.message, rfl, hmis⟩

/--
Two names that spell the same time keep their order, a `null` bucket has no rows, and the one without
a time comes last.
-/
theorem time_rows_in_order_alike_names :
    let raw (host : String) : Json := .obj [("host", .str host)]
    let buckets : Fields Json := [("060", .arr [raw "a", raw "b"]), ("60s", .arr [raw "c"]),
      ("7", .arr [raw "d"]), ("8", .null), ("old", .arr [raw "e"])]
    let row (host : String) (time : Json) : Row :=
      ⟨[("host", .str host), ("time_bucket", time)], [], .null⟩
    let sixty : Json := .int 60 (by decide)
    let rs := [row "d" (.int 7 (by decide)), row "a" sixty, row "b" sixty, row "c" sixty,
      row "e" .null]
    buckets.Ascending ∧ timeRows [] ["host"] (.obj buckets) = .ok rs ∧
      TimeRows [] ["host"] buckets rs := by
  intro raw buckets row sixty rs
  have hbuckets : buckets.Ascending := by decide +kernel
  have hread : buckets.map (fun b => (lenientInt b.1, b.2)) =
      [(some 60, .arr [raw "a", raw "b"]), (some 60, .arr [raw "c"]), (some 7, .arr [raw "d"]),
        (some 8, .null), (none, .arr [raw "e"])] := by
    decide +kernel
  have horder : orderedBuckets buckets =
      [(some 7, .arr [raw "d"]), (some 8, .null), (some 60, .arr [raw "a", raw "b"]),
        (some 60, .arr [raw "c"]), (none, .arr [raw "e"])] := by
    rw [orderedBuckets, hread]
    simp [List.mergeSort, bucketLe]
  have hrs : timeRows [] ["host"] (.obj buckets) = .ok rs := by
    show ((orderedBuckets buckets).mapM fun b => bucketRows [] ["host"] b.1 b.2).map _ = _
    rw [horder]
    decide +kernel
  exact ⟨hbuckets, hrs, (time_rows_in_order hbuckets [] ["host"]).2.2 rs hrs⟩

end StoreGateway.Query
