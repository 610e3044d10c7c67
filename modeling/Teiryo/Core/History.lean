import Teiryo.Core.Storage
import Teiryo.Core.Wire
import Teiryo.Framework.Buckets

/-!
# History queries

The stored readings of one account over an interval and their reduction to a number of points for
each window, following the history half of `teiryo-core/src/storage.rs`.
-/

namespace Teiryo

/-- Most points of one window that a query returns. -/
def maxHistoryPoints : UInt32 := 2000

def unitFromStr (s : String) : Except StorageError QuotaUnit :=
  match s with
  | "percent" => .ok .percent
  | "messages" => .ok .messages
  | "tokens" => .ok .tokens
  | "hours" => .ok .hours
  | other => .error (.corrupt ("unknown unit " ++ other.quote))

@[simp] theorem unitFromStr_unitToStr (u : QuotaUnit) : unitFromStr (unitToStr u) = .ok u := by
  cases u <;> rfl

/-- The bucket of an instant, when `since..since + span` is cut into `budget` equal ones. -/
def bucketOf (since : DateTime) (span : Int) (budget : Nat) (ts : DateTime) : Nat :=
  min ((Duration.numMilliseconds (ts - since)).toNat * budget / span.toNat) (budget - 1)

section Reduction

variable {F : Type} [F64 F]

/-- The points `reduceSeries` has picked, and the bucket it is reading with its peak so far. -/
structure Reduction (F : Type) where
  picks : List (QuotaSnapshot F) := []
  current : Option (Nat × QuotaSnapshot F) := none

def reduceStep (bucketOf : DateTime → Nat) (s : Reduction F) (row : QuotaSnapshot F) :
    Reduction F :=
  match s.current with
  | none => { s with current := some (bucketOf row.ts, row) }
  | some (bucket, peak) =>
    if bucket ≠ bucketOf row.ts then
      { picks := s.picks ++ [peak], current := some (bucketOf row.ts, row) }
    else if peak.used < row.used then { s with current := some (bucket, row) }
    else s

/-- Reduce one window's oldest-first series to at most `budget` points. The last bucket yields
its newest row instead of its peak. -/
def reduceSeries (rows : List (QuotaSnapshot F)) (since : DateTime) (span : Int) (budget : Nat) :
    List (QuotaSnapshot F) :=
  if rows.length ≤ budget then rows
  else
    let reduction := rows.foldl (reduceStep (bucketOf since span budget)) {}
    match reduction.current with
    | none => reduction.picks
    | some _ => reduction.picks ++ rows.getLast?.toList

omit [F64 F] in
/-- Put a snapshot into its window's series, or begin one. -/
def pushSnapshot : List (WindowId × List (QuotaSnapshot F)) → QuotaSnapshot F →
    List (WindowId × List (QuotaSnapshot F))
  | [], snapshot => [(snapshot.window, [snapshot])]
  | (id, rows) :: series, snapshot =>
    if id = snapshot.window then (id, rows ++ [snapshot]) :: series
    else (id, rows) :: pushSnapshot series snapshot

/-- Reduce each window's series to at most `budget` points. -/
def downsample (snapshots : List (QuotaSnapshot F)) (since «until» : DateTime) (budget : Nat) :
    List (QuotaSnapshot F) :=
  let span := Duration.numMilliseconds («until» - since)
  if span ≤ 0 then snapshots
  else
    let series := snapshots.foldl pushSnapshot []
    (series.flatMap fun s => reduceSeries s.2 since span budget).mergeSort
      fun a b => decide (a.ts ≤ b.ts)

end Reduction

namespace Storage

variable {F : Type}

/-- A snapshot with the event of its poll. -/
abbrev JoinedRow (F : Type) := PollEventRow × QuotaSnapshotRow F

/-- `quota_snapshot` joined with `poll_event`. -/
def snapshotJoin (st : Storage F) : List (JoinedRow F) :=
  st.pollEvent.flatMap fun e => (st.quotaSnapshot.filter (·.pollId == e.id)).map fun s => (e, s)

def snapshotOfRow (row : JoinedRow F) : Except StorageError (QuotaSnapshot F) := do
  let unit ← unitFromStr row.2.unit
  return {
    pollId := row.2.pollId, ts := millisToTs row.1.ts, window := row.2.windowId
    label := row.2.label, unit, used := row.2.used, limit := row.2.limitVal
    resetAt := row.2.resetAt.map millisToTs }

/-- The rows of one account (optionally one window) within `since..=until`, oldest first. -/
def selectHistory (st : Storage F) (account : AccountId) (window : Option WindowId)
    (since «until» : DateTime) : List (JoinedRow F) :=
  (st.snapshotJoin.filter fun row =>
      row.1.accountId == account && decide (tsToMillis since ≤ row.1.ts) &&
        decide (row.1.ts ≤ tsToMillis «until») &&
        window.all (· == row.2.windowId)).mergeSort fun a b => decide (a.1.ts ≤ b.1.ts)

/-- The points a query may return for each window. -/
def historyBudget (maxPoints : Option UInt32) : Nat :=
  max 1 (min (maxPoints.getD maxHistoryPoints).toNat maxHistoryPoints.toNat)

/-- Snapshots of one account within `since..=until`, oldest first, each window's series reduced
to at most `maxPoints`. Without `until` they reach up to `now`. -/
def history [F64 F] (st : Storage F) (account : AccountId) (window : Option WindowId)
    (since : DateTime) («until» : Option DateTime) (maxPoints : Option UInt32) (now : DateTime) :
    Except StorageError (List (QuotaSnapshot F)) := do
  let snapshots ← (st.selectHistory account window since («until».getD now)).mapM snapshotOfRow
  return downsample snapshots since («until».getD now) (historyBudget maxPoints)

/-- When the oldest stored snapshot of an account, optionally of one window, was taken. -/
def earliestSnapshot (st : Storage F) (account : AccountId) (window : Option WindowId) :
    Option DateTime :=
  ((st.snapshotJoin.filter fun row =>
      row.1.accountId == account && window.all (· == row.2.windowId)).map (·.1.ts)).min?.map
    millisToTs

end Storage

section Reduction

variable {F : Type} [F64 F] {since : DateTime} {span : Int} {budget : Nat}

theorem numMilliseconds_mono {c d : Duration} (h : c ≤ d) :
    Duration.numMilliseconds c ≤ Duration.numMilliseconds d :=
  Int.tdiv_le_tdiv (by decide) h

theorem bucketOf_mono {s t : DateTime} (h : s ≤ t) :
    bucketOf since span budget s ≤ bucketOf since span budget t := by
  have hoffset : Duration.numMilliseconds (s - since) ≤ Duration.numMilliseconds (t - since) :=
    numMilliseconds_mono (Int.sub_le_sub_right h since)
  have hquot := Nat.div_le_div_right (c := span.toNat)
    (Nat.mul_le_mul_right budget (Int.toNat_le_toNat hoffset))
  unfold bucketOf
  omega

theorem bucketOf_lt (ts : DateTime) (h : 0 < budget) : bucketOf since span budget ts < budget := by
  unfold bucketOf
  omega

/-- Whether the second reading is the higher one. -/
def lowerThan (a b : QuotaSnapshot F) : Bool := decide (a.used < b.used)

/-- What a window's series is reduced to. -/
def keptSeries (since : DateTime) (span : Int) (budget : Nat) {α : Type} (ts : α → DateTime)
    (lower : α → α → Bool) (rows : List α) : List α :=
  if rows.length ≤ budget then rows
  else Buckets.kept (fun row => bucketOf since span budget (ts row)) lower budget rows

/-- The loop is in the bucket of the row it read last, and holds the peaks of the buckets before
it and of what it has read of this one. -/
theorem foldl_reduceStep (bucket : DateTime → Nat) {rows : List (QuotaSnapshot F)}
    {r : QuotaSnapshot F}
    (h : (rows ++ [r]).Pairwise fun a b => bucket a.ts ≤ bucket b.ts) :
    ∃ peak, (rows ++ [r]).foldl (reduceStep bucket) {} =
        { picks := Buckets.peaksBelow (fun row => bucket row.ts) lowerThan (bucket r.ts) rows
          current := some (bucket r.ts, peak) } ∧
      Buckets.firstPeak lowerThan
        (Buckets.inBucket (fun row => bucket row.ts) (rows ++ [r]) (bucket r.ts)) = some peak := by
  induction rows using List.reverseRecOn generalizing r with
  | nil =>
    refine ⟨r, ?_, ?_⟩
    · have hnone : Buckets.peaksBelow (fun row : QuotaSnapshot F => bucket row.ts) lowerThan
          (bucket r.ts) [] = [] := by
        apply List.filterMap_eq_nil_iff.mpr
        intro b _
        rfl
      rw [hnone]
      rfl
    · rw [Buckets.inBucket_concat, if_pos rfl]
      rfl
  | append_singleton rows q ih =>
    obtain ⟨hrows, -, hr⟩ := List.pairwise_append.mp h
    have hle : ∀ row ∈ rows ++ [q], bucket row.ts ≤ bucket r.ts :=
      fun row hrow => hr row hrow r (List.mem_singleton.mpr rfl)
    have hqr := hle q (by simp)
    have hlast : ∀ row ∈ rows ++ [q], bucket row.ts ≤ bucket q.ts := by
      intro row hrow
      rcases List.mem_append.mp hrow with hrow | hrow
      · exact (List.pairwise_append.mp hrows).2.2 row hrow q (List.mem_singleton.mpr rfl)
      · rw [List.mem_singleton.mp hrow]
    obtain ⟨peak, hfold, hpeak⟩ := ih hrows
    rw [List.foldl_append, hfold]
    by_cases hsame : bucket q.ts = bucket r.ts
    · -- the row goes on with the bucket and may raise its peak
      have hpicks : Buckets.peaksBelow (fun row => bucket row.ts) lowerThan (bucket r.ts)
          (rows ++ [q]) =
          Buckets.peaksBelow (fun row => bucket row.ts) lowerThan (bucket q.ts) rows := by
        rw [← hsame, Buckets.peaksBelow_concat (Nat.le_refl _)]
      rw [hpicks, Buckets.inBucket_concat, if_pos rfl, Buckets.firstPeak_concat, ← hsame, hpeak]
      by_cases hlt : peak.used < r.used
      · refine ⟨r, ?_, ?_⟩
        · simp [reduceStep, hsame, hlt]
        · simp [lowerThan, hlt]
      · refine ⟨peak, ?_, ?_⟩
        · simp [reduceStep, hsame, hlt]
        · simp [lowerThan, hlt]
    · -- the row begins a later bucket
      have hlt : bucket q.ts < bucket r.ts := by omega
      have hcut : Buckets.peaksBelow (fun row => bucket row.ts) lowerThan (bucket q.ts)
          (rows ++ [q]) =
          Buckets.peaksBelow (fun row => bucket row.ts) lowerThan (bucket q.ts) rows :=
        Buckets.peaksBelow_concat (Nat.le_refl _)
      have hpicks := Buckets.peaksBelow_of_last hlt hlast hpeak
      rw [hcut] at hpicks
      have hempty : Buckets.inBucket (fun row : QuotaSnapshot F => bucket row.ts) (rows ++ [q])
          (bucket r.ts) = [] := by
        apply Buckets.inBucket_eq_nil
        intro row hrow
        have := hlast row hrow
        omega
      refine ⟨r, ?_, ?_⟩
      · rw [hpicks]
        simp [reduceStep, hsame]
      · rw [Buckets.inBucket_concat, if_pos rfl, hempty]
        rfl

theorem reduceSeries_eq {rows : List (QuotaSnapshot F)}
    (hsorted : rows.Pairwise fun a b => a.ts ≤ b.ts) (hbudget : 0 < budget) :
    reduceSeries rows since span budget = keptSeries since span budget (·.ts) lowerThan rows := by
  unfold reduceSeries keptSeries
  split
  · rfl
  · rename_i hlong
    have hbuckets : rows.Pairwise fun a b =>
        bucketOf since span budget a.ts ≤ bucketOf since span budget b.ts :=
      hsorted.imp fun hab => bucketOf_mono hab
    rcases List.eq_nil_or_concat' rows with rfl | ⟨init, r, rfl⟩
    · exact absurd (Nat.zero_le budget) hlong
    · obtain ⟨peak, hfold, -⟩ := foldl_reduceStep (bucketOf since span budget) hbuckets
      have hle : ∀ row ∈ init,
          bucketOf since span budget row.ts ≤ bucketOf since span budget r.ts := by
        intro row hrow
        exact (List.pairwise_append.mp hbuckets).2.2 row hrow r (List.mem_singleton.mpr rfl)
      rw [Buckets.kept_concat hle (bucketOf_lt r.ts hbudget), hfold, List.getLast?_concat]
      rfl

omit [F64 F] in
private theorem pushSnapshot_map {ids : List WindowId} (hnd : ids.Nodup)
    (rows : WindowId → List (QuotaSnapshot F)) (s : QuotaSnapshot F) :
    pushSnapshot (ids.map fun id => (id, rows id)) s =
      if s.window ∈ ids then
        ids.map fun id => (id, if id = s.window then rows id ++ [s] else rows id)
      else (ids.map fun id => (id, rows id)) ++ [(s.window, [s])] := by
  induction ids with
  | nil => rfl
  | cons id ids ih =>
    obtain ⟨hid, hnd⟩ := List.nodup_cons.mp hnd
    rw [List.map_cons, pushSnapshot]
    by_cases heq : id = s.window
    · have hothers : ∀ id' ∈ ids, id' ≠ s.window := by
        intro id' hid' heq'
        exact hid (heq ▸ heq' ▸ hid')
      have hrest : (ids.map fun id => (id, if id = s.window then rows id ++ [s] else rows id)) =
          ids.map fun id => (id, rows id) := by
        apply List.map_congr_left
        intro id' hid'
        rw [if_neg (hothers id' hid')]
      rw [if_pos heq, if_pos (heq ▸ List.mem_cons_self), List.map_cons, if_pos heq, hrest]
    · have hmem : s.window ∈ id :: ids ↔ s.window ∈ ids := by
        simp [Ne.symm heq]
      rw [if_neg heq, ih hnd]
      by_cases hs : s.window ∈ ids
      · rw [if_pos hs, if_pos (hmem.mpr hs), List.map_cons, if_neg heq]
      · rw [if_neg hs, if_neg (mt hmem.mp hs), List.cons_append]

omit [F64 F] in
/-- Grouping cuts a list into the series of its windows. -/
theorem foldl_pushSnapshot (snapshots : List (QuotaSnapshot F)) :
    ∃ ids : List WindowId, ids.Nodup ∧ (∀ id, id ∈ ids ↔ id ∈ snapshots.map (·.window)) ∧
      snapshots.foldl pushSnapshot [] =
        ids.map fun id => (id, snapshots.filter fun s => s.window == id) := by
  induction snapshots using List.reverseRecOn with
  | nil => exact ⟨[], List.nodup_nil, by simp, rfl⟩
  | append_singleton snapshots s ih =>
    obtain ⟨ids, hnd, hmem, hfold⟩ := ih
    rw [List.foldl_append, hfold, List.foldl_cons, List.foldl_nil, pushSnapshot_map hnd]
    have hrows : ∀ id, (snapshots ++ [s]).filter (fun s => s.window == id) =
        if id = s.window then snapshots.filter (fun s => s.window == id) ++ [s]
        else snapshots.filter fun s => s.window == id := by
      intro id
      rw [List.filter_append, List.filter_singleton]
      by_cases heq : id = s.window
      · simp [heq]
      · have hne : (s.window == id) = false := beq_eq_false_iff_ne.mpr (Ne.symm heq)
        simp [heq, hne]
    by_cases hs : s.window ∈ ids
    · refine ⟨ids, hnd, ?_, ?_⟩
      · intro id
        have hwin := (hmem s.window).mp hs
        rw [hmem, List.map_append, List.mem_append, List.map_singleton, List.mem_singleton]
        constructor
        · exact .inl
        · rintro (h | rfl)
          · exact h
          · exact hwin
      · rw [if_pos hs]
        simp only [hrows]
    · refine ⟨ids ++ [s.window], ?_, ?_, ?_⟩
      · rw [List.nodup_append]
        refine ⟨hnd, List.nodup_singleton _, ?_⟩
        rintro id hid _ hw rfl
        exact hs (List.mem_singleton.mp hw ▸ hid)
      · intro id
        rw [List.mem_append, hmem, List.map_append, List.mem_append, List.map_singleton]
      · have hold : ∀ id ∈ ids, (snapshots ++ [s]).filter (fun s => s.window == id) =
            snapshots.filter fun s => s.window == id := by
          intro id hid
          have hne : id ≠ s.window := fun heq => hs (heq ▸ hid)
          rw [hrows, if_neg hne]
        have hnew : snapshots.filter (fun s' => s'.window == s.window) = [] := by
          apply List.filter_eq_nil_iff.mpr
          intro s' hs' heq
          have heq' : s'.window = s.window := eq_of_beq heq
          exact hs ((hmem _).mpr (List.mem_map.mpr ⟨s', hs', heq'⟩))
        rw [if_neg hs, List.map_append, List.map_singleton, hrows, if_pos rfl, hnew]
        congr 1
        apply List.map_congr_left
        intro id hid
        rw [hold id hid]

/-- What of a list of rows a reduction keeps: every row when the interval is no millisecond
long, and else what each window's series is reduced to. -/
def keptRows (since «until» : DateTime) (budget : Nat) {α : Type} (ts : α → DateTime)
    (lower : α → α → Bool) (window : α → WindowId) (rows : List α) : List α :=
  if Duration.numMilliseconds («until» - since) ≤ 0 then rows
  else Buckets.bySeries window
    (keptSeries since (Duration.numMilliseconds («until» - since)) budget ts lower) rows

theorem downsample_perm {snapshots : List (QuotaSnapshot F)} {«until» : DateTime}
    (hsorted : snapshots.Pairwise fun a b => a.ts ≤ b.ts) (hbudget : 0 < budget) :
    (downsample snapshots since «until» budget).Perm
      (keptRows since «until» budget (·.ts) lowerThan (·.window) snapshots) := by
  unfold downsample keptRows
  simp only
  split
  · exact List.Perm.refl _
  · obtain ⟨ids, hnd, hmem, hfold⟩ := foldl_pushSnapshot snapshots
    have hseries : ∀ id ∈ ids, reduceSeries (snapshots.filter fun s => s.window == id) since
        (Duration.numMilliseconds («until» - since)) budget =
        keptSeries since (Duration.numMilliseconds («until» - since)) budget (·.ts) lowerThan
          (snapshots.filter fun s => s.window == id) := by
      intro id _
      exact reduceSeries_eq (hsorted.sublist List.filter_sublist) hbudget
    apply (List.mergeSort_perm _ _).trans
    rw [hfold, List.flatMap_map, List.flatMap_congr hseries]
    exact Buckets.bySeries_perm _ hnd hmem

omit [F64 F] in
theorem keptSeries_map {α β : Type} {ts : β → DateTime} {lower : β → β → Bool} (f : α → β)
    (rows : List α) :
    keptSeries since span budget ts lower (rows.map f) =
      (keptSeries since span budget (fun a => ts (f a)) (fun a b => lower (f a) (f b))
        rows).map f := by
  unfold keptSeries
  rw [List.length_map]
  split
  · rfl
  · exact Buckets.kept_map f rows budget

omit [F64 F] in
theorem keptRows_map {α β : Type} {«until» : DateTime} {ts : β → DateTime}
    {lower : β → β → Bool} {window : β → WindowId} (f : α → β) (rows : List α) :
    keptRows since «until» budget ts lower window (rows.map f) =
      (keptRows since «until» budget (fun a => ts (f a)) (fun a b => lower (f a) (f b))
        (fun a => window (f a)) rows).map f := by
  unfold keptRows
  split
  · rfl
  · exact Buckets.bySeries_map f (keptSeries_map f) rows

omit [F64 F] in
/-- A list whose windows are all within the budget is kept whole. -/
theorem keptRows_perm_self {α : Type} {«until» : DateTime} {ts : α → DateTime}
    {lower : α → α → Bool} {window : α → WindowId} {rows : List α}
    (h : ∀ id, (rows.filter fun row => window row == id).length ≤ budget) :
    (keptRows since «until» budget ts lower window rows).Perm rows := by
  unfold keptRows
  split
  · exact List.Perm.refl _
  · apply Buckets.bySeries_perm_self
    intro id
    exact if_pos (h id)

end Reduction

namespace Storage

variable {F : Type} [F64 F]

/-- Every stored unit is one `unitToStr` writes. -/
def UnitsValid (st : Storage F) : Prop :=
  ∀ row ∈ st.quotaSnapshot, ∃ unit, row.unit = unitToStr unit

/-- A joined row as the snapshot it decodes to. -/
def decodedRow (row : JoinedRow F) : QuotaSnapshot F where
  pollId := row.2.pollId
  ts := millisToTs row.1.ts
  window := row.2.windowId
  label := row.2.label
  unit := ((unitFromStr row.2.unit).toOption).getD .percent
  used := row.2.used
  limit := row.2.limitVal
  resetAt := row.2.resetAt.map millisToTs

/-- The stored readings a request is about that its reply keeps. -/
def keptReadings (st : Storage F) (account : AccountId) (window : Option WindowId)
    (since «until» : DateTime) (budget : Nat) : List (JoinedRow F) :=
  keptRows since «until» budget (fun row => millisToTs row.1.ts)
    (fun a b => decide (a.2.used < b.2.used)) (·.2.windowId)
    (st.selectHistory account window since «until»)

omit [F64 F] in
theorem mem_snapshotJoin {st : Storage F} {row : JoinedRow F} :
    row ∈ st.snapshotJoin ↔
      row.1 ∈ st.pollEvent ∧ row.2 ∈ st.quotaSnapshot ∧ row.2.pollId = row.1.id := by
  obtain ⟨e, s⟩ := row
  simp [snapshotJoin, and_assoc]

omit [F64 F] in
theorem snapshotOfRow_eq {st : Storage F} (h : st.UnitsValid) {row : JoinedRow F}
    (hrow : row ∈ st.snapshotJoin) : snapshotOfRow row = .ok (decodedRow row) := by
  obtain ⟨unit, hunit⟩ := h row.2 (mem_snapshotJoin.mp hrow).2.1
  simp only [snapshotOfRow, decodedRow, hunit, unitFromStr_unitToStr]
  rfl

omit [F64 F] in
theorem selectHistory_sorted (st : Storage F) (account : AccountId) (window : Option WindowId)
    (since «until» : DateTime) :
    (st.selectHistory account window since «until»).Pairwise fun a b => a.1.ts ≤ b.1.ts := by
  unfold selectHistory
  refine (List.pairwise_mergeSort ?_ ?_ _).imp of_decide_eq_true
  · intro a b c hab hbc
    exact decide_eq_true ((of_decide_eq_true hab).trans (of_decide_eq_true hbc))
  · intro a b
    rcases Int.le_total a.1.ts b.1.ts with h | h
    · simp [h]
    · simp [h]

/-- A query over valid rows returns the readings it keeps. -/
theorem history_perm {st : Storage F} (h : st.UnitsValid) (account : AccountId)
    (window : Option WindowId) (since : DateTime) («until» : Option DateTime)
    (maxPoints : Option UInt32) (now : DateTime) :
    ∃ snapshots, st.history account window since «until» maxPoints now = .ok snapshots ∧
      snapshots.Perm ((st.keptReadings account window since («until».getD now)
        (historyBudget maxPoints)).map decodedRow) := by
  let rows := st.selectHistory account window since («until».getD now)
  have hdecode : rows.mapM snapshotOfRow = .ok (rows.map decodedRow) := by
    apply mapM_eq_ok_map
    intro row hrow
    have hmem := (List.mergeSort_perm _ _).mem_iff.mp hrow
    exact snapshotOfRow_eq h (List.mem_filter.mp hmem).1
  have hsorted : (rows.map decodedRow).Pairwise fun a b => a.ts ≤ b.ts := by
    rw [List.pairwise_map]
    refine (selectHistory_sorted st account window since («until».getD now)).imp ?_
    intro a b hab
    change millisToTs a.1.ts ≤ millisToTs b.1.ts
    unfold millisToTs DateTime
    omega
  have hbudget : 0 < historyBudget maxPoints := by
    unfold historyBudget
    omega
  refine ⟨downsample (rows.map decodedRow) since («until».getD now) (historyBudget maxPoints),
    ?_, ?_⟩
  · exact bind_eq_ok.mpr ⟨_, hdecode, rfl⟩
  · apply (downsample_perm hsorted hbudget).trans
    rw [keptRows_map]
    exact List.Perm.refl _

end Storage
end Teiryo
