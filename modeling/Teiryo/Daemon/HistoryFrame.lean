import Teiryo.Core.History
import Teiryo.Core.StorageSpec
import Teiryo.Core.WireFormat
import Teiryo.Framework.Run

/-!
# History replies

What the daemon answers to a history request, following `handle_request` in
`teiryod/src/server.rs`, how many bytes that answer takes, and when the frame holds it. The cap
on the points of one window bounds neither the windows, nor the texts, nor the rollovers, so these
decide.
-/

namespace Teiryo

variable {F : Type} [F64 F]

def StorageError.display : StorageError → String
  | .sqlite message => "sqlite: " ++ message
  | .json message => "stored json: " ++ message
  | .corrupt message => "corrupt row: " ++ message

/-- `Request::History`. Without `until` the two queries each read the clock. -/
def handleHistory (st : Storage F) (account : AccountId) (window : Option WindowId)
    (since : DateTime) («until» : Option DateTime) (maxPoints : Option UInt32)
    (now now' : DateTime) : Response F ℚ :=
  let page : Except StorageError (HistoryPage F) := do
    let snapshots ← st.history account window since «until» maxPoints now
    let rollovers ← st.rollovers account window since («until».getD now')
    return { snapshots, earliest := st.earliestSnapshot account window, rollovers }
  match page with
  | .ok page => .history page
  | .error e => .err .storage e.display

/-- What is ever written to the database. -/
inductive StorageWrite (F : Type) where
  | upsertAccount (account : Account)
  | recordPoll (faults : Storage.Faults) (event : PollEvent F) (windows : List (QuotaWindow F))
      (rollovers : List (WindowRollover F))

namespace Storage

def apply (json : SerdeJson F) (st : Storage F) : StorageWrite F → Storage F
  | .upsertAccount account => st.upsertAccount account
  | .recordPoll faults event windows rollovers =>
    (st.recordPoll json faults event windows rollovers).2

/-- The stored rollovers a request is about. -/
def selectRollovers (st : Storage F) (account : AccountId) (window : Option WindowId)
    (since «until» : DateTime) : List (WindowRolloverRow F) :=
  st.windowRollover.filter fun row =>
    row.accountId == account && decide (tsToMillis since ≤ row.observedAt) &&
      decide (row.observedAt ≤ tsToMillis «until») && window.all (· == row.windowId)

/-- The bytes a stored reading takes in a reply. -/
def readingSize (row : JoinedRow F) : Nat :=
  36 + tsSize (millisToTs row.1.ts) + Bincode.textSize row.2.windowId.val +
    Bincode.textSize row.2.label + Bincode.optionSize (fun _ => 8) row.2.limitVal +
    Bincode.optionSize (fun ms => tsSize (millisToTs ms)) row.2.resetAt

/-- The bytes a stored rollover takes in a reply. -/
def rolloverRowSize (row : WindowRolloverRow F) : Nat :=
  44 + Bincode.textSize row.accountId.val + Bincode.textSize row.windowId.val +
    tsSize (millisToTs row.observedAt) +
    Bincode.optionSize (fun ms => tsSize (millisToTs ms)) row.prevResetAt +
    Bincode.optionSize (fun ms => tsSize (millisToTs ms)) row.newResetAt +
    Bincode.optionSize (fun ms => tsSize (millisToTs ms)) row.prevObservedAt

/-- The stored readings of one account, optionally of one window. -/
def readingsOf (st : Storage F) (account : AccountId) (window : Option WindowId) :
    List (JoinedRow F) :=
  st.snapshotJoin.filter fun row =>
    row.1.accountId == account && window.all (· == row.2.windowId)

/-- Those of an interval. -/
def readingsWithin (st : Storage F) (account : AccountId) (window : Option WindowId)
    (since «until» : DateTime) : List (JoinedRow F) :=
  (st.readingsOf account window).filter fun row =>
    decide (tsToMillis since ≤ row.1.ts) && decide (row.1.ts ≤ tsToMillis «until»)

/-- Whether a window has more readings than a reply may have points, in an interval that has
parts. -/
def Crowded (since «until» : DateTime) (budget : Nat) (rows : List (JoinedRow F)) : Prop :=
  0 < Duration.numMilliseconds («until» - since) ∧ budget < rows.length

instance (since «until» : DateTime) (budget : Nat) (rows : List (JoinedRow F)) :
    Decidable (Crowded since «until» budget rows) := by
  unfold Crowded
  infer_instance

/-- The readings of one of the equal parts of an interval. -/
def inPart (since «until» : DateTime) (budget : Nat) (rows : List (JoinedRow F)) (part : Nat) :
    List (JoinedRow F) :=
  Buckets.inBucket (fun row =>
    bucketOf since (Duration.numMilliseconds («until» - since)) budget (millisToTs row.1.ts)) rows
    part

/-- How many points a window has: its readings, or the parts that have any. -/
def points (since «until» : DateTime) (budget : Nat) (rows : List (JoinedRow F)) : Nat :=
  if Crowded since «until» budget rows then
    (List.range budget).countP fun part => !(inPart since «until» budget rows part).isEmpty
  else rows.length

/-- The bytes of a window's readings, or of one for each part. -/
def pointsSize (since «until» : DateTime) (budget : Nat) (ofPart : List Nat → Nat)
    (rows : List (JoinedRow F)) : Nat :=
  if Crowded since «until» budget rows then
    ((List.range budget).map fun part =>
      ofPart ((inPart since «until» budget rows part).map readingSize)).sum
  else (rows.map readingSize).sum

def longest (sizes : List Nat) : Nat := sizes.max?.getD 0

def shortest (sizes : List Nat) : Nat := sizes.min?.getD 0

/-- The bytes of a reply that has, of each part of an interval in which a window is crowded, a
reading of the size that is given. -/
def sizeOfReply (st : Storage F) (ofPart : List Nat → Nat) (account : AccountId)
    (window : Option WindowId) (since : DateTime) («until» : Option DateTime)
    (maxPoints : Option UInt32) (now now' : DateTime) : Nat :=
  let rows := st.readingsWithin account window since («until».getD now)
  let windows := (rows.map (·.2.windowId)).dedup
  let series := windows.map fun id => rows.filter (·.2.windowId == id)
  let budget := historyBudget maxPoints
  1 + Bincode.varintSize ((series.map (points since («until».getD now) budget)).sum) +
    (series.map (pointsSize since («until».getD now) budget ofPart)).sum +
    Bincode.optionSize (fun ms => tsSize (millisToTs ms))
      ((st.readingsOf account window).map (·.1.ts)).min? +
    Bincode.seqSize rolloverRowSize (st.selectRollovers account window since («until».getD now'))

/-- Readings of a crowded window that share a part are equally long. -/
def EvenlyLong (st : Storage F) (account : AccountId) (window : Option WindowId)
    (since «until» : DateTime) (budget : Nat) : Prop :=
  let rows := st.readingsWithin account window since «until»
  ∀ id, Crowded since «until» budget (rows.filter (·.2.windowId == id)) →
    ∀ part, ∀ row ∈ inPart since «until» budget (rows.filter (·.2.windowId == id)) part,
      ∀ row' ∈ inPart since «until» budget (rows.filter (·.2.windowId == id)) part,
        readingSize row = readingSize row'

/-! ## Every stored row decodes -/

/-- Units and kinds are ones the inserts write. -/
structure Valid (st : Storage F) : Prop where
  units : st.UnitsValid
  kinds : ∀ row ∈ st.windowRollover, ∃ kind : RolloverKind, row.kind = kind.asStr

omit [F64 F] in
private theorem valid_empty : (empty : Storage F).Valid where
  units _ hrow := nomatch hrow
  kinds _ hrow := nomatch hrow

omit [F64 F] in
theorem Valid.upsertAccount {st : Storage F} (h : st.Valid) (account : Account) :
    (st.upsertAccount account).Valid := by
  unfold Storage.upsertAccount
  split
  · exact ⟨h.units, h.kinds⟩
  · exact ⟨h.units, h.kinds⟩

theorem Valid.recorded {json : SerdeJson F} {st st' : Storage F} {event : PollEvent F}
    {windows : List (QuotaWindow F)} {rollovers : List (WindowRollover F)} (h : st.Valid)
    (hrecorded : Recorded json st st' event windows rollovers) : st'.Valid := by
  constructor
  · intro row hrow
    rw [hrecorded.quotaSnapshot_eq] at hrow
    rcases List.mem_append.mp hrow with hrow | hrow
    · exact h.units row hrow
    · obtain ⟨w, -, rfl⟩ := List.mem_map.mp hrow
      exact ⟨w.unit, rfl⟩
  · intro row hrow
    rw [hrecorded.windowRollover_eq] at hrow
    rcases List.mem_append.mp hrow with hrow | hrow
    · exact h.kinds row hrow
    · obtain ⟨r, -, rfl⟩ := List.mem_map.mp hrow
      exact ⟨r.kind, rfl⟩

theorem Valid.apply {json : SerdeJson F} {st : Storage F} (h : st.Valid) (write : StorageWrite F) :
    (st.apply json write).Valid := by
  cases write with
  | upsertAccount account => exact h.upsertAccount account
  | recordPoll faults event windows rollovers =>
    change (st.recordPoll json faults event windows rollovers).2.Valid
    cases hwritten : (st.recordPoll json faults event windows rollovers).1 with
    | error e =>
      rw [recordPoll_error hwritten]
      exact h
    | ok => exact h.recorded (recordPoll_ok hwritten)

private theorem valid_run (json : SerdeJson F) (writes : List (StorageWrite F)) :
    (writes.foldl (Storage.apply json) empty).Valid :=
  foldl_invariant writes valid_empty fun _ write h => h.apply write

/-! ## What a reply holds -/

/-- A stored rollover as the one it decodes to. -/
def decodedRollover (account : AccountId) (row : WindowRolloverRow F) : WindowRollover F where
  account := account
  window := row.windowId
  poll := row.pollId
  observedAt := millisToTs row.observedAt
  kind := (RolloverKind.fromColumn row.kind).getD .scheduled
  prevResetAt := row.prevResetAt.map millisToTs
  newResetAt := row.newResetAt.map millisToTs
  prevUsed := row.prevUsed
  newUsed := row.newUsed
  prevObservedAt := row.prevObservedAt.map millisToTs

omit [F64 F] in
private theorem rollovers_perm {st : Storage F} (h : st.Valid) (account : AccountId)
    (window : Option WindowId) (since «until» : DateTime) :
    ∃ rollovers, st.rollovers account window since «until» = .ok rollovers ∧
      rollovers.Perm
        ((st.selectRollovers account window since «until»).map (decodedRollover account)) := by
  let rows := (st.selectRollovers account window since «until»).mergeSort
    fun a b => decide (a.observedAt ≤ b.observedAt)
  have hperm : rows.Perm (st.selectRollovers account window since «until») :=
    List.mergeSort_perm _ _
  have hdecode : rows.mapM (rolloverOfRow account) = .ok (rows.map (decodedRollover account)) := by
    apply mapM_eq_ok_map
    intro row hrow
    have hmem := (List.mem_filter.mp (hperm.mem_iff.mp hrow)).1
    obtain ⟨kind, hkind⟩ := h.kinds row hmem
    simp only [rolloverOfRow, decodedRollover, hkind, RolloverKind.fromColumn_asStr]
    rfl
  exact ⟨rows.map (decodedRollover account), hdecode, hperm.map _⟩

omit [F64 F] in
private theorem snapshotSize_decodedRow (row : JoinedRow F) :
    Wire.snapshotSize (decodedRow row) = readingSize row := by
  simp only [Wire.snapshotSize, decodedRow, readingSize, Bincode.optionSize, Option.map_map]
  rfl

omit [F64 F] in
private theorem rolloverSize_decodedRollover (row : WindowRolloverRow F) :
    Wire.rolloverSize (decodedRollover row.accountId row) = rolloverRowSize row := by
  simp only [Wire.rolloverSize, decodedRollover, rolloverRowSize, Bincode.optionSize,
    Option.map_map]
  rfl

omit [F64 F] in
private theorem seqSize_decoded {α β : Type} {size : β → Nat} {rowSize : α → Nat} {decoded : α → β}
    {bs : List β} {rows : List α} (hperm : bs.Perm (rows.map decoded))
    (hsize : ∀ row ∈ rows, size (decoded row) = rowSize row) :
    Bincode.seqSize size bs = Bincode.seqSize rowSize rows := by
  have hmap : rows.map (fun row => size (decoded row)) = rows.map rowSize :=
    List.map_congr_left hsize
  rw [Bincode.seqSize_perm hperm, Bincode.seqSize_map, Bincode.seqSize, Bincode.seqSize, hmap]

/-- The bytes of the readings a reply keeps, of the rollovers of its interval and of what stands
around them. -/
def replySize (st : Storage F) (account : AccountId) (window : Option WindowId)
    (since : DateTime) («until» : Option DateTime) (maxPoints : Option UInt32)
    (now now' : DateTime) : Nat :=
  1 + Bincode.seqSize readingSize (st.keptReadings account window since («until».getD now)
      (historyBudget maxPoints)) +
    Bincode.optionSize tsSize (st.earliestSnapshot account window) +
    Bincode.seqSize rolloverRowSize (st.selectRollovers account window since («until».getD now'))

private theorem handleHistory_eq {S : Type} {st : Storage F} (h : st.Valid) (f : Wire.Formats F S)
    (account : AccountId) (window : Option WindowId) (since : DateTime)
    («until» : Option DateTime) (maxPoints : Option UInt32) (now now' : DateTime) :
    ∃ page, handleHistory st account window since «until» maxPoints now now' = .history page ∧
      ((Wire.response f).encode (.history page)).length =
        st.replySize account window since «until» maxPoints now now' := by
  obtain ⟨snapshots, hsnapshots, hsnapshots_perm⟩ :=
    history_perm h.units account window since «until» maxPoints now
  obtain ⟨rollovers, hrollovers, hrollovers_perm⟩ :=
    rollovers_perm h account window since («until».getD now')
  refine ⟨{ snapshots, earliest := st.earliestSnapshot account window, rollovers }, ?_, ?_⟩
  · simp only [handleHistory, hsnapshots, hrollovers]
    rfl
  · have hreadings := seqSize_decoded hsnapshots_perm fun row _ => snapshotSize_decodedRow row
    have hsize : ∀ row ∈ st.selectRollovers account window since («until».getD now'),
        Wire.rolloverSize (decodedRollover account row) = rolloverRowSize row := by
      intro row hrow
      have hcond := (List.mem_filter.mp hrow).2
      simp only [Bool.and_eq_true, beq_iff_eq] at hcond
      rw [← hcond.1.1.1, rolloverSize_decodedRollover]
    have hrows := seqSize_decoded hrollovers_perm hsize
    rw [Wire.length_encode_history, hreadings, hrows, replySize]

/-! ## What a reply keeps of the readings -/

omit [F64 F] in
private theorem selectHistory_perm (st : Storage F) (account : AccountId) (window : Option WindowId)
    (since «until» : DateTime) :
    (st.selectHistory account window since «until»).Perm
      (st.readingsWithin account window since «until») := by
  have hrows : st.readingsWithin account window since «until» =
      st.snapshotJoin.filter fun row =>
        row.1.accountId == account && decide (tsToMillis since ≤ row.1.ts) &&
          decide (row.1.ts ≤ tsToMillis «until») && window.all (· == row.2.windowId) := by
    rw [readingsWithin, readingsOf, List.filter_filter]
    apply List.filter_congr
    intro row _
    ac_rfl
  rw [hrows]
  exact List.mergeSort_perm _ _

/-- What is kept of one window: a reading of each part where it is crowded. -/
def keptOf (since «until» : DateTime) (budget : Nat) (rows : List (JoinedRow F)) :
    List (JoinedRow F) :=
  if Crowded since «until» budget rows then
    Buckets.kept (fun row =>
      bucketOf since (Duration.numMilliseconds («until» - since)) budget (millisToTs row.1.ts))
      (fun a b => decide (a.2.used < b.2.used)) budget rows
  else rows

private theorem keptReadings_perm (st : Storage F) (account : AccountId) (window : Option WindowId)
    (since «until» : DateTime) (budget : Nat) :
    (st.keptReadings account window since «until» budget).Perm
      (((st.readingsWithin account window since «until»).map (·.2.windowId)).dedup.flatMap fun id =>
        keptOf since «until» budget
          ((st.selectHistory account window since «until»).filter (·.2.windowId == id))) := by
  have hperm := st.selectHistory_perm account window since «until»
  have hids : ∀ id, id ∈ ((st.readingsWithin account window since «until»).map
      (·.2.windowId)).dedup ↔
        id ∈ (st.selectHistory account window since «until»).map (·.2.windowId) := by
    intro id
    rw [List.mem_dedup, (hperm.map _).mem_iff]
  unfold keptReadings keptRows
  split
  · rename_i hspan
    have hwhole : ∀ rows : List (JoinedRow F), keptOf since «until» budget rows = rows :=
      fun rows => if_neg fun h => absurd h.1 (by omega)
    simp only [hwhole]
    refine (Buckets.flatMap_filter_perm (List.nodup_dedup _) ?_).symm
    exact fun row hrow => (hids _).mpr (List.mem_map_of_mem hrow)
  · rename_i hspan
    have hseries : ∀ rows : List (JoinedRow F), keptOf since «until» budget rows =
        keptSeries since (Duration.numMilliseconds («until» - since)) budget
          (fun row => millisToTs row.1.ts) (fun a b => decide (a.2.used < b.2.used)) rows := by
      intro rows
      unfold keptOf keptSeries
      by_cases hlong : rows.length ≤ budget
      · rw [if_neg fun h => absurd h.2 (by omega), if_pos hlong]
      · rw [if_pos ⟨by omega, by omega⟩, if_neg hlong]
    simp only [hseries]
    exact (Buckets.bySeries_perm _ (List.nodup_dedup _) hids).symm

section Parts

variable {since «until» : DateTime} {budget : Nat} {rows rows' : List (JoinedRow F)}

omit [F64 F] in
private theorem crowded_perm (h : rows.Perm rows') :
    Crowded since «until» budget rows ↔ Crowded since «until» budget rows' := by
  unfold Crowded
  rw [h.length_eq]

omit [F64 F] in
private theorem inPart_perm (h : rows.Perm rows') (part : Nat) :
    (inPart since «until» budget rows part).Perm (inPart since «until» budget rows' part) :=
  h.filter _

private theorem length_keptOf (h : rows.Perm rows') :
    (keptOf since «until» budget rows).length = points since «until» budget rows' := by
  unfold keptOf points
  simp only [crowded_perm h]
  split
  · rw [Buckets.length_kept]
    apply List.countP_congr
    intro part _
    have hpart := (@inPart_perm _ since «until» budget _ _ h part).isEmpty_eq
    rw [← hpart]
    rfl
  · exact h.length_eq

private theorem sum_keptOf_le (h : rows.Perm rows') :
    ((keptOf since «until» budget rows).map readingSize).sum ≤
      pointsSize since «until» budget longest rows' := by
  unfold keptOf pointsSize
  simp only [crowded_perm h]
  split
  · apply Buckets.sum_kept_le
    intro part row hrow
    exact List.le_max?_getD_of_mem (List.mem_map_of_mem ((inPart_perm h part).mem_iff.mp hrow))
  · exact (h.map readingSize).sum_eq.le

omit [F64 F] in
private theorem shortest_le {sizes : List Nat} {n : Nat} (h : n ∈ sizes) : shortest sizes ≤ n := by
  unfold shortest
  cases hmin : sizes.min? with
  | none => exact Nat.zero_le n
  | some m => exact (List.min?_eq_some_iff.mp hmin).2 n h

private theorem le_sum_keptOf (h : rows.Perm rows') :
    pointsSize since «until» budget shortest rows' ≤
      ((keptOf since «until» budget rows).map readingSize).sum := by
  unfold keptOf pointsSize
  simp only [crowded_perm h]
  split
  · apply Buckets.le_sum_kept
    · intro part row hrow
      exact shortest_le (List.mem_map_of_mem ((inPart_perm h part).mem_iff.mp hrow))
    · intro part hnone
      have hpart := @inPart_perm _ since «until» budget _ _ h part
      change inPart since «until» budget rows part = [] at hnone
      rw [hnone] at hpart
      rw [← hpart.nil_eq]
      rfl
  · exact (h.map readingSize).sum_eq.ge

end Parts

/-- The readings a reply keeps are as many as its windows have points, and each is as long as some
reading of its part. -/
theorem seqSize_keptReadings (st : Storage F) (account : AccountId) (window : Option WindowId)
    (since «until» : DateTime) (budget : Nat) :
    let series := ((st.readingsWithin account window since «until»).map (·.2.windowId)).dedup.map
      fun id => (st.readingsWithin account window since «until»).filter (·.2.windowId == id)
    ∃ bytes, Bincode.seqSize readingSize (st.keptReadings account window since «until» budget) =
        Bincode.varintSize (series.map (points since «until» budget)).sum + bytes ∧
      (series.map (pointsSize since «until» budget shortest)).sum ≤ bytes ∧
      bytes ≤ (series.map (pointsSize since «until» budget longest)).sum := by
  intro series
  have hperm := st.selectHistory_perm account window since «until»
  have hseries : ∀ id, ((st.selectHistory account window since «until»).filter
      (·.2.windowId == id)).Perm
        ((st.readingsWithin account window since «until»).filter (·.2.windowId == id)) :=
    fun id => hperm.filter _
  have hkept := st.keptReadings_perm account window since «until» budget
  refine ⟨((st.keptReadings account window since «until» budget).map readingSize).sum, ?_, ?_, ?_⟩
  · rw [Bincode.seqSize, hkept.length_eq, List.length_flatMap, List.map_map]
    simp only [Function.comp_def, length_keptOf (hseries _)]
  · rw [(hkept.map _).sum_eq, List.map_flatMap, List.flatMap_def, List.sum_flatten, List.map_map,
      List.map_map]
    exact List.sum_le_sum fun id _ => le_sum_keptOf (hseries id)
  · rw [(hkept.map _).sum_eq, List.map_flatMap, List.flatMap_def, List.sum_flatten, List.map_map,
      List.map_map]
    exact List.sum_le_sum fun id _ => sum_keptOf_le (hseries id)

private theorem replySize_between (st : Storage F) (account : AccountId) (window : Option WindowId)
    (since : DateTime) («until» : Option DateTime) (maxPoints : Option UInt32)
    (now now' : DateTime) :
    st.sizeOfReply shortest account window since «until» maxPoints now now' ≤
        st.replySize account window since «until» maxPoints now now' ∧
      st.replySize account window since «until» maxPoints now now' ≤
        st.sizeOfReply longest account window since «until» maxPoints now now' := by
  obtain ⟨bytes, hbytes, hle, hge⟩ := st.seqSize_keptReadings account window since
    («until».getD now) (historyBudget maxPoints)
  have hearliest : Bincode.optionSize tsSize (st.earliestSnapshot account window) =
      Bincode.optionSize (fun ms => tsSize (millisToTs ms))
        ((st.readingsOf account window).map (·.1.ts)).min? := by
    rw [earliestSnapshot, Bincode.optionSize, Option.map_map]
    rfl
  constructor
  · rw [replySize, sizeOfReply, hbytes, hearliest]
    omega
  · rw [replySize, sizeOfReply, hbytes, hearliest]
    omega

omit [F64 F] in
private theorem longest_eq_shortest {sizes : List Nat} (h : ∀ n ∈ sizes, ∀ m ∈ sizes, n = m) :
    longest sizes = shortest sizes := by
  cases sizes with
  | nil => rfl
  | cons n sizes =>
    have hmax := List.max?_mem (List.max?_eq_some_max (List.cons_ne_nil n sizes))
    have hmin := List.min?_mem (List.min?_eq_some_min (List.cons_ne_nil n sizes))
    exact h _ hmax _ hmin

omit [F64 F] in
private theorem EvenlyLong.sizeOfReply {st : Storage F} {account : AccountId}
    {window : Option WindowId}
    {since : DateTime} {«until» : Option DateTime} {maxPoints : Option UInt32} {now : DateTime}
    (h : st.EvenlyLong account window since («until».getD now) (historyBudget maxPoints))
    (now' : DateTime) :
    st.sizeOfReply shortest account window since «until» maxPoints now now' =
      st.sizeOfReply longest account window since «until» maxPoints now now' := by
  have hseries : ∀ id, pointsSize since («until».getD now) (historyBudget maxPoints) shortest
        ((st.readingsWithin account window since («until».getD now)).filter (·.2.windowId == id)) =
      pointsSize since («until».getD now) (historyBudget maxPoints) longest
        ((st.readingsWithin account window since («until».getD now)).filter
          (·.2.windowId == id)) := by
    intro id
    unfold pointsSize
    split
    · rename_i hcrowded
      congr 1
      apply List.map_congr_left
      intro part _
      apply (longest_eq_shortest ?_).symm
      intro n hn m hm
      obtain ⟨row, hrow, rfl⟩ := List.mem_map.mp hn
      obtain ⟨row', hrow', rfl⟩ := List.mem_map.mp hm
      exact h id hcrowded part row hrow row' hrow'
    · rfl
  simp only [Storage.sizeOfReply, List.map_map, Function.comp_def, hseries]

private theorem seqSize_keptReadings_le (st : Storage F) (account : AccountId)
    (window : Option WindowId) (since : DateTime) («until» : Option DateTime)
    (maxPoints : Option UInt32) (now now' : DateTime) :
    Bincode.seqSize readingSize (st.keptReadings account window since («until».getD now)
        (historyBudget maxPoints)) ≤
      st.replySize account window since «until» maxPoints now now' := by
  unfold replySize
  omega

end Storage

/-- A reply whose windows have points of the longest readings for which there is room is sent, and
one that is sent has room for points of the shortest. Where no window is crowded, or the readings
that share a part of the interval are equally long, these are the same. -/
theorem history_reply_fits {S : Type} (json : SerdeJson F) (f : Wire.Formats F S)
    (writes : List (StorageWrite F)) (account : AccountId) (window : Option WindowId)
    (since : DateTime) («until» : Option DateTime) (maxPoints : Option UInt32)
    (now now' : DateTime) :
    let st := writes.foldl (Storage.apply json) .empty
    ∃ page, handleHistory st account window since «until» maxPoints now now' = .history page ∧
      ((sendFrame ((Wire.response f).encode (.history page))).isSome ↔
        ((Wire.response f).encode (.history page)).length ≤ maxFrameLen) ∧
      (st.sizeOfReply Storage.longest account window since «until» maxPoints now now' ≤
          maxFrameLen →
        ((Wire.response f).encode (.history page)).length ≤ maxFrameLen) ∧
      (((Wire.response f).encode (.history page)).length ≤ maxFrameLen →
        st.sizeOfReply Storage.shortest account window since «until» maxPoints now now' ≤
          maxFrameLen) ∧
      (st.EvenlyLong account window since («until».getD now) (Storage.historyBudget maxPoints) →
        (((Wire.response f).encode (.history page)).length ≤ maxFrameLen ↔
          st.sizeOfReply Storage.longest account window since «until» maxPoints now now' ≤
            maxFrameLen)) := by
  intro st
  obtain ⟨page, hpage, hsize⟩ := Storage.handleHistory_eq (Storage.valid_run json writes) f
    account window since «until» maxPoints now now'
  obtain ⟨hshortest, hlongest⟩ :=
    st.replySize_between account window since «until» maxPoints now now'
  have hfits : st.sizeOfReply Storage.longest account window since «until» maxPoints now now' ≤
      maxFrameLen → ((Wire.response f).encode (.history page)).length ≤ maxFrameLen :=
    fun h => hsize.le.trans (hlongest.trans h)
  have hroom : ((Wire.response f).encode (.history page)).length ≤ maxFrameLen →
      st.sizeOfReply Storage.shortest account window since «until» maxPoints now now' ≤
        maxFrameLen :=
    fun h => (hshortest.trans hsize.ge).trans h
  refine ⟨page, hpage, sendFrame_isSome_iff _, hfits, hroom, fun heven => ⟨fun h => ?_, hfits⟩⟩
  exact heven.sizeOfReply now' ▸ hroom h

/-! ## Four days of one account

An account with five windows, polled every three minutes. Each window stays within the cap. -/

def personalAccount : Account where
  id := ⟨"claude:personal"⟩
  provider := "claude"
  label := "personal"

def halfUsed (id label : String) (scope : WindowScope) (length : StdDuration) : QuotaWindow ℚ where
  id := ⟨id⟩
  label := label
  scope := scope
  resetKind := .rolling length
  unit := .percent
  used := 50
  limit := some 100
  resetAt := some (millisToTs 1787918400000)

def fiveWindows : List (QuotaWindow ℚ) :=
  [halfUsed "session_5h" "Session — 5 hour" .accountWide 18000000000000,
    halfUsed "weekly" "Weekly — all models" .accountWide 604800000000000,
    halfUsed "weekly_opus" "Weekly — Opus" (.model "opus") 604800000000000,
    halfUsed "weekly_sonnet" "Weekly — Sonnet" (.model "sonnet") 604800000000000,
    halfUsed "weekly_fable" "Weekly — Fable" (.model "fable") 604800000000000]

/-- The formats in which the two numbers the polls report, 50 and 100, go as their doubles. -/
def twoReadings : Wire.Formats ℚ UInt32 :=
  { Wire.bits with
    IsDouble := fun x => x = 50 ∨ x = 100
    double := fun x =>
      if x = 100 then #v[0, 0, 0, 0, 0, 0, 0x59, 0x40] else #v[0, 0, 0, 0, 0, 0, 0x49, 0x40]
    ofDouble := fun v => if v = #v[0, 0, 0, 0, 0, 0, 0x59, 0x40] then 100 else 50
    ofDouble_double := by
      rintro x (rfl | rfl)
      · decide
      · decide
    isDouble_ofDouble := by
      intro v
      split
      · exact .inr rfl
      · exact .inl rfl }

/-- When the `n`-th poll completes, in milliseconds. -/
def nthMillis (n : Nat) : Nat := 1787313600000 + 180000 * n

def steadyPoll (n : Nat) : PollEvent ℚ where
  id := Fin.ofNat (2 ^ 128) (nthMillis n * 2 ^ 80)
  ts := millisToTs (nthMillis n)
  provider := "claude"
  account := ⟨"claude:personal"⟩
  trigger := .scheduled
  outcome := .success fiveWindows
  latencyMs := 200

def steadyJson : SerdeJson ℚ :=
  .table [("\"Scheduled\"", .scheduled)] [("five windows", .success fiveWindows)]

def steadyWrites (n : Nat) : List (StorageWrite ℚ) :=
  .upsertAccount personalAccount ::
    (List.range n).map fun i => .recordPoll Storage.noFaults (steadyPoll i) fiveWindows []

/-- What the polls leave in the database. -/
private def steadyStorage (n : Nat) : Storage ℚ where
  account := [personalAccount]
  pollEvent := (List.range n).map fun i => Storage.eventRow steadyJson (steadyPoll i)
  quotaSnapshot :=
    (List.range n).flatMap fun i => fiveWindows.map (Storage.snapshotRow (steadyPoll i).id)
  windowRollover := []

private theorem steadyPoll_id {i : Nat} (hi : i < 2000) :
    (steadyPoll i).id.val = nthMillis i * 2 ^ 80 := by
  have hlt : nthMillis i * 2 ^ 80 < 2 ^ 128 := by
    unfold nthMillis
    omega
  exact Nat.mod_eq_of_lt hlt

private theorem steadyPoll_id_ne {i j : Nat} (hi : i < 2000) (hj : j < 2000) (h : i ≠ j) :
    (steadyPoll i).id ≠ (steadyPoll j).id := by
  intro heq
  have hval := congrArg Fin.val heq
  rw [steadyPoll_id hi, steadyPoll_id hj] at hval
  unfold nthMillis at hval
  omega

private theorem run_steadyWrites {n : Nat} (hn : n ≤ 2000) :
    (steadyWrites n).foldl (Storage.apply steadyJson) .empty = steadyStorage n := by
  induction n with
  | zero => rfl
  | succ n ih =>
    have hrange : steadyWrites (n + 1) = steadyWrites n ++
        [.recordPoll Storage.noFaults (steadyPoll n) fiveWindows []] := by
      simp [steadyWrites, List.range_succ]
    have hevents : ∀ row ∈ (steadyStorage n).pollEvent, row.id ≠ (steadyPoll n).id := by
      intro row hrow
      obtain ⟨i, hi, rfl⟩ := List.mem_map.mp hrow
      have hin := List.mem_range.mp hi
      exact steadyPoll_id_ne (by omega) (by omega) (by omega)
    have hsnapshots : ∀ w ∈ fiveWindows, ∀ row ∈ (steadyStorage n).quotaSnapshot,
        row.pollId = (steadyPoll n).id → row.windowId ≠ w.id := by
      intro _ _ row hrow heq
      obtain ⟨i, hi, hrow⟩ := List.mem_flatMap.mp hrow
      obtain ⟨w, -, rfl⟩ := List.mem_map.mp hrow
      have hin := List.mem_range.mp hi
      exact absurd heq (steadyPoll_id_ne (by omega) (by omega) (by omega))
    have hwritten := @Storage.recordPoll_of_fresh ℚ steadyJson (steadyStorage n) _ (steadyPoll n)
      fiveWindows ⟨personalAccount, List.mem_singleton.mpr rfl, rfl⟩ hevents hsnapshots
      (by decide) (by decide)
    rw [hrange, List.foldl_append, ih (by omega), List.foldl_cons, List.foldl_nil, Storage.apply,
      hwritten]
    simp [steadyStorage, List.range_succ]

private theorem steadyStorage_snapshots {n i : Nat} (hn : n ≤ 2000) (hi : i < n) :
    (steadyStorage n).quotaSnapshot.filter (·.pollId == (steadyPoll i).id) =
      fiveWindows.map (Storage.snapshotRow (steadyPoll i).id) := by
  have hnone : ∀ j < n, j ≠ i → (fiveWindows.map (Storage.snapshotRow (steadyPoll j).id)).filter
      (·.pollId == (steadyPoll i).id) = [] := by
    intro j hj hne
    apply List.filter_eq_nil_iff.mpr
    intro row hrow heq
    obtain ⟨w, -, rfl⟩ := List.mem_map.mp hrow
    exact steadyPoll_id_ne (by omega) (by omega) hne (eq_of_beq heq)
  have hown : (fiveWindows.map (Storage.snapshotRow (steadyPoll i).id)).filter
      (·.pollId == (steadyPoll i).id) =
        fiveWindows.map (Storage.snapshotRow (steadyPoll i).id) := by
    apply List.filter_eq_self.mpr
    intro row hrow
    obtain ⟨w, -, rfl⟩ := List.mem_map.mp hrow
    exact beq_self_eq_true _
  change ((List.range n).flatMap _).filter _ = _
  rw [List.filter_flatMap]
  induction n with
  | zero => omega
  | succ n ih =>
    rw [List.range_succ, List.flatMap_append, List.flatMap_singleton]
    by_cases hin : i = n
    · have hbefore : ((List.range n).flatMap fun j =>
          (fiveWindows.map (Storage.snapshotRow (steadyPoll j).id)).filter
            (·.pollId == (steadyPoll i).id)) = [] := by
        apply List.flatMap_eq_nil_iff.mpr
        intro j hj
        have hjn := List.mem_range.mp hj
        exact hnone j (by omega) (by omega)
      rw [hbefore, ← hin, hown, List.nil_append]
    · rw [ih (by omega) (by omega) fun j hj => hnone j (by omega), hnone n (by omega) (Ne.symm hin),
        List.append_nil]

private theorem snapshotJoin_steadyStorage {n : Nat} (hn : n ≤ 2000) :
    (steadyStorage n).snapshotJoin = (List.range n).flatMap fun i => fiveWindows.map fun w =>
      (Storage.eventRow steadyJson (steadyPoll i), Storage.snapshotRow (steadyPoll i).id w) := by
  have hpoll : ∀ i ∈ List.range n, ((steadyStorage n).quotaSnapshot.filter
      (·.pollId == (Storage.eventRow steadyJson (steadyPoll i)).id)).map
        (fun s => (Storage.eventRow steadyJson (steadyPoll i), s)) =
      fiveWindows.map fun w =>
        (Storage.eventRow steadyJson (steadyPoll i), Storage.snapshotRow (steadyPoll i).id w) := by
    intro i hi
    have hsnapshots := steadyStorage_snapshots hn (List.mem_range.mp hi)
    change (((steadyStorage n).quotaSnapshot.filter (·.pollId == (steadyPoll i).id)).map _) = _
    rw [hsnapshots, List.map_map]
    rfl
  unfold Storage.snapshotJoin
  change (((List.range n).map _).flatMap _) = _
  rw [List.flatMap_map]
  exact List.flatMap_congr hpoll

private theorem countP_flatMap_range_le {α : Type} {f : Nat → List α} {p : α → Bool}
    (h : ∀ i, (f i).countP p ≤ 1) (n : Nat) : ((List.range n).flatMap f).countP p ≤ n := by
  induction n with
  | zero => exact Nat.le_refl 0
  | succ n ih =>
    have hn := h n
    rw [List.range_succ, List.flatMap_append, List.countP_append, List.flatMap_singleton]
    omega

private theorem series_steadyStorage_le {n : Nat} (hn : n ≤ 2000) (id : WindowId) :
    ((steadyStorage n).snapshotJoin.filter fun row => row.2.windowId == id).length ≤ n := by
  have hnd : (fiveWindows.map QuotaWindow.id).Nodup := by decide
  have hone : fiveWindows.countP (fun w => w.id == id) ≤ 1 := by
    have hcount := List.nodup_iff_count_le_one.mp hnd id
    rw [List.count, List.countP_map] at hcount
    exact hcount
  rw [← List.countP_eq_length_filter, snapshotJoin_steadyStorage hn]
  apply countP_flatMap_range_le
  intro i
  rw [List.countP_map]
  exact hone

private theorem selectHistory_steadyStorage {n : Nat} (hn : n ≤ 2000) :
    ((steadyStorage n).selectHistory personalAccount.id none (millisToTs (nthMillis 0))
      (millisToTs (nthMillis 2000))).Perm (steadyStorage n).snapshotJoin := by
  have hall : (steadyStorage n).snapshotJoin.filter (fun row =>
      row.1.accountId == personalAccount.id &&
        decide (tsToMillis (millisToTs (nthMillis 0)) ≤ row.1.ts) &&
        decide (row.1.ts ≤ tsToMillis (millisToTs (nthMillis 2000))) &&
        Option.all (· == row.2.windowId) none) = (steadyStorage n).snapshotJoin := by
    apply List.filter_eq_self.mpr
    rintro ⟨e, s⟩ hrow
    obtain ⟨i, hi, heq⟩ := List.mem_map.mp (Storage.mem_snapshotJoin.mp hrow).1
    have hin := List.mem_range.mp hi
    have hts : tsToMillis (millisToTs (nthMillis 0)) ≤ tsToMillis (millisToTs (nthMillis i)) ∧
        tsToMillis (millisToTs (nthMillis i)) ≤ tsToMillis (millisToTs (nthMillis 2000)) := by
      unfold tsToMillis millisToTs nthMillis DateTime
      omega
    obtain rfl : Storage.eventRow steadyJson (steadyPoll i) = e := heq
    simp only [Bool.and_eq_true, Option.all_none, and_true]
    exact ⟨⟨rfl, decide_eq_true hts.1⟩, decide_eq_true hts.2⟩
  unfold Storage.selectHistory
  rw [hall]
  exact List.mergeSort_perm _ _

private theorem le_readingSize {n : Nat} (hn : n ≤ 2000) :
    ∀ row ∈ (steadyStorage n).snapshotJoin, 105 ≤ Storage.readingSize row := by
  intro row hrow
  rw [snapshotJoin_steadyStorage hn] at hrow
  obtain ⟨i, -, hrow⟩ := List.mem_flatMap.mp hrow
  obtain ⟨w, hw, rfl⟩ := List.mem_map.mp hrow
  have htexts : ∀ w ∈ fiveWindows,
      17 ≤ Bincode.textSize w.id.val + Bincode.textSize w.label ∧
        (w.limit.bind Storage.realParam).isSome ∧ w.resetAt.isSome := by decide
  obtain ⟨htext, hlimit, hreset⟩ := htexts w hw
  obtain ⟨limit, hlimit⟩ := Option.isSome_iff_exists.mp hlimit
  obtain ⟨reset, hreset⟩ := Option.isSome_iff_exists.mp hreset
  have hts := le_tsSize (millisToTs (tsToMillis (millisToTs (nthMillis i))))
  have hresetAt := le_tsSize (millisToTs (tsToMillis reset))
  simp only [Storage.readingSize, Storage.eventRow, Storage.snapshotRow, steadyPoll, hlimit, hreset,
    Bincode.optionSize, Option.map_some, Option.getD_some]
  omega

private theorem length_snapshotJoin_steadyStorage {n : Nat} (hn : n ≤ 2000) :
    (steadyStorage n).snapshotJoin.length = n * 5 := by
  rw [snapshotJoin_steadyStorage hn, List.length_flatMap]
  simp [fiveWindows]

/-- Two thousand polls of five windows: no window is past the cap, and the reply is past the
frame. -/
theorem history_reply_overflows :
    ∃ page, handleHistory ((steadyWrites 2000).foldl (Storage.apply steadyJson) .empty)
        personalAccount.id none (millisToTs (nthMillis 0)) none none (millisToTs (nthMillis 2000))
        (millisToTs (nthMillis 2000)) = .history page ∧
      maxFrameLen < ((Wire.response twoReadings).encode (.history page)).length ∧
      sendFrame ((Wire.response twoReadings).encode (.history page)) = none := by
  have hrun := run_steadyWrites (Nat.le_refl 2000)
  obtain ⟨page, hpage, hsize⟩ := Storage.handleHistory_eq
    (Storage.valid_run steadyJson (steadyWrites 2000)) twoReadings personalAccount.id none
    (millisToTs (nthMillis 0)) none none (millisToTs (nthMillis 2000)) (millisToTs (nthMillis 2000))
  have hselect := selectHistory_steadyStorage (Nat.le_refl 2000)
  have hkept : ((steadyStorage 2000).keptReadings personalAccount.id none (millisToTs (nthMillis 0))
      (millisToTs (nthMillis 2000)) (Storage.historyBudget none)).Perm
        (steadyStorage 2000).snapshotJoin := by
    refine (keptRows_perm_self ?_).trans hselect
    intro id
    have hseries := series_steadyStorage_le (Nat.le_refl 2000) id
    rw [(hselect.filter _).length_eq]
    exact hseries
  have hreadings := Bincode.mul_length_le_seqSize (le_readingSize (Nat.le_refl 2000))
  rw [length_snapshotJoin_steadyStorage (Nat.le_refl 2000), ← Bincode.seqSize_perm hkept]
    at hreadings
  have hreply := (steadyStorage 2000).seqSize_keptReadings_le personalAccount.id none
    (millisToTs (nthMillis 0)) none none (millisToTs (nthMillis 2000)) (millisToTs (nthMillis 2000))
  have hcap : maxFrameLen < 105 * (2000 * 5) := by decide
  have hlong : maxFrameLen < ((Wire.response twoReadings).encode (.history page)).length := by
    rw [hsize, hrun]
    exact hcap.trans_le (hreadings.trans hreply)
  refine ⟨page, hpage, hlong, ?_⟩
  exact if_pos hlong

end Teiryo
