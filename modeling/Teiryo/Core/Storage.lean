import Teiryo.Core.Rollover
import Teiryo.Framework.Except
import Mathlib.Data.List.Sort
import Mathlib.Data.Fin.Basic

/-!
# Persistence

The SQLite schema and the queries the daemon runs over it, following
`teiryo-core/src/storage.rs`. Tables are lists in insertion order; primary keys, foreign keys
and `NOT NULL` are checked by the inserts. An `INSERT` may also fail for reasons of its own
(a full disk, a locked file), which is an input of `recordPoll`.
-/

namespace Teiryo

inductive StorageError where
  | sqlite (message : String)
  | json (message : String)
  | corrupt (message : String)
  deriving DecidableEq, Repr

/-- `serde_json` on the two stored columns it encodes. -/
structure SerdeJson (F : Type) where
  triggerToString : PollTrigger → String
  triggerFromStr : String → Except String PollTrigger
  outcomeToString : PollOutcome F → String
  outcomeFromStr : String → Except String (PollOutcome F)

/-- The codec gives back the trigger and outcome of this event. -/
structure SerdeJson.RoundTrips {F : Type} (json : SerdeJson F) (event : PollEvent F) : Prop where
  trigger : json.triggerFromStr (json.triggerToString event.trigger) = .ok event.trigger
  outcome : json.outcomeFromStr (json.outcomeToString event.outcome) = .ok event.outcome

instance {F : Type} [DecidableEq F] (json : SerdeJson F) (event : PollEvent F) :
    Decidable (json.RoundTrips event) :=
  decidable_of_iff (_ ∧ _) ⟨fun h => ⟨h.1, h.2⟩, fun h => ⟨h.trigger, h.outcome⟩⟩

/-- The codec on a given list of texts. -/
def SerdeJson.table {F : Type} [DecidableEq F] (triggers : List (String × PollTrigger))
    (outcomes : List (String × PollOutcome F)) : SerdeJson F where
  triggerToString t := ((triggers.find? (·.2 = t)).map (·.1)).getD ""
  triggerFromStr s := ((triggers.find? (·.1 = s)).map (.ok ·.2)).getD (.error "unexpected text")
  outcomeToString o := ((outcomes.find? (·.2 = o)).map (·.1)).getD ""
  outcomeFromStr s := ((outcomes.find? (·.1 = s)).map (.ok ·.2)).getD (.error "unexpected text")

structure PollEventRow where
  id : PollId
  ts : Int
  provider : ProviderId
  accountId : AccountId
  trigger : String
  outcome : String
  latencyMs : UInt32
  error : Option String
  deriving DecidableEq, Repr

structure QuotaSnapshotRow (F : Type) where
  pollId : PollId
  windowId : WindowId
  label : String
  unit : String
  used : F
  limitVal : Option F
  resetAt : Option Int
  deriving DecidableEq, Repr

structure WindowRolloverRow (F : Type) where
  pollId : PollId
  windowId : WindowId
  accountId : AccountId
  observedAt : Int
  kind : String
  prevResetAt : Option Int
  newResetAt : Option Int
  prevUsed : F
  newUsed : F
  prevObservedAt : Option Int
  deriving DecidableEq, Repr

structure Storage (F : Type) where
  account : List Account
  pollEvent : List PollEventRow
  quotaSnapshot : List (QuotaSnapshotRow F)
  windowRollover : List (WindowRolloverRow F)
  deriving DecidableEq, Repr

/-- A fresh database. -/
def Storage.empty {F : Type} : Storage F where
  account := []
  pollEvent := []
  quotaSnapshot := []
  windowRollover := []

/-- `DateTime::timestamp_millis`. -/
def tsToMillis (ts : DateTime) : Int := ts / 1000000

/-- `Utc.timestamp_millis_opt`, on the range chrono represents. -/
def millisToTs (ms : Int) : DateTime := ms * 1000000

/-- The instants the database can hold. -/
def WholeMillis (ts : DateTime) : Prop := millisToTs (tsToMillis ts) = ts

instance (ts : DateTime) : Decidable (WholeMillis ts) :=
  inferInstanceAs (Decidable (millisToTs (tsToMillis ts) = ts))

def unitToStr : QuotaUnit → String
  | .percent => "percent"
  | .messages => "messages"
  | .tokens => "tokens"
  | .hours => "hours"

theorem tsToMillis_mono {s t : DateTime} (h : s ≤ t) : tsToMillis s ≤ tsToMillis t := by
  unfold tsToMillis DateTime at *
  omega

namespace Storage

variable {F : Type} [F64 F]

omit [F64 F] in
/-- Insert an account, or update the provider and label of a known one. -/
def upsertAccount (st : Storage F) (account : Account) : Storage F :=
  if st.account.any (·.id == account.id) then
    { st with account := st.account.map fun a => if a.id == account.id then account else a }
  else { st with account := st.account ++ [account] }

/-- How a statement of `recordPoll` fails on its own account, by position: `BEGIN` is
statement 0, the inserts follow in order, and `COMMIT` comes last. -/
abbrev Faults := Nat → Option String

def noFaults : Faults := fun _ => none

/-- A bound REAL parameter: SQLite stores a NaN as NULL. -/
def realParam (x : F) : Option F := if F64.isNaN x then none else some x

def constraint (what : String) : StorageError :=
  .sqlite (what ++ " constraint failed")

omit [F64 F] in
def insertPollEvent (row : PollEventRow) (st : Storage F) : Except StorageError (Storage F) :=
  if st.pollEvent.any (·.id == row.id) then .error (constraint "UNIQUE")
  else if st.account.any (·.id == row.accountId) then
    .ok { st with pollEvent := st.pollEvent ++ [row] }
  else .error (constraint "FOREIGN KEY")

def insertQuotaSnapshot (poll : PollId) (w : QuotaWindow F) (st : Storage F) :
    Except StorageError (Storage F) :=
  match realParam w.used with
  | none => .error (constraint "NOT NULL")
  | some used =>
    if st.quotaSnapshot.any (fun r => r.pollId == poll && r.windowId == w.id) then
      .error (constraint "UNIQUE")
    else if st.pollEvent.any (·.id == poll) then
      .ok { st with quotaSnapshot := st.quotaSnapshot ++ [{
        pollId := poll, windowId := w.id, label := w.label, unit := unitToStr w.unit
        used, limitVal := w.limit.bind realParam, resetAt := w.resetAt.map tsToMillis }] }
    else .error (constraint "FOREIGN KEY")

omit [F64 F] in
/-- The row a rollover is stored as. -/
def rolloverRow (r : WindowRollover F) : WindowRolloverRow F where
  pollId := r.poll
  windowId := r.window
  accountId := r.account
  observedAt := tsToMillis r.observedAt
  kind := r.kind.asStr
  prevResetAt := r.prevResetAt.map tsToMillis
  newResetAt := r.newResetAt.map tsToMillis
  prevUsed := r.prevUsed
  newUsed := r.newUsed
  prevObservedAt := r.prevObservedAt.map tsToMillis

def insertWindowRollover (r : WindowRollover F) (st : Storage F) :
    Except StorageError (Storage F) :=
  match realParam r.prevUsed, realParam r.newUsed with
  | some _, some _ =>
    if st.windowRollover.any (fun row => row.pollId == r.poll && row.windowId == r.window) then
      .error (constraint "UNIQUE")
    else if st.pollEvent.any (·.id == r.poll) && st.account.any (·.id == r.account) then
      .ok { st with windowRollover := st.windowRollover ++ [rolloverRow r] }
    else .error (constraint "FOREIGN KEY")
  | _, _ => .error (constraint "NOT NULL")

omit [F64 F] in
/-- Run the statements of one transaction in order, the last being `COMMIT`. -/
def execute (faults : Faults) :
    Nat → List (Storage F → Except StorageError (Storage F)) → Storage F →
      Except StorageError (Storage F)
  | n, [], tx =>
    match faults n with
    | some e => .error (.sqlite e)
    | none => .ok tx
  | n, stmt :: stmts, tx =>
    match faults n with
    | some e => .error (.sqlite e)
    | none => stmt tx >>= execute faults (n + 1) stmts

omit [F64 F] in
def eventRow (json : SerdeJson F) (event : PollEvent F) : PollEventRow where
  id := event.id
  ts := tsToMillis event.ts
  provider := event.provider
  accountId := event.account
  trigger := json.triggerToString event.trigger
  outcome := json.outcomeToString event.outcome
  latencyMs := event.latencyMs
  error := event.outcome.errorMessage

def recordPollStmts (json : SerdeJson F) (event : PollEvent F) (windows : List (QuotaWindow F))
    (rollovers : List (WindowRollover F)) :
    List (Storage F → Except StorageError (Storage F)) :=
  .ok :: insertPollEvent (eventRow json event) ::
    windows.map (insertQuotaSnapshot event.id) ++ rollovers.map insertWindowRollover

/-- Persist one poll event, its snapshots and its rollovers in one transaction. An error drops
the transaction, which rolls it back. -/
def recordPoll (json : SerdeJson F) (faults : Faults) (st : Storage F) (event : PollEvent F)
    (windows : List (QuotaWindow F)) (rollovers : List (WindowRollover F)) :
    Except StorageError Unit × Storage F :=
  match execute faults 0 (recordPollStmts json event windows rollovers) st with
  | .ok tx => (.ok (), tx)
  | .error e => (.error e, st)

omit [F64 F] in
def rolloverOfRow (account : AccountId) (row : WindowRolloverRow F) :
    Except StorageError (WindowRollover F) :=
  match RolloverKind.fromColumn row.kind with
  | none => .error (.corrupt ("unknown rollover kind " ++ row.kind))
  | some kind => .ok {
      account, window := row.windowId, poll := row.pollId
      observedAt := millisToTs row.observedAt, kind
      prevResetAt := row.prevResetAt.map millisToTs, newResetAt := row.newResetAt.map millisToTs
      prevUsed := row.prevUsed, newUsed := row.newUsed
      prevObservedAt := row.prevObservedAt.map millisToTs }

omit [F64 F] in
/-- Rollovers of one account (optionally one window) within `since..=until`, oldest first. -/
def rollovers (st : Storage F) (account : AccountId) (window : Option WindowId)
    (since «until» : DateTime) : Except StorageError (List (WindowRollover F)) :=
  ((st.windowRollover.filter fun row =>
      row.accountId == account && decide (tsToMillis since ≤ row.observedAt) &&
        decide (row.observedAt ≤ tsToMillis «until») &&
        window.all (· == row.windowId)).mergeSort
      fun a b => decide (a.observedAt ≤ b.observedAt)).mapM (rolloverOfRow account)

omit [F64 F] in
def rowToEvent (json : SerdeJson F) (row : PollEventRow) : Except StorageError (PollEvent F) := do
  let trigger ← (json.triggerFromStr row.trigger).mapError .json
  let outcome ← (json.outcomeFromStr row.outcome).mapError .json
  return {
    id := row.id, ts := millisToTs row.ts, provider := row.provider, account := row.accountId
    trigger, outcome, latencyMs := row.latencyMs }

/-- `ORDER BY id DESC LIMIT 1`. -/
def newest (rows : List PollEventRow) : Option PollEventRow :=
  rows.foldl (fun best row =>
    match best with
    | none => some row
    | some b => if b.id < row.id then some row else some b) none

omit [F64 F] in
/-- Newest poll event for `account` matching an extra predicate. -/
def latestEvent (json : SerdeJson F) (st : Storage F) (account : AccountId)
    (extra : PollEventRow → Bool) : Except StorageError (Option (PollEvent F)) :=
  match newest (st.pollEvent.filter fun row => row.accountId == account && extra row) with
  | none => .ok none
  | some row => (rowToEvent json row).map some

omit [F64 F] in
def latestPollFor (json : SerdeJson F) (st : Storage F) (account : AccountId) :
    Except StorageError (Option (PollEvent F)) :=
  latestEvent json st account fun _ => true

omit [F64 F] in
def latestSuccessFor (json : SerdeJson F) (st : Storage F) (account : AccountId) :
    Except StorageError (Option (PollEvent F)) :=
  latestEvent json st account fun row => row.error.isNone

omit [F64 F] in
/-- Failed polls since the last success, clamped to `u32`. -/
def consecutiveFailuresFor (st : Storage F) (account : AccountId) : UInt32 :=
  let rows := st.pollEvent.filter (·.accountId == account)
  let cutoff := (newest (rows.filter (·.error.isNone))).map (·.id)
  let count := (rows.filter fun row =>
    row.error.isSome && cutoff.all fun id => decide (id < row.id)).length
  UInt32.ofNat (min count (2 ^ 32 - 1))

omit [F64 F] in
theorem execute_ok {faults : Faults} {n : Nat}
    {stmts : List (Storage F → Except StorageError (Storage F))} {tx tx' : Storage F}
    (h : execute faults n stmts tx = .ok tx') :
    stmts.foldlM (fun s stmt => stmt s) tx = .ok tx' := by
  induction stmts generalizing n tx with
  | nil =>
    simp only [execute] at h
    split at h
    · cases h
    · exact h
  | cons stmt stmts ih =>
    simp only [execute] at h
    split at h
    · cases h
    · obtain ⟨mid, hstmt, hrest⟩ := bind_eq_ok.mp h
      exact foldlM_cons_eq_ok.mpr ⟨mid, hstmt, ih hrest⟩

omit [F64 F] in
theorem insertPollEvent_ok {row : PollEventRow} {tx tx' : Storage F}
    (h : insertPollEvent row tx = .ok tx') :
    (∀ r ∈ tx.pollEvent, r.id ≠ row.id) ∧ tx' = { tx with pollEvent := tx.pollEvent ++ [row] } := by
  unfold insertPollEvent at h
  split at h
  · cases h
  · rename_i hfresh
    split at h
    · cases h
      refine ⟨?_, rfl⟩
      intro r hr heq
      exact hfresh (List.any_eq_true.mpr ⟨r, hr, by simp [heq]⟩)
    · cases h

/-- The snapshot row of one window, once its reading is known not to be a NaN. -/
def snapshotRow (poll : PollId) (w : QuotaWindow F) : QuotaSnapshotRow F where
  pollId := poll
  windowId := w.id
  label := w.label
  unit := unitToStr w.unit
  used := w.used
  limitVal := w.limit.bind realParam
  resetAt := w.resetAt.map tsToMillis

theorem insertQuotaSnapshot_ok {poll : PollId} {w : QuotaWindow F} {tx tx' : Storage F}
    (h : insertQuotaSnapshot poll w tx = .ok tx') :
    (∀ r ∈ tx.quotaSnapshot, r.pollId = poll → r.windowId ≠ w.id) ∧
      tx' = { tx with quotaSnapshot := tx.quotaSnapshot ++ [snapshotRow poll w] } := by
  unfold insertQuotaSnapshot at h
  split at h
  · cases h
  · rename_i used hused
    have hval : used = w.used := by
      unfold realParam at hused
      split at hused
      · cases hused
      · exact (Option.some.inj hused).symm
    subst hval
    split at h
    · cases h
    · rename_i hfresh
      split at h
      · cases h
        refine ⟨?_, rfl⟩
        intro r hr hpoll hwin
        exact hfresh (List.any_eq_true.mpr ⟨r, hr, by simp [hpoll, hwin]⟩)
      · cases h

theorem insertWindowRollover_ok {r : WindowRollover F} {tx tx' : Storage F}
    (h : insertWindowRollover r tx = .ok tx') :
    tx' = { tx with windowRollover := tx.windowRollover ++ [rolloverRow r] } := by
  unfold insertWindowRollover at h
  split at h
  · split at h
    · cases h
    · split at h
      · cases h
        rfl
      · cases h
  · cases h

private theorem insertSnapshots_ok {poll : PollId} {windows : List (QuotaWindow F)}
    {tx tx' : Storage F}
    (h : (windows.map (insertQuotaSnapshot poll)).foldlM (fun s stmt => stmt s) tx = .ok tx') :
    (∀ w ∈ windows, ∀ r ∈ tx.quotaSnapshot, r.pollId = poll → r.windowId ≠ w.id) ∧
      (windows.map QuotaWindow.id).Nodup ∧
      tx' = { tx with quotaSnapshot := tx.quotaSnapshot ++ windows.map (snapshotRow poll) } := by
  induction windows generalizing tx with
  | nil =>
    cases h
    simp
  | cons w windows ih =>
    obtain ⟨mid, hw, hmid⟩ := foldlM_cons_eq_ok.mp h
    obtain ⟨hfresh, rfl⟩ := insertQuotaSnapshot_ok hw
    obtain ⟨hrest, hnd, rfl⟩ := ih hmid
    have hnew : ∀ v ∈ windows, w.id ≠ v.id := by
      intro v hv
      exact hrest v hv (snapshotRow poll w) (by simp) rfl
    refine ⟨?_, ?_, ?_⟩
    · intro v hv r hr hpoll
      rcases List.mem_cons.mp hv with rfl | hv
      · exact hfresh r hr hpoll
      · exact hrest v hv r (by simp [hr]) hpoll
    · rw [List.map_cons, List.nodup_cons]
      refine ⟨?_, hnd⟩
      intro hmem
      obtain ⟨v, hv, heq⟩ := List.mem_map.mp hmem
      exact hnew v hv heq.symm
    · simp [List.append_assoc]

private theorem insertRollovers_ok {rollovers : List (WindowRollover F)} {tx tx' : Storage F}
    (h : (rollovers.map insertWindowRollover).foldlM (fun s stmt => stmt s) tx = .ok tx') :
    tx' = { tx with windowRollover := tx.windowRollover ++ rollovers.map rolloverRow } := by
  induction rollovers generalizing tx with
  | nil =>
    cases h
    simp
  | cons r rollovers ih =>
    obtain ⟨mid, hr, hmid⟩ := foldlM_cons_eq_ok.mp h
    rw [ih hmid, insertWindowRollover_ok hr]
    simp [List.append_assoc]

/-- What `recordPoll` writes when it succeeds, and what its success says about the payload. -/
structure Recorded (json : SerdeJson F) (st st' : Storage F) (event : PollEvent F)
    (windows : List (QuotaWindow F)) (rollovers : List (WindowRollover F)) : Prop where
  fresh : ∀ row ∈ st.pollEvent, row.id ≠ event.id
  windows_nodup : (windows.map QuotaWindow.id).Nodup
  account_eq : st'.account = st.account
  pollEvent_eq : st'.pollEvent = st.pollEvent ++ [eventRow json event]
  quotaSnapshot_eq : st'.quotaSnapshot = st.quotaSnapshot ++ windows.map (snapshotRow event.id)
  windowRollover_eq : st'.windowRollover = st.windowRollover ++ rollovers.map rolloverRow

theorem recordPoll_ok {json : SerdeJson F} {faults : Faults} {st : Storage F}
    {event : PollEvent F} {windows : List (QuotaWindow F)} {rollovers : List (WindowRollover F)}
    (h : (recordPoll json faults st event windows rollovers).1 = .ok ()) :
    Recorded json st (recordPoll json faults st event windows rollovers).2 event windows
      rollovers := by
  unfold recordPoll at h ⊢
  cases hexec : execute faults 0 (recordPollStmts json event windows rollovers) st with
  | error e => rw [hexec] at h; cases h
  | ok tx =>
    have hfold := execute_ok hexec
    rw [recordPollStmts] at hfold
    obtain ⟨tx₀, htx₀, hfold⟩ := foldlM_cons_eq_ok.mp hfold
    cases htx₀
    obtain ⟨tx₁, hevent, hfold⟩ := foldlM_cons_eq_ok.mp hfold
    obtain ⟨tx₂, hsnapshots, hrollovers⟩ := foldlM_append_eq_ok.mp hfold
    obtain ⟨hfresh, rfl⟩ := insertPollEvent_ok hevent
    obtain ⟨-, hnd, rfl⟩ := insertSnapshots_ok hsnapshots
    have htx := insertRollovers_ok hrollovers
    subst htx
    exact ⟨hfresh, hnd, rfl, rfl, rfl, rfl⟩

end Storage
end Teiryo
