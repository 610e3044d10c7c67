import Teiryo.Core.Storage
import Mathlib.Data.List.Induction

/-!
# What the queries find

The restart queries over rows written in order. `ORDER BY id DESC LIMIT 1` finds the row written
last, the failure count is the stretch of failures since the last success, and a rollover query
gives back the rollovers of its interval as they were written, with their instants cut to
milliseconds.
-/

namespace Teiryo

/-- An event as the database gives it back. -/
def PollEvent.stored {F : Type} (e : PollEvent F) : PollEvent F :=
  { e with ts := millisToTs (tsToMillis e.ts) }

/-- A rollover as the database gives it back. -/
def WindowRollover.stored {F : Type} (r : WindowRollover F) : WindowRollover F :=
  { r with
    observedAt := millisToTs (tsToMillis r.observedAt)
    prevResetAt := r.prevResetAt.map fun t => millisToTs (tsToMillis t)
    newResetAt := r.newResetAt.map fun t => millisToTs (tsToMillis t)
    prevObservedAt := r.prevObservedAt.map fun t => millisToTs (tsToMillis t) }

/-- The failed polls since the last successful one. -/
def failuresSince {F : Type} (events : List (PollEvent F)) : Nat :=
  (events.reverse.takeWhile fun e => !e.outcome.isSuccess).length

theorem failuresSince_concat {F : Type} (events : List (PollEvent F)) (e : PollEvent F) :
    failuresSince (events ++ [e]) =
      if e.outcome.isSuccess then 0 else failuresSince events + 1 := by
  unfold failuresSince
  rw [List.reverse_append, List.reverse_singleton, List.singleton_append, List.takeWhile_cons]
  cases e.outcome.isSuccess with
  | true => rfl
  | false => rfl

namespace Storage

variable {F : Type}

private theorem newest_concat (rows : List PollEventRow) (row : PollEventRow) :
    newest (rows ++ [row]) =
      match newest rows with
      | none => some row
      | some best => if best.id < row.id then some row else some best := by
  unfold newest
  rw [List.foldl_append]
  rfl

private theorem newest_of_sorted {rows : List PollEventRow}
    (h : rows.Pairwise fun a b => a.id < b.id) : newest rows = rows.getLast? := by
  induction rows using List.reverseRecOn with
  | nil => rfl
  | append_singleton rows last ih =>
    obtain ⟨hrows, -, hlast⟩ := List.pairwise_append.mp h
    rw [newest_concat, ih hrows, List.getLast?_concat]
    cases hbest : rows.getLast? with
    | none => rfl
    | some best =>
      have hlt := hlast best (List.mem_of_getLast? hbest) last (List.mem_singleton.mpr rfl)
      simp [hlt]

theorem rowToEvent_eventRow {json : SerdeJson F} {e : PollEvent F} (h : json.RoundTrips e) :
    rowToEvent json (eventRow json e) = .ok e.stored := by
  simp only [rowToEvent, eventRow, h.trigger, h.outcome, Except.mapError]
  rfl

private theorem eventRow_error_isNone (json : SerdeJson F) (e : PollEvent F) :
    (eventRow json e).error.isNone = e.outcome.isSuccess := by
  cases h : e.outcome <;> simp [eventRow, h, PollOutcome.errorMessage, PollOutcome.isSuccess]

/-- The rows of one account, when they are what one run wrote. -/
structure Rows (json : SerdeJson F) (st : Storage F) (account : AccountId)
    (events : List (PollEvent F)) : Prop where
  rows : st.pollEvent.filter (·.accountId == account) = events.map (eventRow json)
  ids : events.Pairwise fun a b => a.id < b.id
  roundTrips : ∀ e ∈ events, json.RoundTrips e

variable {json : SerdeJson F} {st : Storage F} {account : AccountId} {events : List (PollEvent F)}

@[simp] theorem upsertAccount_pollEvent (st : Storage F) (account : Account) :
    (st.upsertAccount account).pollEvent = st.pollEvent := by
  unfold upsertAccount
  split <;> rfl

theorem Rows.congr {st' : Storage F} (h : Rows json st account events)
    (heq : st'.pollEvent = st.pollEvent) : Rows json st' account events :=
  ⟨by rw [heq, h.rows], h.ids, h.roundTrips⟩

private theorem filter_account (h : Rows json st account events) (extra : PollEventRow → Bool) :
    st.pollEvent.filter (fun row => row.accountId == account && extra row) =
      (events.filter fun e => extra (eventRow json e)).map (eventRow json) := by
  have hand : (fun row : PollEventRow => row.accountId == account && extra row) =
      fun row => extra row && (row.accountId == account) := by
    funext row
    exact Bool.and_comm _ _
  rw [hand, ← List.filter_filter, h.rows, List.filter_map]
  rfl

private theorem newest_map {events : List (PollEvent F)}
    (h : events.Pairwise fun a b => a.id < b.id) :
    newest (events.map (eventRow json)) = events.getLast?.map (eventRow json) := by
  have hsorted : (events.map (eventRow json)).Pairwise fun a b => a.id < b.id :=
    List.pairwise_map.mpr h
  rw [newest_of_sorted hsorted, List.getLast?_map]

private theorem latestEvent_eq (h : Rows json st account events) (extra : PollEventRow → Bool) :
    latestEvent json st account extra =
      .ok ((events.filter fun e => extra (eventRow json e)).getLast?.map (·.stored)) := by
  have hsub : (events.filter fun e => extra (eventRow json e)).Sublist events :=
    List.filter_sublist
  rw [latestEvent, filter_account h, newest_map (h.ids.sublist hsub)]
  cases hlast : (events.filter fun e => extra (eventRow json e)).getLast? with
  | none => rfl
  | some e =>
    have hmem := hsub.subset (List.mem_of_getLast? hlast)
    simp only [Option.map_some]
    rw [rowToEvent_eventRow (h.roundTrips e hmem)]
    rfl

theorem latestPollFor_eq (h : Rows json st account events) :
    latestPollFor json st account = .ok (events.getLast?.map (·.stored)) := by
  rw [latestPollFor, latestEvent_eq h, List.filter_true]

theorem latestSuccessFor_eq (h : Rows json st account events) :
    latestSuccessFor json st account =
      .ok ((events.filter (·.outcome.isSuccess)).getLast?.map (·.stored)) := by
  simp only [latestSuccessFor, latestEvent_eq h, eventRow_error_isNone]

private def lastSuccessId (events : List (PollEvent F)) : Option PollId :=
  (events.filter (·.outcome.isSuccess)).getLast?.map (·.id)

/-- The failures above a cutoff. -/
private def failuresAbove (cutoff : Option PollId) (events : List (PollEvent F)) : Nat :=
  (events.filter fun e => !e.outcome.isSuccess &&
    cutoff.all fun id => decide (id < e.id)).length

private theorem failuresAbove_eq {events : List (PollEvent F)}
    (h : events.Pairwise fun a b => a.id < b.id) :
    failuresAbove (lastSuccessId events) events = failuresSince events := by
  induction events using List.reverseRecOn with
  | nil => rfl
  | append_singleton events e ih =>
    obtain ⟨hevents, -, hlast⟩ := List.pairwise_append.mp h
    have hlt : ∀ e' ∈ events, e'.id < e.id :=
      fun e' he' => hlast e' he' e (List.mem_singleton.mpr rfl)
    rw [failuresSince_concat]
    cases hsuccess : e.outcome.isSuccess with
    | true =>
      -- the cutoff is the last id, and no row is above it
      have hcut : lastSuccessId (events ++ [e]) = some e.id := by
        simp [lastSuccessId, List.filter_append, hsuccess]
      rw [failuresAbove, hcut]
      simp only [if_true, List.length_eq_zero_iff, List.filter_eq_nil_iff]
      intro e' he'
      rcases List.mem_append.mp he' with he' | he'
      · have hle := (hlt e' he').le
        simp [not_lt.mpr hle]
      · rw [List.mem_singleton.mp he']
        simp
    | false =>
      -- the cutoff stays, and the new row is above it
      have hcut : lastSuccessId (events ++ [e]) = lastSuccessId events := by
        simp [lastSuccessId, List.filter_append, hsuccess]
      have hnew : ((lastSuccessId events).all fun id => decide (id < e.id)) = true := by
        cases hc : (events.filter (·.outcome.isSuccess)).getLast? with
        | none => simp [lastSuccessId, hc]
        | some c =>
          have hmem := List.filter_sublist.subset (List.mem_of_getLast? hc)
          simpa [lastSuccessId, hc] using hlt c hmem
      have hcount := ih hevents
      rw [failuresAbove] at hcount
      rw [hcut, failuresAbove, List.filter_append, List.length_append, hcount,
        List.filter_singleton, hsuccess, hnew]
      rfl

theorem consecutiveFailuresFor_eq (h : Rows json st account events) :
    consecutiveFailuresFor st account =
      UInt32.ofNat (min (failuresSince events) (2 ^ 32 - 1)) := by
  have hnone : ∀ e : PollEvent F, (eventRow json e).error.isNone = e.outcome.isSuccess :=
    eventRow_error_isNone json
  have hsome : ∀ e : PollEvent F, (eventRow json e).error.isSome = !e.outcome.isSuccess := by
    intro e
    rw [← hnone]
    cases (eventRow json e).error <;> rfl
  have hcut : (newest ((events.map (eventRow json)).filter (·.error.isNone))).map (·.id) =
      lastSuccessId events := by
    have hsub : (events.filter (·.outcome.isSuccess)).Sublist events := List.filter_sublist
    have hfilter : (events.map (eventRow json)).filter (·.error.isNone) =
        (events.filter (·.outcome.isSuccess)).map (eventRow json) := by
      rw [List.filter_map]
      congr 2
      funext e
      exact hnone e
    rw [hfilter, newest_map (h.ids.sublist hsub), Option.map_map]
    rfl
  have hcount : ((events.map (eventRow json)).filter fun row => row.error.isSome &&
      (lastSuccessId events).all fun id => decide (id < row.id)).length =
      failuresAbove (lastSuccessId events) events := by
    rw [List.filter_map, List.length_map, failuresAbove]
    congr 2
    funext e
    simp only [Function.comp_apply, hsome]
    rfl
  unfold consecutiveFailuresFor
  simp only
  rw [h.rows, hcut, hcount, failuresAbove_eq h.ids]

private theorem rolloverOfRow_rolloverRow (r : WindowRollover F) :
    rolloverOfRow r.account (rolloverRow r) = .ok r.stored := by
  simp only [rolloverOfRow, rolloverRow, RolloverKind.fromColumn_asStr, Option.map_map]
  rfl

/-- When an account's rollovers were written in the order of their polls and the interval covers
them all, the query gives back all of them in that order. -/
theorem rollovers_eq {rs : List (WindowRollover F)} {since «until» : DateTime}
    (hrows : st.windowRollover.filter (·.accountId == account) = rs.map rolloverRow)
    (haccount : ∀ r ∈ rs, r.account = account)
    (hsorted : rs.Pairwise fun a b => a.observedAt ≤ b.observedAt)
    (hsince : ∀ r ∈ rs, since ≤ r.observedAt) (huntil : ∀ r ∈ rs, r.observedAt ≤ «until») :
    rollovers st account none since «until» = .ok (rs.map (·.stored)) := by
  have hfilter : st.windowRollover.filter (fun row =>
      row.accountId == account && decide (tsToMillis since ≤ row.observedAt) &&
        decide (row.observedAt ≤ tsToMillis «until») && Option.all (· == row.windowId) none) =
      rs.map rolloverRow := by
    have hand : (fun row : WindowRolloverRow F =>
        row.accountId == account && decide (tsToMillis since ≤ row.observedAt) &&
          decide (row.observedAt ≤ tsToMillis «until») && Option.all (· == row.windowId) none) =
        fun row => (decide (tsToMillis since ≤ row.observedAt) &&
          decide (row.observedAt ≤ tsToMillis «until»)) && (row.accountId == account) := by
      funext row
      simp only [Option.all_none, Bool.and_true, Bool.and_assoc]
      rw [Bool.and_comm (row.accountId == account), Bool.and_assoc]
    rw [hand, ← List.filter_filter, hrows, List.filter_eq_self]
    intro row hrow
    obtain ⟨r, hr, rfl⟩ := List.mem_map.mp hrow
    rw [Bool.and_eq_true]
    exact ⟨decide_eq_true (tsToMillis_mono (hsince r hr)),
      decide_eq_true (tsToMillis_mono (huntil r hr))⟩
  have hrows_sorted : (rs.map rolloverRow).Pairwise fun a b =>
      decide (a.observedAt ≤ b.observedAt) = true := by
    rw [List.pairwise_map]
    refine hsorted.imp ?_
    intro a b hab
    exact decide_eq_true (tsToMillis_mono hab)
  have hdecode : ∀ r ∈ rs, rolloverOfRow account (rolloverRow r) = .ok r.stored := by
    intro r hr
    rw [← haccount r hr, rolloverOfRow_rolloverRow]
  rw [rollovers, hfilter, List.mergeSort_of_pairwise hrows_sorted, List.mapM_map]
  exact mapM_eq_ok_map hdecode

/-- A transaction that fails is rolled back. -/
theorem recordPoll_error [F64 F] {faults : Faults} {event : PollEvent F}
    {windows : List (QuotaWindow F)} {rollovers : List (WindowRollover F)} {e : StorageError}
    (h : (recordPoll json faults st event windows rollovers).1 = .error e) :
    (recordPoll json faults st event windows rollovers).2 = st := by
  unfold recordPoll at h ⊢
  split at h
  · cases h
  · rfl

private theorem execute_noFaults (stmts : List (Storage F → Except StorageError (Storage F)))
    (n : Nat) (tx : Storage F) :
    execute noFaults n stmts tx = stmts.foldlM (fun s stmt => stmt s) tx := by
  induction stmts generalizing n tx with
  | nil => rfl
  | cons stmt stmts ih =>
    have hrest : execute noFaults (n + 1) stmts =
        fun tx => stmts.foldlM (fun s stmt => stmt s) tx := funext fun tx => ih (n + 1) tx
    rw [List.foldlM_cons, execute, hrest]
    rfl

private theorem insertQuotaSnapshot_of_fresh [F64 F] {poll : PollId} {w : QuotaWindow F}
    {tx : Storage F}
    (hused : F64.isNaN w.used = false) (hpoll : ∃ row ∈ tx.pollEvent, row.id = poll)
    (hfresh : ∀ r ∈ tx.quotaSnapshot, r.pollId = poll → r.windowId ≠ w.id) :
    insertQuotaSnapshot poll w tx =
      .ok { tx with quotaSnapshot := tx.quotaSnapshot ++ [snapshotRow poll w] } := by
  have hany : (tx.quotaSnapshot.any fun r => r.pollId == poll && r.windowId == w.id) = false := by
    rw [List.any_eq_false]
    intro r hr heq
    obtain ⟨hpoll, hwin⟩ := Bool.and_eq_true_iff.mp heq
    exact hfresh r hr (eq_of_beq hpoll) (eq_of_beq hwin)
  have hparent : (tx.pollEvent.any fun row => row.id == poll) = true := by
    obtain ⟨row, hrow, hid⟩ := hpoll
    exact List.any_eq_true.mpr ⟨row, hrow, beq_iff_eq.mpr hid⟩
  simp only [insertQuotaSnapshot, realParam, hused, hany, hparent]
  rfl

private theorem insertSnapshots_of_fresh [F64 F] {poll : PollId} {windows : List (QuotaWindow F)}
    {tx : Storage F} (hused : ∀ w ∈ windows, F64.isNaN w.used = false)
    (hnd : (windows.map QuotaWindow.id).Nodup) (hpoll : ∃ row ∈ tx.pollEvent, row.id = poll)
    (hfresh : ∀ w ∈ windows, ∀ r ∈ tx.quotaSnapshot, r.pollId = poll → r.windowId ≠ w.id) :
    (windows.map (insertQuotaSnapshot poll)).foldlM (fun s stmt => stmt s) tx =
      .ok { tx with quotaSnapshot := tx.quotaSnapshot ++ windows.map (snapshotRow poll) } := by
  induction windows generalizing tx with
  | nil =>
    rw [List.map_nil, List.map_nil, List.append_nil]
    rfl
  | cons w windows ih =>
    obtain ⟨hw, hnd⟩ := List.nodup_cons.mp hnd
    have hinsert := insertQuotaSnapshot_of_fresh (hused w List.mem_cons_self) hpoll
      (hfresh w List.mem_cons_self)
    have hothers : ∀ v ∈ windows, ∀ r ∈ tx.quotaSnapshot ++ [snapshotRow poll w],
        r.pollId = poll → r.windowId ≠ v.id := by
      intro v hv r hr hid
      rcases List.mem_append.mp hr with hr | hr
      · exact hfresh v (List.mem_cons_of_mem w hv) r hr hid
      · rw [List.mem_singleton.mp hr]
        intro heq
        exact hw (List.mem_map.mpr ⟨v, hv, heq.symm⟩)
    have hrest := @ih { tx with quotaSnapshot := tx.quotaSnapshot ++ [snapshotRow poll w] }
      (fun v hv => hused v (List.mem_cons_of_mem w hv)) hnd hpoll hothers
    refine foldlM_cons_eq_ok.mpr ⟨_, hinsert, ?_⟩
    rw [hrest]
    simp [List.append_assoc]

/-- A first poll of its id, of a known account and with every window once, is written. -/
theorem recordPoll_of_fresh [F64 F] {event : PollEvent F} {windows : List (QuotaWindow F)}
    (haccount : ∃ a ∈ st.account, a.id = event.account)
    (hevent : ∀ row ∈ st.pollEvent, row.id ≠ event.id)
    (hsnapshots : ∀ w ∈ windows, ∀ row ∈ st.quotaSnapshot,
      row.pollId = event.id → row.windowId ≠ w.id)
    (hused : ∀ w ∈ windows, F64.isNaN w.used = false)
    (hnd : (windows.map QuotaWindow.id).Nodup) :
    recordPoll json noFaults st event windows [] =
      (.ok (), { st with
        pollEvent := st.pollEvent ++ [eventRow json event]
        quotaSnapshot := st.quotaSnapshot ++ windows.map (snapshotRow event.id) }) := by
  have hfresh : (st.pollEvent.any fun row => row.id == (eventRow json event).id) = false := by
    rw [List.any_eq_false]
    intro row hrow heq
    exact hevent row hrow (eq_of_beq heq)
  have hparent : (st.account.any fun a => a.id == (eventRow json event).accountId) = true := by
    obtain ⟨a, ha, hid⟩ := haccount
    exact List.any_eq_true.mpr ⟨a, ha, beq_iff_eq.mpr hid⟩
  have hinsert : insertPollEvent (eventRow json event) st =
      .ok { st with pollEvent := st.pollEvent ++ [eventRow json event] } := by
    simp only [insertPollEvent, hfresh, hparent]
    rfl
  have hpoll : ∃ row ∈ st.pollEvent ++ [eventRow json event], row.id = event.id :=
    ⟨eventRow json event, by simp, rfl⟩
  have hall := @insertSnapshots_of_fresh F _ event.id windows
    { st with pollEvent := st.pollEvent ++ [eventRow json event] } hused hnd hpoll hsnapshots
  have hexec : execute noFaults 0 (recordPollStmts json event windows []) st =
      .ok { st with
        pollEvent := st.pollEvent ++ [eventRow json event]
        quotaSnapshot := st.quotaSnapshot ++ windows.map (snapshotRow event.id) } := by
    rw [execute_noFaults, recordPollStmts]
    refine foldlM_cons_eq_ok.mpr ⟨st, rfl, foldlM_cons_eq_ok.mpr ⟨_, hinsert, ?_⟩⟩
    rw [List.map_nil, List.append_eq, List.append_nil]
    exact hall
  rw [recordPoll, hexec]

end Storage
end Teiryo
