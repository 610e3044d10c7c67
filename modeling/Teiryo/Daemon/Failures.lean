import Teiryo.Daemon.AnchorHistory

/-!
# Failed polls

A failure goes through the same code as a success, with an empty window list. It is inert there:
the windows, anchors and rollovers of a run are those of its successes alone.
-/

namespace Teiryo

variable {F : Type} [F64 F]

namespace Storage

/-- The second database lacks some poll events of the first, none of them the given poll's, and is
otherwise the same. -/
structure Lags (poll : PollId) (tx tx' : Storage F) : Prop where
  account_eq : tx'.account = tx.account
  quotaSnapshot_eq : tx'.quotaSnapshot = tx.quotaSnapshot
  windowRollover_eq : tx'.windowRollover = tx.windowRollover
  pollEvent_subset : ∀ row ∈ tx'.pollEvent, row ∈ tx.pollEvent
  pollEvent_current : ∀ row ∈ tx.pollEvent, row.id = poll → row ∈ tx'.pollEvent

variable {poll : PollId} {tx tx' mid : Storage F}

omit [F64 F] in
private theorem Lags.any_pollEvent (h : Lags poll tx tx') :
    tx'.pollEvent.any (·.id == poll) = tx.pollEvent.any (·.id == poll) := by
  rw [Bool.eq_iff_iff, List.any_eq_true, List.any_eq_true]
  constructor
  · rintro ⟨row, hrow, hid⟩
    exact ⟨row, h.pollEvent_subset row hrow, hid⟩
  · rintro ⟨row, hrow, hid⟩
    exact ⟨row, h.pollEvent_current row hrow (beq_iff_eq.mp hid), hid⟩

/-- A statement that succeeds on a database succeeds on the one that lags behind it. -/
def Follows (poll : PollId) (stmt : Storage F → Except StorageError (Storage F)) : Prop :=
  ∀ tx tx' mid : Storage F, Lags poll tx tx' → stmt tx = .ok mid →
    ∃ mid', stmt tx' = .ok mid' ∧ Lags poll mid mid'

omit [F64 F] in
private theorem insertPollEvent_follows (row : PollEventRow) :
    Follows poll (insertPollEvent (F := F) row) := by
  intro tx tx' mid hlags h
  obtain ⟨hfresh, rfl⟩ := insertPollEvent_ok h
  have hknown : tx.account.any (·.id == row.accountId) = true := by
    unfold insertPollEvent at h
    split at h
    · cases h
    · split at h
      · assumption
      · cases h
  have hnew : tx'.pollEvent.any (·.id == row.id) = false := by
    rw [List.any_eq_false]
    intro r hr
    simpa using hfresh r (hlags.pollEvent_subset r hr)
  refine ⟨{ tx' with pollEvent := tx'.pollEvent ++ [row] }, ?_, ?_⟩
  · rw [insertPollEvent, hnew, hlags.account_eq, hknown]
    rfl
  · refine ⟨hlags.account_eq, hlags.quotaSnapshot_eq, hlags.windowRollover_eq, ?_, ?_⟩
    · intro r hr
      rcases List.mem_append.mp hr with hr | hr
      · exact List.mem_append_left _ (hlags.pollEvent_subset r hr)
      · exact List.mem_append_right _ hr
    · intro r hr hid
      rcases List.mem_append.mp hr with hr | hr
      · exact List.mem_append_left _ (hlags.pollEvent_current r hr hid)
      · exact List.mem_append_right _ hr

private theorem insertQuotaSnapshot_follows (w : QuotaWindow F) :
    Follows poll (insertQuotaSnapshot poll w) := by
  intro tx tx' mid hlags h
  have hmid := (insertQuotaSnapshot_ok h).2
  refine ⟨{ tx' with quotaSnapshot := tx'.quotaSnapshot ++ [snapshotRow poll w] }, ?_, ?_⟩
  · unfold insertQuotaSnapshot at h ⊢
    rw [hlags.quotaSnapshot_eq, hlags.any_pollEvent]
    cases hused : realParam w.used with
    | none =>
      rw [hused] at h
      cases h
    | some used =>
      have hval : used = w.used := by
        unfold realParam at hused
        split at hused
        · cases hused
        · exact (Option.some.inj hused).symm
      subst hval
      simp only [hused] at h ⊢
      split at h
      · cases h
      · rename_i hfresh
        rw [if_neg hfresh]
        split at h
        · rename_i hpoll
          rw [if_pos hpoll]
          rfl
        · cases h
  · subst hmid
    refine ⟨hlags.account_eq, ?_, hlags.windowRollover_eq, hlags.pollEvent_subset,
      hlags.pollEvent_current⟩
    rw [hlags.quotaSnapshot_eq]

private theorem insertWindowRollover_follows {r : WindowRollover F} (hpoll : r.poll = poll) :
    Follows poll (insertWindowRollover r) := by
  intro tx tx' mid hlags h
  have hmid := insertWindowRollover_ok h
  subst hpoll
  refine ⟨{ tx' with windowRollover := tx'.windowRollover ++ [rolloverRow r] }, ?_, ?_⟩
  · unfold insertWindowRollover at h ⊢
    rw [hlags.windowRollover_eq, hlags.any_pollEvent, hlags.account_eq]
    split at h
    · split at h
      · cases h
      · rename_i hfresh
        rw [if_neg hfresh]
        split at h
        · rename_i hknown
          rw [if_pos hknown]
        · cases h
    · cases h
  · subst hmid
    refine ⟨hlags.account_eq, hlags.quotaSnapshot_eq, ?_, hlags.pollEvent_subset,
      hlags.pollEvent_current⟩
    rw [hlags.windowRollover_eq]

omit [F64 F] in
private theorem execute_follows {faults : Faults}
    {stmts : List (Storage F → Except StorageError (Storage F))} {n : Nat}
    (hstmts : ∀ stmt ∈ stmts, Follows poll stmt) : Follows poll (execute faults n stmts) := by
  induction stmts generalizing n with
  | nil =>
    intro tx tx' mid hlags h
    simp only [execute] at h ⊢
    split at h
    · cases h
    · cases h
      exact ⟨tx', rfl, hlags⟩
  | cons stmt stmts ih =>
    intro tx tx' mid hlags h
    simp only [execute] at h ⊢
    split at h
    · cases h
    · obtain ⟨next, hstmt, hrest⟩ := bind_eq_ok.mp h
      obtain ⟨next', hstmt', hnext⟩ := hstmts stmt List.mem_cons_self tx tx' next hlags hstmt
      obtain ⟨mid', hrest', hmid⟩ :=
        ih (fun s hs => hstmts s (List.mem_cons_of_mem _ hs)) next next' mid hnext hrest
      exact ⟨mid', bind_eq_ok.mpr ⟨next', hstmt', hrest'⟩, hmid⟩

private theorem recordPoll_follows {json : SerdeJson F} {faults : Faults} {st st' : Storage F}
    {event : PollEvent F} {windows : List (QuotaWindow F)} {rollovers : List (WindowRollover F)}
    (hpoll : ∀ r ∈ rollovers, r.poll = event.id) (hlags : Lags event.id st st')
    (h : (recordPoll json faults st event windows rollovers).1 = .ok ()) :
    (recordPoll json faults st' event windows rollovers).1 = .ok () ∧
      Lags event.id (recordPoll json faults st event windows rollovers).2
        (recordPoll json faults st' event windows rollovers).2 := by
  have hstmts : ∀ stmt ∈ recordPollStmts json event windows rollovers,
      Follows event.id stmt := by
    intro stmt hstmt
    simp only [recordPollStmts, List.mem_cons, List.cons_append, List.mem_append,
      List.mem_map] at hstmt
    rcases hstmt with rfl | rfl | ⟨w, -, rfl⟩ | ⟨r, hr, rfl⟩
    · intro tx tx' mid hlags h
      cases h
      exact ⟨tx', rfl, hlags⟩
    · exact insertPollEvent_follows _
    · exact insertQuotaSnapshot_follows w
    · exact insertWindowRollover_follows (hpoll r hr)
  unfold recordPoll at h ⊢
  cases hexec : execute faults 0 (recordPollStmts json event windows rollovers) st with
  | error e =>
    rw [hexec] at h
    cases h
  | ok tx =>
    obtain ⟨tx', hexec', htx⟩ := execute_follows hstmts st st' tx hlags hexec
    rw [hexec']
    exact ⟨rfl, htx⟩

end Storage

namespace Daemon

variable {json : SerdeJson F} {d d' : Daemon F} {run : List (RecordedPoll F)}

/-- The daemon after a failed poll that was persisted: the account's last poll, its health
counters, the event's own row and the published event are new. -/
def afterFailure (json : SerdeJson F) (d : Daemon F) (e : PollEvent F) : Daemon F :=
  { d with
    state := { d.state with
      latestPoll := d.state.latestPoll.insert e.account e
      health := d.state.health.insert (e.provider, e.account) {
        consecutiveFailures :=
          ((d.state.health.get (e.provider, e.account)).getD {}).consecutiveFailures + 1
        lastError := e.outcome.errorMessage }
      storage := { d.state.storage with
        pollEvent := d.state.storage.pollEvent ++ [Storage.eventRow json e] } }
    watchTx := d.watchTx.sendReplace (some e) }

omit [F64 F] in
theorem windows_of_failure {o : PollOutcome F} (h : o.isSuccess = false) : o.windows = [] := by
  cases o with
  | success windows => cases h
  | authError => rfl
  | networkError => rfl
  | schemaDrift => rfl
  | rateLimited => rfl

private theorem detected_of_failure {e : PollEvent F} (h : e.outcome.isSuccess = false)
    (st : SharedState F) : detected st e = [] := by
  rw [detected, windows_of_failure h]
  exact detect_next_nil _ _ _ _ _

private theorem nextStarts_of_failure {e : PollEvent F} (h : e.outcome.isSuccess = false)
    (st : SharedState F) : nextStarts st e = st.observedStarts := by
  rw [nextStarts, detected_of_failure h, windows_of_failure h]
  rfl

private theorem record_failure {poll : RecordedPoll F} (hfail : poll.2.outcome.isSuccess = false)
    (hpersists : d.persists json poll.1 poll.2) :
    record json d poll = afterFailure json d poll.2 := by
  obtain ⟨msg, hmsg⟩ : ∃ msg, poll.2.outcome.errorMessage = some msg := by
    rw [← Option.ne_none_iff_exists', Ne, PollOutcome.errorMessage_eq_none_iff, hfail]
    exact Bool.false_ne_true
  have hrecorded := Storage.recordPoll_ok hpersists
  rw [detected_of_failure hfail, windows_of_failure hfail] at hrecorded
  have hstorage : (d.state.storage.recordPoll json poll.1 poll.2 [] []).2 =
      { d.state.storage with
        pollEvent := d.state.storage.pollEvent ++ [Storage.eventRow json poll.2] } := by
    have haccount := hrecorded.account_eq
    have hevent := hrecorded.pollEvent_eq
    have hsnapshot := hrecorded.quotaSnapshot_eq
    have hrollover := hrecorded.windowRollover_eq
    rw [List.map_nil, List.append_nil] at hsnapshot hrollover
    cases hst : (d.state.storage.recordPoll json poll.1 poll.2 [] []).2
    rw [hst] at haccount hevent hsnapshot hrollover
    subst haccount hevent hsnapshot hrollover
    rfl
  simp only [record, recordEvent, afterFailure, nextStarts_of_failure hfail,
    detected_of_failure hfail, windows_of_failure hfail, hstorage, hmsg]
  rfl

/-- The successful polls of a run. -/
def succeeded (run : List (RecordedPoll F)) : List (RecordedPoll F) :=
  run.filter (·.2.outcome.isSuccess)

/-- Everything the daemon knows about windows, in memory and stored. -/
structure SameWindows (d d' : Daemon F) : Prop where
  latestSuccess : d'.state.latestSuccess = d.state.latestSuccess
  observedStarts : d'.state.observedStarts = d.state.observedStarts
  quotaSnapshot : d'.state.storage.quotaSnapshot = d.state.storage.quotaSnapshot
  windowRollover : d'.state.storage.windowRollover = d.state.storage.windowRollover

/-- The second daemon saw the same polls but for some failures. -/
structure Aligned (d d' : Daemon F) : Prop extends SameWindows d d' where
  account : d'.state.storage.account = d.state.storage.account
  pollEvent_subset : ∀ row ∈ d'.state.storage.pollEvent, row ∈ d.state.storage.pollEvent

private theorem aligned_failure {poll : RecordedPoll F} (h : Aligned d d')
    (hfail : poll.2.outcome.isSuccess = false) (hpersists : d.persists json poll.1 poll.2) :
    Aligned (record json d poll) d' := by
  rw [record_failure hfail hpersists]
  refine ⟨⟨h.latestSuccess, h.observedStarts, h.quotaSnapshot, h.windowRollover⟩, h.account, ?_⟩
  intro row hrow
  exact List.mem_append_left _ (h.pollEvent_subset row hrow)

private theorem aligned_success {poll : RecordedPoll F} (h : Aligned d d')
    (hpersists : d.persists json poll.1 poll.2) :
    d'.persists json poll.1 poll.2 ∧ Aligned (record json d poll) (record json d' poll) := by
  have hdetected : detected d'.state poll.2 = detected d.state poll.2 := by
    rw [detected, detected, h.latestSuccess]
  have hpoll : ∀ r ∈ detected d.state poll.2, r.poll = poll.2.id := by
    intro r hr
    obtain ⟨before, after, hfound⟩ := detect_mem hr
    exact hfound.poll_eq
  have hlags : Storage.Lags poll.2.id d.state.storage d'.state.storage := by
    refine ⟨h.account, h.quotaSnapshot, h.windowRollover, h.pollEvent_subset, ?_⟩
    intro row hrow hid
    exact absurd hid ((Storage.recordPoll_ok hpersists).fresh row hrow)
  obtain ⟨hwritten, hafter⟩ := Storage.recordPoll_follows hpoll hlags hpersists
  refine ⟨?_, ⟨?_, ?_, ?_, ?_⟩, ?_, ?_⟩
  · rw [persists, hdetected]
    exact hwritten
  · simp only [record, recordEvent, h.latestSuccess]
  · simp only [record, recordEvent, nextStarts, hdetected, h.observedStarts]
  · simp only [record, recordEvent, hdetected]
    exact hafter.quotaSnapshot_eq
  · simp only [record, recordEvent, hdetected]
    exact hafter.windowRollover_eq
  · simp only [record, recordEvent, hdetected]
    exact hafter.account_eq
  · simp only [record, recordEvent, hdetected]
    exact hafter.pollEvent_subset

private theorem aligned_succeeded (h : Persisted json d run) :
    Persisted json d (succeeded run) ∧
      Aligned (recordAll json d run) (recordAll json d (succeeded run)) := by
  induction run using List.reverseRecOn with
  | nil => exact ⟨trivial, ⟨rfl, rfl, rfl, rfl⟩, rfl, fun _ hrow => hrow⟩
  | append_singleton run poll ih =>
    obtain ⟨hpersisted, haligned⟩ := ih h.init
    have hlast : (recordAll json d run).persists json poll.1 poll.2 :=
      ((stepsMeet_append d run [poll]).mp h).2.1
    have hsplit : succeeded (run ++ [poll]) = succeeded run ++ succeeded [poll] :=
      List.filter_append _ _
    rw [hsplit, recordAll_concat]
    cases hok : poll.2.outcome.isSuccess with
    | true =>
      have hkept : succeeded [poll] = [poll] := by simp [succeeded, hok]
      obtain ⟨hwritten, hafter⟩ := aligned_success haligned hlast
      rw [hkept, recordAll_concat]
      exact ⟨(stepsMeet_append _ _ _).mpr ⟨hpersisted, hwritten, trivial⟩, hafter⟩
    | false =>
      have hdropped : succeeded [poll] = [] := by simp [succeeded, hok]
      rw [hdropped, List.append_nil]
      exact ⟨hpersisted, aligned_failure haligned hok hlast⟩

/-- Failed polls leave no trace in what is known about windows, and each of them changes only what
is its own. -/
theorem failures_invisible (h : Persisted json d run) :
    Persisted json d (succeeded run) ∧
      SameWindows (recordAll json d run) (recordAll json d (succeeded run)) ∧
      ∀ init poll rest, run = init ++ poll :: rest → poll.2.outcome.isSuccess = false →
        record json (recordAll json d init) poll =
          afterFailure json (recordAll json d init) poll.2 := by
  obtain ⟨hpersisted, haligned⟩ := aligned_succeeded h
  refine ⟨hpersisted, haligned.toSameWindows, ?_⟩
  intro init poll rest hrun hfail
  subst hrun
  exact record_failure hfail ((stepsMeet_append d init (poll :: rest)).mp h).2.1

theorem failures_invisible_silentReset :
    Persisted silentResetJson claudeDaemon (succeeded silentReset) ∧
      SameWindows (recordAll silentResetJson claudeDaemon silentReset)
        (recordAll silentResetJson claudeDaemon (succeeded silentReset)) ∧
      ∀ init poll rest, silentReset = init ++ poll :: rest →
        poll.2.outcome.isSuccess = false →
          record silentResetJson (recordAll silentResetJson claudeDaemon init) poll =
            afterFailure silentResetJson (recordAll silentResetJson claudeDaemon init) poll.2 :=
  failures_invisible steadyRun_silentReset.persisted

end Daemon
end Teiryo
