import Teiryo.Core.StorageSpec
import Teiryo.Daemon.SetConfig

/-!
# Restarting from the database

A run of polls of one account, once as the live daemon folds it and once as a fresh daemon reads
it back. This module is about the caches and the health counters.
-/

namespace Teiryo

/-- A poll, and how its transaction fails if it does. -/
abbrev RecordedPoll (F : Type) := Storage.Faults × PollEvent F

namespace Daemon

variable {F : Type} [F64 F]

def record (json : SerdeJson F) (d : Daemon F) (poll : RecordedPoll F) : Daemon F :=
  d.recordEvent json poll.1 poll.2

def recordAll (json : SerdeJson F) (d : Daemon F) (run : List (RecordedPoll F)) : Daemon F :=
  run.foldl (record json) d

omit [F64 F] in
/-- The events of a run. -/
def eventsOf (run : List (RecordedPoll F)) : List (PollEvent F) := run.map (·.2)

/-- Every poll of the run was persisted. -/
def Persisted (json : SerdeJson F) (d : Daemon F) (run : List (RecordedPoll F)) : Prop :=
  StepsMeet (record json) (fun d poll => d.persists json poll.1 poll.2) d run

instance (json : SerdeJson F) (d : Daemon F) (run : List (RecordedPoll F)) :
    Decidable (Persisted json d run) :=
  inferInstanceAs (Decidable (StepsMeet (record json)
    (fun d poll => d.persists json poll.1 poll.2) d run))

omit [F64 F] in
/-- The daemon holds nothing about the account in memory. -/
structure Unseen (d : Daemon F) (account : Account) : Prop where
  latestPoll : d.state.latestPoll.get account.id = none
  latestSuccess : d.state.latestSuccess.get account.id = none
  health : (d.state.health.get (account.provider, account.id)).getD {} = {}
  starts : ∀ w, d.state.observedStarts.get (account.id, w) = none

omit [F64 F] in
theorem unseen_new (storage : Storage F) (path : String) (known : List ProviderId)
    (now : DateTime) (account : Account) : Unseen (new storage path known now) account :=
  ⟨rfl, rfl, rfl, fun _ => rfl⟩

omit [F64 F] in
/-- Nothing is stored about the account either. -/
structure Unstored (storage : Storage F) (account : Account) : Prop where
  pollEvent : ∀ row ∈ storage.pollEvent, row.accountId ≠ account.id
  windowRollover : ∀ row ∈ storage.windowRollover, row.accountId ≠ account.id

/-- A run of one account on a daemon that knows nothing of it, all of it persisted. -/
structure AccountRun (json : SerdeJson F) (account : Account) (d : Daemon F)
    (run : List (RecordedPoll F)) : Prop where
  unseen : Unseen d account
  unstored : Unstored d.state.storage account
  ofAccount : ∀ e ∈ eventsOf run, e.account = account.id
  ofProvider : ∀ e ∈ eventsOf run, e.provider = account.provider
  ids : (eventsOf run).Pairwise fun a b => a.id < b.id
  roundTrips : ∀ e ∈ eventsOf run, json.RoundTrips e
  persisted : Persisted json d run

variable {json : SerdeJson F} {account : Account} {d : Daemon F} {run : List (RecordedPoll F)}

theorem recordAll_concat (json : SerdeJson F) (d : Daemon F) (run : List (RecordedPoll F))
    (poll : RecordedPoll F) :
    recordAll json d (run ++ [poll]) = record json (recordAll json d run) poll := by
  simp [recordAll, List.foldl_append]

omit [F64 F] in
private theorem eventsOf_concat (run : List (RecordedPoll F)) (poll : RecordedPoll F) :
    eventsOf (run ++ [poll]) = eventsOf run ++ [poll.2] := by
  simp [eventsOf]

omit [F64 F] in
theorem mem_eventsOf_append {run more : List (RecordedPoll F)} {e : PollEvent F} :
    e ∈ eventsOf (run ++ more) ↔ e ∈ eventsOf run ∨ e ∈ eventsOf more := by
  simp only [eventsOf, List.map_append, List.mem_append]

theorem Persisted.init {poll : RecordedPoll F} (h : Persisted json d (run ++ [poll])) :
    Persisted json d run :=
  ((stepsMeet_append d run [poll]).mp h).1

/-- What holds of a run holds of it without its last poll. -/
theorem AccountRun.init {poll : RecordedPoll F} (h : AccountRun json account d (run ++ [poll])) :
    AccountRun json account d run := by
  have hmem : ∀ e ∈ eventsOf run, e ∈ eventsOf (run ++ [poll]) :=
    fun e he => mem_eventsOf_append.mpr (.inl he)
  have hids := h.ids
  rw [eventsOf_concat] at hids
  exact ⟨h.unseen, h.unstored, fun e he => h.ofAccount e (hmem e he),
    fun e he => h.ofProvider e (hmem e he), (List.pairwise_append.mp hids).1,
    fun e he => h.roundTrips e (hmem e he), h.persisted.init⟩

omit [F64 F] in
theorem mem_eventsOf_concat {poll : RecordedPoll F} : poll.2 ∈ eventsOf (run ++ [poll]) :=
  mem_eventsOf_append.mpr (.inr (List.mem_singleton.mpr rfl))

/-- The live caches and counters after a run, from its events. -/
structure LiveCaches (d : Daemon F) (account : Account) (events : List (PollEvent F)) : Prop where
  latestPoll : d.state.latestPoll.get account.id = events.getLast?
  latestSuccess : d.state.latestSuccess.get account.id =
    (events.filter (·.outcome.isSuccess)).getLast?
  failures : ((d.state.health.get (account.provider, account.id)).getD {}).consecutiveFailures =
    UInt32.ofNat (failuresSince events)
  lastError : ((d.state.health.get (account.provider, account.id)).getD {}).lastError =
    events.getLast?.bind (·.outcome.errorMessage)

theorem liveCaches_record {events : List (PollEvent F)} (h : LiveCaches d account events)
    {poll : RecordedPoll F} (haccount : poll.2.account = account.id)
    (hprovider : poll.2.provider = account.provider) :
    LiveCaches (record json d poll) account (events ++ [poll.2]) := by
  have hkey : (poll.2.provider, poll.2.account) = (account.provider, account.id) := by
    rw [haccount, hprovider]
  have hhealth : ((record json d poll).state.health.get (account.provider, account.id)).getD {} =
      nextHealth ((d.state.health.get (account.provider, account.id)).getD {})
        poll.2.outcome.errorMessage := by
    simp only [record, recordEvent, hkey, Dict.get_insert_self, Option.getD_some]
  have hsuccess := poll.2.outcome.errorMessage_eq_none_iff
  refine ⟨?_, ?_, ?_, ?_⟩
  · simp only [record, recordEvent, haccount, Dict.get_insert_self, List.getLast?_concat]
  · cases hmsg : poll.2.outcome.errorMessage with
    | none =>
      have hok := hsuccess.mp hmsg
      simp [record, recordEvent, hmsg, haccount, List.filter_append, hok]
    | some msg =>
      have hfail : poll.2.outcome.isSuccess = false := by
        rw [← Bool.not_eq_true, ← hsuccess, hmsg]
        exact Option.some_ne_none msg
      have hfilter : (events ++ [poll.2]).filter (·.outcome.isSuccess) =
          events.filter (·.outcome.isSuccess) := by
        simp [List.filter_append, hfail]
      simp only [record, recordEvent, hmsg, Option.isNone_some, hfilter]
      exact h.latestSuccess
  · rw [hhealth, failuresSince_concat]
    cases hmsg : poll.2.outcome.errorMessage with
    | none =>
      rw [hsuccess.mp hmsg]
      rfl
    | some msg =>
      have hfail : poll.2.outcome.isSuccess = false := by
        rw [← Bool.not_eq_true, ← hsuccess, hmsg]
        exact Option.some_ne_none msg
      rw [hfail]
      simp only [nextHealth, h.failures]
      exact (UInt32.ofNat_add _ _).symm
  · rw [hhealth, List.getLast?_concat]
    cases hmsg : poll.2.outcome.errorMessage <;> simp [nextHealth, hmsg]

theorem AccountRun.liveCaches (h : AccountRun json account d run) :
    LiveCaches (recordAll json d run) account (eventsOf run) := by
  induction run using List.reverseRecOn with
  | nil =>
    have hhealth := h.unseen.health
    refine ⟨h.unseen.latestPoll, h.unseen.latestSuccess, ?_, ?_⟩
    · rw [recordAll, List.foldl_nil, hhealth]
      rfl
    · rw [recordAll, List.foldl_nil, hhealth]
      rfl
  | append_singleton run poll ih =>
    rw [recordAll_concat, eventsOf_concat]
    exact liveCaches_record (ih h.init) (h.ofAccount _ mem_eventsOf_concat)
      (h.ofProvider _ mem_eventsOf_concat)

theorem Persisted.recorded {poll : RecordedPoll F} (h : Persisted json d (run ++ [poll])) :
    Storage.Recorded json (recordAll json d run).state.storage
      (recordAll json d (run ++ [poll])).state.storage poll.2 poll.2.outcome.windows
      (detected (recordAll json d run).state poll.2) := by
  have hlast := ((stepsMeet_append d run [poll]).mp h).2.1
  rw [recordAll_concat]
  exact Storage.recordPoll_ok hlast

private theorem Persisted.storage_pollEvent (h : Persisted json d run) :
    (recordAll json d run).state.storage.pollEvent =
      d.state.storage.pollEvent ++ (eventsOf run).map (Storage.eventRow json) := by
  induction run using List.reverseRecOn with
  | nil => simp [recordAll, eventsOf]
  | append_singleton run poll ih =>
    rw [h.recorded.pollEvent_eq, ih h.init, eventsOf_concat]
    simp

theorem AccountRun.rows (h : AccountRun json account d run) :
    Storage.Rows json (recordAll json d run).state.storage account.id (eventsOf run) := by
  refine ⟨?_, h.ids, h.roundTrips⟩
  have hold : d.state.storage.pollEvent.filter (·.accountId == account.id) = [] := by
    rw [List.filter_eq_nil_iff]
    intro row hrow
    simpa using h.unstored.pollEvent row hrow
  have hnew : ((eventsOf run).map (Storage.eventRow json)).filter (·.accountId == account.id) =
      (eventsOf run).map (Storage.eventRow json) := by
    rw [List.filter_eq_self]
    intro row hrow
    obtain ⟨e, he, rfl⟩ := List.mem_map.mp hrow
    simpa [Storage.eventRow] using h.ofAccount e he
  rw [h.persisted.storage_pollEvent, List.filter_append, hold, hnew, List.nil_append]

omit [F64 F] in
private theorem get_restored {cache : Dict AccountId (PollEvent F)}
    (hcache : cache.get account.id = none) (found : Option (PollEvent F)) :
    (restored cache account.id (.ok found)).get account.id = found := by
  cases found with
  | none => exact hcache
  | some e => simp [restored]

/-- The caches and counters after `hydrate_account` on a daemon that holds nothing about the
account, from the stored events. -/
theorem hydrated_caches {d : Daemon F} {events : List (PollEvent F)} (hd : Unseen d account)
    (h : Storage.Rows json d.state.storage account.id events) (now : DateTime) :
    (d.hydrateAccount json account now).state.latestPoll.get account.id =
        events.getLast?.map (·.stored) ∧
      (d.hydrateAccount json account now).state.latestSuccess.get account.id =
        (events.filter (·.outcome.isSuccess)).getLast?.map (·.stored) ∧
      (d.hydrateAccount json account now).state.health.get (account.provider, account.id) = some {
        consecutiveFailures := UInt32.ofNat (min (failuresSince events) (2 ^ 32 - 1))
        lastError := events.getLast?.bind (·.outcome.errorMessage) } := by
  have hpoll : (d.hydrateAccount json account now).state.latestPoll.get account.id =
      events.getLast?.map (·.stored) := by
    simp only [hydrateAccount, Storage.latestPollFor_eq h]
    exact get_restored hd.latestPoll _
  have hsuccess : (d.hydrateAccount json account now).state.latestSuccess.get account.id =
      (events.filter (·.outcome.isSuccess)).getLast?.map (·.stored) := by
    simp only [hydrateAccount, Storage.latestSuccessFor_eq h]
    exact get_restored hd.latestSuccess _
  have herror : ((d.hydrateAccount json account now).state.latestPoll.get account.id).bind
      (·.outcome.errorMessage) = events.getLast?.bind (·.outcome.errorMessage) := by
    rw [hpoll, Option.bind_map]
    rfl
  refine ⟨hpoll, hsuccess, ?_⟩
  rw [← herror, ← Storage.consecutiveFailuresFor_eq h]
  exact Dict.get_insert_self _ _ _

/-- The two daemons hold the same caches and counters, up to the milliseconds the database keeps,
and in both the failure counter is zero exactly when no error is held. -/
structure SameCaches (live restarted : Daemon F) (account : Account) : Prop where
  latestPoll : restarted.state.latestPoll.get account.id =
    (live.state.latestPoll.get account.id).map (·.stored)
  latestSuccess : restarted.state.latestSuccess.get account.id =
    (live.state.latestSuccess.get account.id).map (·.stored)
  health : (restarted.state.health.get (account.provider, account.id)).getD {} =
    (live.state.health.get (account.provider, account.id)).getD {}
  live_healthy : ((live.state.health.get (account.provider, account.id)).getD
    {}).consecutiveFailures = 0 ↔
    ((live.state.health.get (account.provider, account.id)).getD {}).lastError = none
  restarted_healthy : ((restarted.state.health.get (account.provider, account.id)).getD
    {}).consecutiveFailures = 0 ↔
    ((restarted.state.health.get (account.provider, account.id)).getD {}).lastError = none

omit [F64 F] in
private theorem lastError_eq_none_iff (events : List (PollEvent F)) :
    events.getLast?.bind (·.outcome.errorMessage) = none ↔ failuresSince events = 0 := by
  induction events using List.reverseRecOn with
  | nil => exact iff_of_true rfl rfl
  | append_singleton events e ih =>
    rw [List.getLast?_concat, failuresSince_concat, Option.bind_some,
      PollOutcome.errorMessage_eq_none_iff]
    cases e.outcome.isSuccess with
    | true => simp
    | false => simp

private theorem ofNat_eq_min_iff (n : Nat) :
    UInt32.ofNat (min n (2 ^ 32 - 1)) = UInt32.ofNat n ↔
      n < 2 ^ 32 ∨ n % 2 ^ 32 = 2 ^ 32 - 1 := by
  rw [← UInt32.toNat_inj, UInt32.toNat_ofNat', UInt32.toNat_ofNat']
  omega

private theorem ofNat_eq_zero_iff {n : Nat} (h : n < 2 ^ 32 ∨ n % 2 ^ 32 = 2 ^ 32 - 1) :
    UInt32.ofNat n = 0 ↔ n = 0 := by
  rw [← UInt32.toNat_inj, UInt32.toNat_ofNat']
  change n % 2 ^ 32 = 0 ↔ n = 0
  omega

private theorem failuresSince_of_sameCaches (h : AccountRun json account d run) (path : String)
    (known : List ProviderId) (start now : DateTime)
    (hsame : SameCaches (recordAll json d run)
      ((new (recordAll json d run).state.storage path known start).hydrateAccount json account now)
      account) :
    failuresSince (eventsOf run) < 2 ^ 32 ∨
      failuresSince (eventsOf run) % 2 ^ 32 = 2 ^ 32 - 1 := by
  obtain ⟨-, -, hhealth⟩ := hydrated_caches (unseen_new
    (recordAll json d run).state.storage path known start account) h.rows now
  have hcount := congrArg HealthCounters.consecutiveFailures hsame.health
  rw [hhealth, h.liveCaches.failures] at hcount
  exact (ofNat_eq_min_iff _).mp hcount

/-- A restart rebuilds the caches and counters of the live daemon exactly when the failures since
the last success fit the live counter, or wrapped around to just where the stored count stops. -/
theorem restart_sameCaches_iff (h : AccountRun json account d run) (path : String)
    (known : List ProviderId) (start now : DateTime) :
    SameCaches (recordAll json d run)
      ((new (recordAll json d run).state.storage path known start).hydrateAccount json account now)
      account ↔
      failuresSince (eventsOf run) < 2 ^ 32 ∨
        failuresSince (eventsOf run) % 2 ^ 32 = 2 ^ 32 - 1 := by
  have hlive := h.liveCaches
  obtain ⟨hpoll, hsuccess, hhealth⟩ := hydrated_caches (unseen_new
    (recordAll json d run).state.storage path known start account) h.rows now
  have hlast := lastError_eq_none_iff (eventsOf run)
  constructor
  · exact failuresSince_of_sameCaches h path known start now
  · intro hfits
    have hcount := (ofNat_eq_min_iff _).mpr hfits
    have hzero := (ofNat_eq_zero_iff hfits).trans hlast.symm
    have hlivehealth : ((recordAll json d run).state.health.get
        (account.provider, account.id)).getD {} = {
          consecutiveFailures := UInt32.ofNat (failuresSince (eventsOf run))
          lastError := (eventsOf run).getLast?.bind (·.outcome.errorMessage) } := by
      rw [← hlive.failures, ← hlive.lastError]
    refine ⟨?_, ?_, ?_, ?_, ?_⟩
    · rw [hpoll, hlive.latestPoll]
    · rw [hsuccess, hlive.latestSuccess]
    · rw [hhealth, hlivehealth, Option.getD_some, hcount]
    · rw [hlivehealth]
      exact hzero
    · rw [hhealth, Option.getD_some, hcount]
      exact hzero

def claudeAccount : Account where
  id := ⟨"claude:a"⟩
  provider := "claude"
  label := "a"

/-- A daemon over a database that knows the account and nothing else. -/
def claudeDaemon : Daemon ℚ :=
  new (Storage.empty.upsertAccount claudeAccount) "config.toml" ["claude"] 0

/-- The `n`-th poll of an outage, one every ten seconds. -/
def failedPoll (n : Nat) : RecordedPoll ℚ :=
  (Storage.noFaults, {
    id := Fin.ofNat (2 ^ 128) (n + 1), ts := millisToTs (10000 * n), provider := "claude"
    account := ⟨"claude:a"⟩, trigger := .scheduled, outcome := .networkError "timeout"
    latencyMs := 0 })

def outage (n : Nat) : List (RecordedPoll ℚ) := (List.range n).map failedPoll

def outageJson : SerdeJson ℚ :=
  .table [("\"Scheduled\"", .scheduled)]
    [("\x7b\"NetworkError\":\"timeout\"\x7d", .networkError "timeout")]

private theorem outage_succ (n : Nat) : outage (n + 1) = outage n ++ [failedPoll n] := by
  simp [outage, List.range_succ]

private theorem failuresSince_outage (n : Nat) : failuresSince (eventsOf (outage n)) = n := by
  induction n with
  | zero => rfl
  | succ n ih =>
    rw [outage_succ, eventsOf_concat, failuresSince_concat, ih]
    rfl

private theorem failedPoll_id {n : Nat} (h : n < 2 ^ 32) : (failedPoll n).2.id.val = n + 1 := by
  change (n + 1) % 2 ^ 128 = n + 1
  omega

private theorem Persisted.storage_account (h : Persisted json d run) :
    (recordAll json d run).state.storage.account = d.state.storage.account := by
  induction run using List.reverseRecOn with
  | nil => rfl
  | append_singleton run poll ih => rw [h.recorded.account_eq, ih h.init]

private theorem persists_failure {d : Daemon F} {e : PollEvent F}
    (hfail : e.outcome.windows = []) (haccount : d.state.storage.account.any (·.id == e.account))
    (hfresh : ∀ row ∈ d.state.storage.pollEvent, row.id ≠ e.id) :
    d.persists json Storage.noFaults e := by
  obtain ⟨a, ha, hid⟩ := List.any_eq_true.mp haccount
  have hwritten := @Storage.recordPoll_of_fresh F json d.state.storage _ e []
    ⟨a, ha, eq_of_beq hid⟩ hfresh nofun nofun List.nodup_nil
  have hdetect : detected d.state e = [] := by
    rw [detected, hfail]
    exact detect_next_nil _ _ _ _ _
  rw [persists, hfail, hdetect, hwritten]

private theorem accountRun_of_persisted {n : Nat} (hn : n ≤ 2 ^ 32)
    (hpersisted : Persisted outageJson claudeDaemon (outage n)) :
    AccountRun outageJson claudeAccount claudeDaemon (outage n) := by
  have htrigger : outageJson.triggerFromStr (outageJson.triggerToString .scheduled) =
      .ok .scheduled := by decide
  have houtcome : outageJson.outcomeFromStr (outageJson.outcomeToString
      (.networkError "timeout")) = .ok (.networkError "timeout") := by decide
  have hmem : ∀ e ∈ eventsOf (outage n), ∃ i, i < n ∧ e = (failedPoll i).2 := by
    intro e he
    simp only [eventsOf, outage, List.map_map, List.mem_map, List.mem_range] at he
    obtain ⟨i, hi, rfl⟩ := he
    exact ⟨i, hi, rfl⟩
  have hunstored : Unstored claudeDaemon.state.storage claudeAccount :=
    ⟨by decide, by decide⟩
  refine ⟨unseen_new _ _ _ _ _, hunstored, ?_, ?_, ?_, ?_, hpersisted⟩
  · intro e he
    obtain ⟨i, -, rfl⟩ := hmem e he
    rfl
  · intro e he
    obtain ⟨i, -, rfl⟩ := hmem e he
    rfl
  · simp only [eventsOf, outage, List.map_map, List.pairwise_map]
    refine List.pairwise_lt_range.imp_of_mem ?_
    intro i j hi hj hlt
    rw [List.mem_range] at hi hj
    rw [Fin.lt_def]
    simp only [Function.comp_apply]
    rw [failedPoll_id (by omega), failedPoll_id (by omega)]
    omega
  · intro e he
    obtain ⟨i, -, rfl⟩ := hmem e he
    exact ⟨htrigger, houtcome⟩

private theorem persisted_outage {n : Nat} (hn : n ≤ 2 ^ 32) :
    Persisted outageJson claudeDaemon (outage n) := by
  induction n with
  | zero => trivial
  | succ n ih =>
    have hrun := accountRun_of_persisted (by omega) (ih (by omega))
    rw [outage_succ]
    refine (stepsMeet_append _ _ _).mpr ⟨hrun.persisted, ?_, trivial⟩
    change (recordAll outageJson claudeDaemon (outage n)).persists outageJson Storage.noFaults _
    apply persists_failure
    · rfl
    · have hknown : (claudeDaemon.state.storage.account.any (·.id == ⟨"claude:a"⟩)) = true := by
        decide
      rw [hrun.persisted.storage_account]
      exact hknown
    · intro row hrow heq
      rw [hrun.persisted.storage_pollEvent] at hrow
      have hrow' : row ∈ (eventsOf (outage n)).map (Storage.eventRow outageJson) := hrow
      simp only [eventsOf, outage, List.map_map] at hrow'
      obtain ⟨i, hi, rfl⟩ := List.mem_map.mp hrow'
      rw [List.mem_range] at hi
      have hid := congrArg Fin.val heq
      change (failedPoll i).2.id.val = (failedPoll n).2.id.val at hid
      rw [failedPoll_id (by omega), failedPoll_id (by omega)] at hid
      omega

private theorem accountRun_outage {n : Nat} (hn : n ≤ 2 ^ 32) :
    AccountRun outageJson claudeAccount claudeDaemon (outage n) :=
  accountRun_of_persisted hn (persisted_outage hn)

theorem restart_sameCaches_three_failures :
    SameCaches (recordAll outageJson claudeDaemon (outage 3))
      ((new (recordAll outageJson claudeDaemon (outage 3)).state.storage "config.toml" ["claude"]
        0).hydrateAccount outageJson claudeAccount 0) claudeAccount := by
  apply (restart_sameCaches_iff (accountRun_outage (by omega)) _ _ _ _).mpr
  left
  rw [failuresSince_outage]
  omega

/-- After 2³² failures in a row the live counter is back at zero while the stored count stops at
its maximum. -/
theorem restart_differs_after_wraparound :
    AccountRun outageJson claudeAccount claudeDaemon (outage (2 ^ 32)) ∧
      ¬ SameCaches (recordAll outageJson claudeDaemon (outage (2 ^ 32)))
        ((new (recordAll outageJson claudeDaemon (outage (2 ^ 32))).state.storage "config.toml"
          ["claude"] 0).hydrateAccount outageJson claudeAccount 0) claudeAccount := by
  have hrun := accountRun_outage (Nat.le_refl (2 ^ 32))
  refine ⟨hrun, ?_⟩
  intro hsame
  have hfits := failuresSince_of_sameCaches hrun _ _ _ _ hsame
  rw [failuresSince_outage] at hfits
  omega

end Daemon
end Teiryo
