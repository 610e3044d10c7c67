import Teiryo.Core.Storage
import Teiryo.Daemon.Config
import Teiryo.Framework.Channel

/-!
# Shared daemon state

The state every task of the daemon works on and the operations that change it, following
`teiryod/src/state.rs`. Each operation is a function on the whole `Daemon`; the clock is read at
most once per operation and is an argument.
-/

namespace Teiryo

/-- What the config currently says about one account's polling. -/
structure Schedule where
  enabled : Bool
  interval : StdDuration
  deriving DecidableEq, Repr

/-- Rolling health counters for one poll task. -/
structure HealthCounters where
  consecutiveFailures : UInt32 := 0
  lastError : Option String := none
  deriving DecidableEq, Repr

/-- The key of a poll task. -/
abbrev PollerKey := ProviderId × AccountId

structure SharedState (F : Type) where
  storage : Storage F
  accounts : List Account
  latestPoll : Dict AccountId (PollEvent F)
  latestSuccess : Dict AccountId (PollEvent F)
  health : Dict PollerKey HealthCounters
  pollers : List (PollerKey × Mailbox PollTrigger)
  schedules : Dict PollerKey (Watch Schedule)
  pollIntervals : Dict AccountId StdDuration
  config : Config
  configState : ConfigState
  knownProviders : List ProviderId
  presenters : Dict ProviderId (QuotaWindow F → RenderHint ℚ)
  observedStarts : Dict (AccountId × WindowId) ObservedStart

/-- The state and the daemon-wide channels. -/
structure Daemon (F : Type) where
  state : SharedState F
  watchTx : Watch (Option (PollEvent F))
  configTx : Watch Nat

/-- How far back `hydrateAccount` looks for the reset that anchors a window. -/
def anchorLookback : Duration := Duration.days 21

section Helpers

variable {F : Type}

/-- Whether a rollover is one the provider failed to announce. -/
def unannounced (r : WindowRollover F) : Bool := decide (r.kind = .unannounced)

/-- The spans of a payload's windows, for those that have one. -/
def spansOf (windows : List (QuotaWindow F)) : List (WindowId × Duration) :=
  windows.filterMap fun w => w.span.map fun span => (w.id, span)

def longestSpan (windows : List (QuotaWindow F)) : Duration :=
  (spansOf windows).foldl (fun longest s => max longest s.2) 0

/-- Drop anchors that can no longer describe a window currently running. -/
def pruneAnchors (starts : Dict (AccountId × WindowId) ObservedStart) (account : AccountId)
    (windows : List (QuotaWindow F)) (now : DateTime) :
    Dict (AccountId × WindowId) ObservedStart :=
  if longestSpan windows ≤ 0 then starts
  else
    starts.retain fun key start =>
      if key.1 ≠ account then true
      else
        match (Dict.collect (spansOf windows)).get key.2 with
        | some span => decide (now - start.estimate ≤ span)
        | none => true

/-- Whether a stored row still reads as an unannounced reset under the current rule. -/
def replaysAsAReset [F64 F] (r : WindowRollover F) (window : QuotaWindow F) : Bool :=
  if !unannounced r then false
  else
    let scaled (used : F) := { window with used := used }.utilization
    match scaled r.prevUsed, scaled r.newUsed with
    | some prev, some new => isCollapse prev new
    | _, _ => false

/-- Cadence in whole seconds, zero when there is none. -/
def intervalSecs (interval : Option StdDuration) : UInt32 :=
  match interval with
  | none => 0
  | some d => Config.secsToU32 (Config.asSecs d)

/-- What one provider's settings resolve to for its poll tasks. -/
def schedule (config : Config) (provider : ProviderId) : Schedule where
  enabled := config.providerEnabled provider
  interval := config.pollInterval provider

/-- The cadence to report to clients: zero while disabled. -/
def reported (s : Schedule) : StdDuration := if s.enabled then s.interval else 0

def defaultHint : RenderHint ℚ where
  style := .percent
  warnThreshold := 0.8
  criticalThreshold := 0.95
  note := none

/-- The windows a previous poll reported, or none when it was a failure. -/
def previousWindows (event : Option (PollEvent F)) : List (QuotaWindow F) :=
  match event with
  | some e => e.outcome.windows
  | none => []

/-- What a rollover just detected does to the anchors: an unannounced one sets the window's, any
other retires it. -/
def applyRollover (starts : Dict (AccountId × WindowId) ObservedStart) (r : WindowRollover F) :
    Dict (AccountId × WindowId) ObservedStart :=
  if unannounced r then starts.insert (r.account, r.window) (.fromRollover r)
  else starts.erase (r.account, r.window)

/-- What a stored rollover does to the anchors, under the scales of the last payload. -/
def replayRollover [F64 F] (scales : Dict WindowId (QuotaWindow F))
    (starts : Dict (AccountId × WindowId) ObservedStart) (r : WindowRollover F) :
    Dict (AccountId × WindowId) ObservedStart :=
  if (scales.get r.window).any (replaysAsAReset r) then
    starts.insert (r.account, r.window) (.fromRollover r)
  else if unannounced r then starts
  else starts.erase (r.account, r.window)

/-- The values of `windowsById`: of windows sharing an id, the last one. -/
def lastById : List (QuotaWindow F) → List (QuotaWindow F)
  | [] => []
  | w :: ws => if ws.any (fun v => v.id == w.id) then lastById ws else w :: lastById ws

end Helpers

namespace Daemon

variable {F : Type}

/-- Fresh daemon state around an opened storage. -/
def new (storage : Storage F) (configPath : String) (knownProviders : List ProviderId)
    (now : DateTime) : Daemon F where
  state := {
    storage, accounts := [], latestPoll := .empty, latestSuccess := .empty, health := .empty
    pollers := [], schedules := .empty, pollIntervals := .empty, config := {}
    configState := {
      path := configPath, generation := 0
      effective := Config.view {} knownProviders
      loadedAt := now, warnings := [], error := none }
    knownProviders, presenters := .empty, observedStarts := .empty }
  watchTx := { value := none }
  configTx := { value := 0 }

/-- Publish one account's schedule to its poll task and to the clients. -/
def publishSchedule (config : Config) (st : SharedState F) (a : Account) : SharedState F :=
  let next := schedule config a.provider
  { st with
    pollIntervals := st.pollIntervals.insert a.id (reported next)
    schedules :=
      match st.schedules.get (a.provider, a.id) with
      | some tx => st.schedules.insert (a.provider, a.id) (tx.sendReplace next)
      | none => st.schedules }

def installConfig (d : Daemon F) (loaded : Option LoadedConfig) (error : Option String)
    (now : DateTime) : Daemon F :=
  let config := (loaded.map (·.config)).getD d.state.config
  let warnings := (loaded.map (·.warnings)).getD d.state.configState.warnings
  let st := d.state.accounts.foldl (publishSchedule config) { d.state with config }
  let generation := d.state.configState.generation + 1
  { d with
    state := { st with configState := {
      path := st.configState.path, generation
      effective := config.view st.knownProviders
      loadedAt := now, warnings, error } }
    configTx := d.configTx.sendReplace generation }

/-- Put a freshly parsed config into effect. -/
def applyConfig (d : Daemon F) (loaded : LoadedConfig) (now : DateTime) : Daemon F :=
  d.installConfig (some loaded) none now

/-- Record that a load was rejected. The previously applied config keeps running. -/
def rejectConfig (d : Daemon F) (error : String) (now : DateTime) : Daemon F :=
  d.installConfig none (some error) now

/-- Health after a poll with this error message. A `u32` counter wraps at its end. -/
def nextHealth (health : HealthCounters) : Option String → HealthCounters
  | none => { consecutiveFailures := 0, lastError := none }
  | some msg =>
    { consecutiveFailures := health.consecutiveFailures + 1, lastError := some msg }

section Recording

variable [F64 F]

/-- The rollovers a poll reveals, compared with the last successful one. -/
def detected (st : SharedState F) (event : PollEvent F) : List (WindowRollover F) :=
  let last := st.latestSuccess.get event.account
  detect event.account (previousWindows last) event.outcome.windows event.id
    (last.map (·.ts)) event.ts

/-- The anchors after a poll: its rollovers applied, then the expired ones dropped. -/
def nextStarts (st : SharedState F) (event : PollEvent F) :
    Dict (AccountId × WindowId) ObservedStart :=
  pruneAnchors ((detected st event).foldl applyRollover st.observedStarts) event.account
    event.outcome.windows event.ts

/-- Record a completed poll: persist, update caches and health, publish. -/
def recordEvent (json : SerdeJson F) (faults : Storage.Faults) (d : Daemon F)
    (event : PollEvent F) : Daemon F :=
  let st := d.state
  let key := (event.provider, event.account)
  { d with
    state := { st with
      observedStarts := nextStarts st event
      storage := (st.storage.recordPoll json faults event event.outcome.windows
        (detected st event)).2
      health := st.health.insert key
        (nextHealth ((st.health.get key).getD {}) event.outcome.errorMessage)
      latestSuccess :=
        if event.outcome.errorMessage.isNone then st.latestSuccess.insert event.account event
        else st.latestSuccess
      latestPoll := st.latestPoll.insert event.account event }
    watchTx := d.watchTx.sendReplace (some event) }

/-- Whether `recordEvent` persists the poll. -/
def persists (json : SerdeJson F) (faults : Storage.Faults) (d : Daemon F)
    (event : PollEvent F) : Prop :=
  (d.state.storage.recordPoll json faults event event.outcome.windows
    (detected d.state event)).1 = .ok ()

instance (json : SerdeJson F) (faults : Storage.Faults) (d : Daemon F) (event : PollEvent F) :
    Decidable (d.persists json faults event) :=
  inferInstanceAs (Decidable ((d.state.storage.recordPoll json faults event event.outcome.windows
    (detected d.state event)).1 = .ok ()))

/-- Replay an account's stored rollovers into the anchors. -/
def restoreStarts (st : SharedState F) (account : Account) (now : DateTime) :
    Dict (AccountId × WindowId) ObservedStart :=
  let windows := previousWindows (st.latestSuccess.get account.id)
  match st.storage.rollovers account.id none (now - anchorLookback) now with
  | .error _ => st.observedStarts
  | .ok found =>
    pruneAnchors (found.foldl (replayRollover (windowsById windows)) st.observedStarts)
      account.id (lastById windows) now

omit [F64 F] in
/-- A cache entry as a query leaves it: replaced when it finds something. -/
def restored {V : Type} (cache : Dict AccountId V) (id : AccountId)
    (found : Except StorageError (Option V)) : Dict AccountId V :=
  match found with
  | .ok (some v) => cache.insert id v
  | _ => cache

/-- Reload an account's last poll, last success, anchors and health counters from storage. -/
def hydrateAccount (json : SerdeJson F) (d : Daemon F) (account : Account) (now : DateTime) :
    Daemon F :=
  let st := { d.state with
    latestPoll := restored d.state.latestPoll account.id
      (d.state.storage.latestPollFor json account.id)
    latestSuccess := restored d.state.latestSuccess account.id
      (d.state.storage.latestSuccessFor json account.id) }
  let lastError := (st.latestPoll.get account.id).bind (·.outcome.errorMessage)
  { d with
    state := { st with
      observedStarts := restoreStarts st account now
      health := st.health.insert (account.provider, account.id) {
        consecutiveFailures := st.storage.consecutiveFailuresFor account.id
        lastError } } }

end Recording

/-- Assemble the `Status` payload, optionally filtered. -/
def status (d : Daemon F) (provider : Option ProviderId) (account : Option AccountId) :
    List (AccountStatus F ℚ) :=
  let st := d.state
  (st.accounts.filter fun a =>
      provider.all (· == a.provider) && account.all (· == a.id)).map fun a => {
    account := a
    windows := (previousWindows (st.latestSuccess.get a.id)).map fun window => {
      hint := ((st.presenters.get a.provider).map (· window)).getD defaultHint
      observedStart := st.observedStarts.get (a.id, window.id)
      window }
    lastPoll := st.latestPoll.get a.id
    lastSuccess := (st.latestSuccess.get a.id).map (·.ts)
    pollIntervalSecs := intervalSecs (st.pollIntervals.get a.id) }

/-- Open an account's schedule channel and keep its adapter's presentation. -/
def registerPoller (d : Daemon F) (account : Account) (presenter : QuotaWindow F → RenderHint ℚ) :
    Daemon F :=
  let initial := schedule d.state.config account.provider
  { d with state := { d.state with
    schedules := d.state.schedules.insert (account.provider, account.id) { value := initial }
    pollIntervals := d.state.pollIntervals.insert account.id (reported initial)
    presenters := d.state.presenters.insert account.provider presenter } }

/-- Record the cadence a poll task is actually running at. -/
def setReportedInterval (d : Daemon F) (account : AccountId) (interval : StdDuration) :
    Daemon F :=
  { d with state := { d.state with
    pollIntervals := d.state.pollIntervals.insert account interval } }

/-- The newest poll id published so far, zero if none yet. -/
def newestPollId (d : Daemon F) : PollId := (d.watchTx.value.map (·.id)).getD 0

end Daemon
end Teiryo
