import Teiryo.Daemon.ConfigEdit
import Teiryo.Daemon.Scheduler
import Teiryo.Framework.Run

/-!
# Requests

`SetConfig`, `PollNow` and `AwaitUpdate`, following `teiryod/src/server.rs`. The first two never
await, so each is one function on the daemon; `SetConfig` also reads and replaces `config.toml`.
`AwaitUpdate` suspends on the daemon's two channels.
-/

namespace Teiryo

open Toml

namespace Daemon

variable {F Layout : Type}

/-- Write one settings change to `config.toml` and apply it. -/
def setConfig (toml : TomlCrates Layout) (d : Daemon F) (file : ConfigFile)
    (writeFault : Option String) (edit : ConfigEdit) (now : DateTime) :
    Response F ℚ × Daemon F × ConfigFile :=
  match Config.writeEdit toml file writeFault edit with
  | (.error e, file) => (.err .badRequest e.message, d, file)
  | (.ok text, file) =>
    match Config.parse toml text with
    | .ok loaded =>
      let d := d.applyConfig loaded now
      (.config d.state.configState, d, file)
    | .error e => (.err .badRequest e.message, d.rejectConfig e.message now, file)

/-- Inject a manual trigger into every matching poll task. -/
def pollNow (d : Daemon F) (provider : ProviderId) (account : Option AccountId) :
    Response F ℚ × Daemon F :=
  let target (key : PollerKey) : Bool := key.1 == provider && account.all (· == key.2)
  if !d.state.pollers.any (·.1.1 == provider) then
    (.err .unknownProvider ("no provider " ++ provider.quote), d)
  else if !d.state.config.providerEnabled provider then
    (.err .badRequest ("provider " ++ provider.quote ++ " is disabled in config"), d)
  else if !d.state.pollers.any (fun p => target p.1) then
    (.err .unknownAccount ("no matching account on " ++ provider.quote), d)
  else
    (.pollAccepted d.newestPollId,
      { d with state := { d.state with
        pollers := d.state.pollers.map fun p =>
          (p.1, if target p.1 then p.2.send (.manual .tui) else p.2) } })

/-- A suspended `AwaitUpdate`: its arguments and the versions its receivers last looked at. -/
structure Await where
  since : PollId
  configGen : Nat
  seen : Nat
  configSeen : Nat
  deriving DecidableEq, Repr

/-- The top of the loop of `await_update`: a reply, or where it suspends. -/
def awaitUpdate (d : Daemon F) (since : PollId) (configGen : Nat) : Response F ℚ ⊕ Await :=
  match d.watchTx.value.filter fun e => decide (since < e.id) with
  | some event => .inl (.update event)
  | none =>
    if configGen < d.configTx.value then .inl (.config d.state.configState)
    else .inr {
      since, configGen, seen := d.watchTx.version, configSeen := d.configTx.version }

/-- Whether one of the channels has something the suspended request has not looked at. The
deadline only fires while neither has. -/
def Await.woken (a : Await) (d : Daemon F) : Bool :=
  d.watchTx.hasChanged a.seen || d.configTx.hasChanged a.configSeen

/-- Everything that changes the daemon's state, apart from poll tasks taking triggers off their
queues. -/
inductive Op (F : Type) where
  | applyConfig (loaded : LoadedConfig) (now : DateTime)
  | rejectConfig (error : String) (now : DateTime)
  | startAccount (account : Account) (presenter : QuotaWindow F → RenderHint ℚ)
      (upsertFault : Option String) (now : DateTime)
  | recordEvent (faults : Storage.Faults) (event : PollEvent F)
  | setReportedInterval (account : AccountId) (interval : StdDuration)
  | pollNow (provider : ProviderId) (account : Option AccountId)
  | setMailbox (key : PollerKey) (box : Mailbox PollTrigger)

section Reachability

variable [F64 F]

def apply (json : SerdeJson F) (d : Daemon F) : Op F → Daemon F
  | .applyConfig loaded now => d.applyConfig loaded now
  | .rejectConfig error now => d.rejectConfig error now
  | .startAccount account presenter upsertFault now =>
      (d.startAccount json account presenter upsertFault now).1
  | .recordEvent faults event => d.recordEvent json faults event
  | .setReportedInterval account interval => d.setReportedInterval account interval
  | .pollNow provider account => (d.pollNow provider account).2
  | .setMailbox key box => { d with state := d.state.setMailbox key box }

def Reachable (json : SerdeJson F) (d : Daemon F) : Prop :=
  ∃ storage path known now, ∃ ops : List (Op F),
    d = ops.foldl (apply json) (new storage path known now)

end Reachability

/-- Everything derived from the config agrees with it: the view served to clients, and the
schedule of every poll task, each of which belongs to an account. -/
structure Synced (d : Daemon F) : Prop where
  effective : d.state.configState.effective = d.state.config.view d.state.knownProviders
  schedule : ∀ {key tx}, d.state.schedules.get key = some tx →
    tx.value = Teiryo.schedule d.state.config key.1
  account : ∀ {key tx}, d.state.schedules.get key = some tx →
    ∃ a ∈ d.state.accounts, (a.provider, a.id) = key

private theorem publishSchedule_frame (config : Config) (accounts : List Account)
    (st : SharedState F) :
    accounts.foldl (publishSchedule config) st = { st with
      pollIntervals := (accounts.foldl (publishSchedule config) st).pollIntervals
      schedules := (accounts.foldl (publishSchedule config) st).schedules } := by
  induction accounts generalizing st with
  | nil => rfl
  | cons a accounts ih =>
    rw [List.foldl_cons, ih]
    rfl

theorem publishSchedule_schedules (config : Config) (st : SharedState F) (a : Account)
    (key : PollerKey) :
    (publishSchedule config st a).schedules.get key =
      (st.schedules.get key).map fun tx =>
        if key = (a.provider, a.id) then tx.sendReplace (schedule config a.provider) else tx := by
  by_cases hkey : key = (a.provider, a.id)
  · subst hkey
    simp only [publishSchedule]
    cases htx : st.schedules.get (a.provider, a.id) with
    | none => simp [htx]
    | some tx => simp
  · have hframe : (publishSchedule config st a).schedules.get key = st.schedules.get key := by
      simp only [publishSchedule]
      split
      · exact Dict.get_insert_ne _ _ hkey
      · rfl
    rw [hframe]
    simp [hkey]

private theorem foldl_publishSchedule_schedules (config : Config) (accounts : List Account)
    (st : SharedState F) (key : PollerKey) :
    ((accounts.foldl (publishSchedule config) st).schedules.get key).map (·.value) =
      (st.schedules.get key).map fun tx =>
        if ∃ a ∈ accounts, (a.provider, a.id) = key then schedule config key.1 else tx.value := by
  induction accounts generalizing st with
  | nil =>
    simp
  | cons a accounts ih =>
    rw [List.foldl_cons, ih, publishSchedule_schedules, Option.map_map]
    congr 1
    funext tx
    by_cases hkey : key = (a.provider, a.id)
    · subst hkey
      simp
    · have hhead : ¬ (a.provider, a.id) = key := fun h => hkey h.symm
      simp [hkey, hhead]

/-- The parts of a load attempt that other code reads. -/
theorem installConfig_state (d : Daemon F) (loaded : Option LoadedConfig) (error : Option String)
    (now : DateTime) :
    (d.installConfig loaded error now).state.config =
        (loaded.map (·.config)).getD d.state.config ∧
      (d.installConfig loaded error now).state.configState.error = error ∧
      (d.installConfig loaded error now).state.knownProviders = d.state.knownProviders ∧
      (d.installConfig loaded error now).state.accounts = d.state.accounts ∧
      (d.installConfig loaded error now).state.pollers = d.state.pollers ∧
      (d.installConfig loaded error now).state.configState.effective =
        ((loaded.map (·.config)).getD d.state.config).view d.state.knownProviders := by
  unfold installConfig
  dsimp only
  rw [publishSchedule_frame]
  exact ⟨rfl, rfl, rfl, rfl, rfl, rfl⟩

theorem installConfig_schedules (d : Daemon F) (loaded : Option LoadedConfig)
    (error : Option String) (now : DateTime) (key : PollerKey) :
    ((d.installConfig loaded error now).state.schedules.get key).map (·.value) =
      (d.state.schedules.get key).map fun tx =>
        if ∃ a ∈ d.state.accounts, (a.provider, a.id) = key
        then schedule ((loaded.map (·.config)).getD d.state.config) key.1 else tx.value :=
  foldl_publishSchedule_schedules _ _ _ key

private theorem synced_installConfig {d : Daemon F} (hd : d.Synced) (loaded : Option LoadedConfig)
    (error : Option String) (now : DateTime) : (d.installConfig loaded error now).Synced := by
  obtain ⟨hconfig, -, hknown, haccounts, -, heff⟩ := installConfig_state d loaded error now
  have hold : ∀ {key tx}, (d.installConfig loaded error now).state.schedules.get key = some tx →
      ∃ tx₀, d.state.schedules.get key = some tx₀ := by
    intro key tx h
    have hval := installConfig_schedules d loaded error now key
    rw [h] at hval
    cases htx : d.state.schedules.get key with
    | none => rw [htx] at hval; cases hval
    | some tx₀ => exact ⟨tx₀, rfl⟩
  refine ⟨?_, ?_, ?_⟩
  · rw [heff, hconfig, hknown]
  · intro key tx htx
    obtain ⟨tx₀, htx₀⟩ := hold htx
    have hval := installConfig_schedules d loaded error now key
    rw [htx, htx₀, Option.map_some, Option.map_some, if_pos (hd.account htx₀)] at hval
    rw [hconfig]
    exact Option.some.inj hval
  · intro key tx htx
    obtain ⟨tx₀, htx₀⟩ := hold htx
    rw [haccounts]
    exact hd.account htx₀

private theorem synced_registerPoller {d : Daemon F} (hd : d.Synced) {account : Account}
    (hmem : account ∈ d.state.accounts) (presenter : QuotaWindow F → RenderHint ℚ) :
    (d.registerPoller account presenter).Synced := by
  refine ⟨hd.effective, ?_, ?_⟩
  · intro key tx htx
    by_cases hkey : key = (account.provider, account.id)
    · subst hkey
      simp only [registerPoller, Dict.get_insert_self, Option.some.injEq] at htx
      subst htx
      rfl
    · simp only [registerPoller, Dict.get_insert_ne _ _ hkey] at htx
      exact hd.schedule htx
  · intro key tx htx
    by_cases hkey : key = (account.provider, account.id)
    · exact ⟨account, hmem, hkey.symm⟩
    · simp only [registerPoller, Dict.get_insert_ne _ _ hkey] at htx
      exact hd.account htx

variable [F64 F]

private theorem synced_startAccount (json : SerdeJson F) {d : Daemon F} (hd : d.Synced)
    (account : Account) (presenter : QuotaWindow F → RenderHint ℚ) (upsertFault : Option String)
    (now : DateTime) : (d.startAccount json account presenter upsertFault now).1.Synced := by
  -- the account is listed before its schedule channel is opened
  have hpushed : ∀ storage health, ({ d with state := { d.state with
      storage, health, accounts := d.state.accounts ++ [account] } } : Daemon F).Synced := by
    intro storage health
    refine ⟨hd.effective, hd.schedule, ?_⟩
    intro key tx htx
    obtain ⟨a, ha, hkey⟩ := hd.account htx
    exact ⟨a, List.mem_append_left _ ha, hkey⟩
  have hhydrated : ∀ d' : Daemon F, d'.Synced → (d'.hydrateAccount json account now).Synced :=
    fun d' hd' => ⟨hd'.effective, hd'.schedule, hd'.account⟩
  have hmem : account ∈ d.state.accounts ++ [account] := by simp
  have hregistered := @synced_registerPoller F _ (hhydrated _ (hpushed
    (if upsertFault.isSome then d.state.storage else d.state.storage.upsertAccount account)
    (d.state.health.insert (account.provider, account.id)
      ((d.state.health.get (account.provider, account.id)).getD {})))) account hmem presenter
  exact ⟨hregistered.effective, hregistered.schedule, hregistered.account⟩

private theorem synced_apply (json : SerdeJson F) (d : Daemon F) (op : Op F) (hd : d.Synced) :
    (d.apply json op).Synced := by
  cases op with
  | applyConfig loaded now => exact synced_installConfig hd _ _ _
  | rejectConfig error now => exact synced_installConfig hd _ _ _
  | startAccount account presenter upsertFault now =>
    exact synced_startAccount json hd account presenter upsertFault now
  | recordEvent faults event => exact ⟨hd.effective, hd.schedule, hd.account⟩
  | setReportedInterval account interval => exact ⟨hd.effective, hd.schedule, hd.account⟩
  | pollNow provider account =>
    simp only [apply, pollNow]
    split
    · exact hd
    · split
      · exact hd
      · split
        · exact hd
        · exact ⟨hd.effective, hd.schedule, hd.account⟩
  | setMailbox key box => exact ⟨hd.effective, hd.schedule, hd.account⟩

theorem synced_of_reachable {json : SerdeJson F} {d : Daemon F} (h : Reachable json d) :
    d.Synced := by
  obtain ⟨storage, path, known, now, ops, rfl⟩ := h
  apply foldl_invariant ops
  · refine ⟨rfl, ?_, ?_⟩
    · intro key tx htx
      cases htx
    · intro key tx htx
      cases htx
  · exact fun d op hd => synced_apply json d op hd

end Daemon
end Teiryo
