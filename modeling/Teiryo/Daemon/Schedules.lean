import Teiryo.Daemon.Triggers

/-!
# Config, schedules and poll tasks

The daemon with all its poll tasks. What a config says about a provider is held once per account
in a schedule channel and once in the cadence clients see, and the tasks write the cadence too.
-/

namespace Teiryo

/-- The daemon and the poll tasks it has started. The last field records history: the phase each
task was in before its present one. -/
structure PollSystem (F : Type) where
  daemon : Daemon F
  tasks : List PollTask := []
  cameFrom : Nat → Phase := fun _ => .spawned

inductive PollInput (F : Type) where
  | startAccount (account : Account) (presenter : QuotaWindow F → RenderHint ℚ)
      (upsertFault : Option String) (now : DateTime)
  | applyConfig (loaded : LoadedConfig) (now : DateTime)
  | rejectConfig (error : String) (now : DateTime)
  | pollNow (provider : ProviderId) (account : Option AccountId)
  | wake (task : Nat) (wakeup : Wakeup F)

/-- Whether an input is an attempt to load a config. -/
def PollInput.isLoad {F : Type} : PollInput F → Bool
  | .applyConfig _ _ => true
  | .rejectConfig _ _ => true
  | _ => false

namespace Daemon

variable {F : Type}

/-- The daemons agree on the config, on who is registered and on everything the config decides. -/
structure SameSchedules (d d' : Daemon F) : Prop where
  accounts : d'.state.accounts = d.state.accounts
  config : d'.state.config = d.state.config
  configState : d'.state.configState = d.state.configState
  knownProviders : d'.state.knownProviders = d.state.knownProviders
  schedules : d'.state.schedules = d.state.schedules
  pollIntervals : d'.state.pollIntervals = d.state.pollIntervals
  configTx : d'.configTx = d.configTx

/-- Everything the config decides agrees with it. -/
structure Scheduled (d : Daemon F) : Prop where
  ids : (d.state.accounts.map (·.id)).Nodup
  effective : d.state.configState.effective = d.state.config.view d.state.knownProviders
  generation : d.configTx.value = d.state.configState.generation
  schedule : ∀ a ∈ d.state.accounts, ∃ tx, d.state.schedules.get (a.provider, a.id) = some tx ∧
    tx.value = Teiryo.schedule d.state.config a.provider
  disabled : ∀ a ∈ d.state.accounts, d.state.config.providerEnabled a.provider = false →
    d.state.pollIntervals.get a.id = some 0

variable {d d' : Daemon F}

theorem SameSchedules.refl (d : Daemon F) : SameSchedules d d :=
  ⟨rfl, rfl, rfl, rfl, rfl, rfl, rfl⟩

theorem Scheduled.congr (hd : d.Scheduled) (h : SameSchedules d d') : d'.Scheduled := by
  refine ⟨?_, ?_, ?_, ?_, ?_⟩
  · rw [h.accounts]
    exact hd.ids
  · rw [h.configState, h.config, h.knownProviders]
    exact hd.effective
  · rw [h.configTx, h.configState]
    exact hd.generation
  · rw [h.accounts, h.schedules, h.config]
    exact hd.schedule
  · rw [h.accounts, h.config, h.pollIntervals]
    exact hd.disabled

theorem sameSchedules_pollNow (d : Daemon F) (provider : ProviderId)
    (account : Option AccountId) : SameSchedules d (d.pollNow provider account).2 := by
  unfold pollNow
  dsimp only
  split
  · exact .refl d
  · split
    · exact .refl d
    · split
      · exact .refl d
      · exact ⟨rfl, rfl, rfl, rfl, rfl, rfl, rfl⟩

/-! ## What a load attempt does -/

private theorem foldl_publishSchedule_version (config : Config) (accounts : List Account)
    (st : SharedState F) {key : PollerKey} {tx : Watch Schedule}
    (h : st.schedules.get key = some tx) :
    ∃ tx', (accounts.foldl (publishSchedule config) st).schedules.get key = some tx' ∧
      tx.version ≤ tx'.version ∧
      ((∃ a ∈ accounts, (a.provider, a.id) = key) → tx.version < tx'.version) := by
  induction accounts generalizing st tx with
  | nil =>
    refine ⟨tx, h, Nat.le_refl _, ?_⟩
    rintro ⟨a, ha, -⟩
    cases ha
  | cons a accounts ih =>
    have hhead := publishSchedule_schedules config st a key
    rw [h, Option.map_some] at hhead
    obtain ⟨tx', htx', hle, hlt⟩ := ih _ hhead
    refine ⟨tx', htx', ?_, ?_⟩
    · split at hle
      · rw [Watch.sendReplace_version] at hle
        omega
      · exact hle
    · rintro ⟨b, hb, hkey⟩
      rcases List.mem_cons.mp hb with rfl | hb
      · rw [if_pos hkey.symm, Watch.sendReplace_version] at hle
        omega
      · have hlater := hlt ⟨b, hb, hkey⟩
        split at hlater
        · rw [Watch.sendReplace_version] at hlater
          omega
        · exact hlater

private theorem foldl_publishSchedule_pollIntervals (config : Config) (accounts : List Account)
    (st : SharedState F) {a : Account} (hids : (accounts.map (·.id)).Nodup) (ha : a ∈ accounts) :
    (accounts.foldl (publishSchedule config) st).pollIntervals.get a.id =
      some (reported (Teiryo.schedule config a.provider)) := by
  have hother : ∀ (bs : List Account) (st : SharedState F), a.id ∉ bs.map (·.id) →
      (bs.foldl (publishSchedule config) st).pollIntervals.get a.id =
        st.pollIntervals.get a.id := by
    intro bs
    induction bs with
    | nil =>
      intro st _
      rfl
    | cons b bs ih =>
      intro st hnot
      rw [List.map_cons, List.mem_cons, not_or] at hnot
      rw [List.foldl_cons, ih _ hnot.2]
      exact Dict.get_insert_ne _ _ hnot.1
  induction accounts generalizing st with
  | nil => cases ha
  | cons b accounts ih =>
    rw [List.map_cons, List.nodup_cons] at hids
    rw [List.foldl_cons]
    rcases List.mem_cons.mp ha with rfl | ha
    · rw [hother _ _ hids.1]
      exact Dict.get_insert_self _ _ _
    · exact ih _ hids.2 ha

variable (loaded : Option LoadedConfig) (error : Option String) (now : DateTime)

/-- A load attempt sends the new schedule to every registered account. -/
theorem installConfig_sent (hd : d.Scheduled) {a : Account} (ha : a ∈ d.state.accounts)
    {tx : Watch Schedule} (htx : d.state.schedules.get (a.provider, a.id) = some tx) :
    ∃ tx', (d.installConfig loaded error now).state.schedules.get (a.provider, a.id) = some tx' ∧
      tx'.value =
        Teiryo.schedule (d.installConfig loaded error now).state.config a.provider ∧
      tx.version < tx'.version ∧
      (d.installConfig loaded error now).state.pollIntervals.get a.id =
        some (reported tx'.value) := by
  obtain ⟨hconfig, -⟩ := installConfig_state d loaded error now
  obtain ⟨tx', htx', -, hversion⟩ := foldl_publishSchedule_version
    ((loaded.map (·.config)).getD d.state.config) d.state.accounts
    { d.state with config := (loaded.map (·.config)).getD d.state.config } htx
  have hsent : (d.installConfig loaded error now).state.schedules.get (a.provider, a.id) =
      some tx' := htx'
  have hvalue := installConfig_schedules d loaded error now (a.provider, a.id)
  rw [hsent, htx, Option.map_some, Option.map_some, if_pos ⟨a, ha, rfl⟩, ← hconfig] at hvalue
  refine ⟨tx', hsent, Option.some.inj hvalue, hversion ⟨a, ha, rfl⟩, ?_⟩
  rw [Option.some.inj hvalue, hconfig]
  exact foldl_publishSchedule_pollIntervals _ _ _ hd.ids ha

private theorem scheduled_installConfig (hd : d.Scheduled) :
    (d.installConfig loaded error now).Scheduled := by
  obtain ⟨hconfig, -, hknown, haccounts, -, heff⟩ := installConfig_state d loaded error now
  refine ⟨?_, ?_, rfl, ?_, ?_⟩
  · rw [haccounts]
    exact hd.ids
  · rw [heff, hconfig, hknown]
  · intro a ha
    rw [haccounts] at ha
    obtain ⟨tx, htx, -⟩ := hd.schedule a ha
    obtain ⟨tx', htx', hvalue, -, -⟩ := installConfig_sent loaded error now hd ha htx
    exact ⟨tx', htx', hvalue⟩
  · intro a ha hdisabled
    rw [haccounts] at ha
    obtain ⟨tx, htx, -⟩ := hd.schedule a ha
    obtain ⟨tx', -, hvalue, -, hpublished⟩ := installConfig_sent loaded error now hd ha htx
    rw [hpublished, hvalue, reported]
    have hoff : (Teiryo.schedule (d.installConfig loaded error now).state.config
        a.provider).enabled = false := hdisabled
    rw [hoff]
    rfl

/-- The config, the value of every schedule and the warnings are as they were. -/
structure Unaffected (d d' : Daemon F) : Prop where
  config : d'.state.config = d.state.config
  warnings : d'.state.configState.warnings = d.state.configState.warnings
  schedules : ∀ key,
    (d'.state.schedules.get key).map (·.value) = (d.state.schedules.get key).map (·.value)

private theorem rejectConfig_unaffected (hd : d.Scheduled) (message : String) :
    Unaffected d (d.rejectConfig message now) := by
  obtain ⟨hconfig, -⟩ := installConfig_state d none (some message) now
  refine ⟨hconfig, rfl, ?_⟩
  intro key
  rw [rejectConfig, installConfig_schedules]
  apply Option.map_congr
  intro tx htx
  by_cases hkey : ∃ a ∈ d.state.accounts, (a.provider, a.id) = key
  · rw [if_pos hkey]
    obtain ⟨a, ha, rfl⟩ := hkey
    obtain ⟨tx', htx', hvalue⟩ := hd.schedule a ha
    rw [htx] at htx'
    cases htx'
    exact hvalue.symm
  · rw [if_neg hkey]

/-! ## What starting an account does -/

variable [F64 F]

/-- Starting an account opens its channel, and touches nothing of the others. -/
theorem startAccount_state (json : SerdeJson F) (d : Daemon F) (account : Account)
    (presenter : QuotaWindow F → RenderHint ℚ) (upsertFault : Option String) (now : DateTime) :
    (d.startAccount json account presenter upsertFault now).1.state.accounts =
        d.state.accounts ++ [account] ∧
      (d.startAccount json account presenter upsertFault now).1.state.schedules =
        d.state.schedules.insert (account.provider, account.id)
          { value := Teiryo.schedule d.state.config account.provider } ∧
      (d.startAccount json account presenter upsertFault now).1.state.pollIntervals =
        d.state.pollIntervals.insert account.id
          (reported (Teiryo.schedule d.state.config account.provider)) ∧
      (d.startAccount json account presenter upsertFault now).1.state.config = d.state.config :=
  ⟨rfl, rfl, rfl, rfl⟩

private theorem scheduled_startAccount (json : SerdeJson F) (hd : d.Scheduled) {account : Account}
    (hfresh : ∀ a ∈ d.state.accounts, a.id ≠ account.id) (presenter : QuotaWindow F → RenderHint ℚ)
    (upsertFault : Option String) (now : DateTime) :
    (d.startAccount json account presenter upsertFault now).1.Scheduled := by
  refine ⟨?_, hd.effective, hd.generation, ?_, ?_⟩
  · change ((d.state.accounts ++ [account]).map (·.id)).Nodup
    rw [List.map_append, List.nodup_append]
    refine ⟨hd.ids, List.nodup_singleton _, ?_⟩
    intro id hid id' hid'
    obtain ⟨a, ha, rfl⟩ := List.mem_map.mp hid
    obtain rfl := List.mem_singleton.mp hid'
    exact hfresh a ha
  · intro a ha
    change ∃ tx, (d.state.schedules.insert (account.provider, account.id)
      { value := Teiryo.schedule d.state.config account.provider }).get (a.provider, a.id) =
        some tx ∧ tx.value = Teiryo.schedule d.state.config a.provider
    rcases List.mem_append.mp ha with ha | ha
    · have hne : (a.provider, a.id) ≠ (account.provider, account.id) :=
        fun h => hfresh a ha (congrArg Prod.snd h)
      rw [Dict.get_insert_ne _ _ hne]
      exact hd.schedule a ha
    · obtain rfl := List.mem_singleton.mp ha
      exact ⟨_, Dict.get_insert_self _ _ _, rfl⟩
  · intro a ha hdisabled
    change (d.state.pollIntervals.insert account.id
      (reported (Teiryo.schedule d.state.config account.provider))).get a.id = some 0
    rcases List.mem_append.mp ha with ha | ha
    · rw [Dict.get_insert_ne _ _ (hfresh a ha)]
      exact hd.disabled a ha hdisabled
    · obtain rfl := List.mem_singleton.mp ha
      have hoff : (Teiryo.schedule d.state.config a.provider).enabled = false := hdisabled
      rw [Dict.get_insert_self, reported, hoff]
      rfl

end Daemon

/-! ## What a poll task does -/

namespace PollTask

variable {F : Type} {d d' : Daemon F} {t t' : PollTask}

/-- The task goes on to another `await` without coming back to the top of the loop. -/
inductive Moves (t : PollTask) : PollTask → Prop where
  | stays : Moves t t
  | stops : Moves t { t with phase := .stopped }
  | scheduled {after : StdDuration} (h : t.phase = .waiting after) :
      Moves t { t with phase := .polling .scheduled }
  | resolves {after : StdDuration} (h : t.phase = .rechecking after) :
      Moves t { t with phase := .resolving }
  | triggered {client : ClientKind} {after : StdDuration}
      (h : t.phase = .waiting after ∨ t.phase = .rechecking after) :
      Moves t { t with phase := .polling (.manual client) }

/-- What the task knows about its own next step at each `await`: a poll that has to start at once
is never held back by a stale credential, and the two waits are told apart by it. -/
def Settled (t : PollTask) : Prop :=
  match t.phase with
  | .spawned => t.gate.credentialStale = false
  | .parked => t.gate.credentialStale = false
  | .polling .startup => t.pollImmediately = false ∧ t.gate.credentialStale = false
  | .polling .scheduled => t.pollImmediately = false ∧ t.gate.credentialStale = false
  | .polling (.manual _) => t.pollImmediately = false
  | .rechecking _ => t.pollImmediately = false ∧ t.gate.credentialStale = true
  | .resolving => t.pollImmediately = false ∧ t.gate.credentialStale = true
  | .waiting _ => t.pollImmediately = false ∧ t.gate.credentialStale = false
  | .stopped => True

/-- The task is ready for the top of the loop. -/
def Ready (t : PollTask) : Prop := t.pollImmediately = true → t.gate.credentialStale = false

theorem Moves.account_eq (h : Moves t t') : t'.account = t.account := by
  cases h <;> rfl

theorem Moves.settled (h : Moves t t') (ht : t.Settled) : t'.Settled := by
  cases h with
  | stays => exact ht
  | stops => trivial
  | scheduled h =>
    simp only [Settled, h] at ht
    exact ht
  | resolves h =>
    simp only [Settled, h] at ht
    exact ht
  | triggered h =>
    rcases h with h | h
    · simp only [Settled, h] at ht
      exact ht.1
    · simp only [Settled, h] at ht
      exact ht.1

/-- Only manual triggers are waiting in the queues. -/
def ManualOnly (d : Daemon F) : Prop :=
  ∀ p ∈ d.state.pollers, ∀ trigger ∈ p.2.queue, ∃ client, trigger = .manual client

theorem manualOnly_installConfig (h : ManualOnly d) (loaded : Option LoadedConfig)
    (error : Option String) (now : DateTime) : ManualOnly (d.installConfig loaded error now) := by
  obtain ⟨-, -, -, -, hpollers, -⟩ := Daemon.installConfig_state d loaded error now
  intro p hp
  rw [hpollers] at hp
  exact h p hp

theorem manualOnly_pollNow (h : ManualOnly d) (provider : ProviderId)
    (account : Option AccountId) : ManualOnly (d.pollNow provider account).2 := by
  intro p hp trigger htrigger
  simp only [Daemon.pollNow] at hp
  split at hp
  · exact h p hp trigger htrigger
  · split at hp
    · exact h p hp trigger htrigger
    · split at hp
      · exact h p hp trigger htrigger
      · obtain ⟨p₀, hp₀, rfl⟩ := List.mem_map.mp hp
        simp only at htrigger
        split at htrigger
        · rcases List.mem_append.mp htrigger with htrigger | htrigger
          · exact h p₀ hp₀ trigger htrigger
          · exact ⟨.tui, List.mem_singleton.mp htrigger⟩
        · exact h p₀ hp₀ trigger htrigger

/-- Everything an iteration of the loop may do. -/
theorem iterate_cases (ht : t.Ready) {tx : Watch Schedule}
    (htx : d.state.schedules.get t.key = some tx) :
    (tx.value.enabled = false ∧ iterate d t = (d, { t with
        seen := tx.version, pollImmediately := true, gate := {}, phase := .parked })) ∨
      (tx.value.enabled = true ∧ t.gate.credentialStale = false ∧
        iterate d t = (d.setReportedInterval t.account.id
          (t.gate.throttle.delay tx.value.interval), { t with
            seen := tx.version, pollImmediately := false, phase := .polling .startup })) ∨
      (tx.value.enabled = true ∧ t.pollImmediately = false ∧ t.gate.credentialStale = true ∧
        ∃ after, iterate d t = (d.setReportedInterval t.account.id 0, { t with
          seen := tx.version, phase := .rechecking after })) ∨
      (tx.value.enabled = true ∧ t.pollImmediately = false ∧ t.gate.credentialStale = false ∧
        iterate d t = (d.setReportedInterval t.account.id
          (t.gate.throttle.delay tx.value.interval), { t with
            seen := tx.version
            phase := .waiting (t.gate.throttle.delay tx.value.interval) })) := by
  unfold iterate
  rw [htx]
  cases henabled : tx.value.enabled with
  | false =>
    left
    simp [Gate.nextStep, henabled, reportedInterval, Gate.park]
  | true =>
    right
    cases hnow : t.pollImmediately with
    | true =>
      left
      refine ⟨rfl, ht hnow, ?_⟩
      simp [Gate.nextStep, henabled, reportedInterval]
    | false =>
      right
      cases hstale : t.gate.credentialStale with
      | true =>
        left
        refine ⟨rfl, rfl, rfl, min tx.value.interval credentialRecheckMax, ?_⟩
        simp [Gate.nextStep, henabled, hstale, reportedInterval]
      | false =>
        right
        refine ⟨rfl, rfl, rfl, ?_⟩
        simp [Gate.nextStep, henabled, hstale, reportedInterval]

private theorem iterate_scheduled (hd : d.Scheduled) (hbox : ManualOnly d)
    (haccount : t.account ∈ d.state.accounts) (ht : t.Ready) :
    (iterate d t).1.Scheduled ∧ ManualOnly (iterate d t).1 ∧
      (iterate d t).1.state.accounts = d.state.accounts ∧
      (iterate d t).2.account = t.account ∧ (iterate d t).2.Settled := by
  obtain ⟨tx, htx, hvalue⟩ := hd.schedule t.account haccount
  have hreports : ∀ interval, tx.value.enabled = true →
      (d.setReportedInterval t.account.id interval).Scheduled := by
    intro interval henabled
    refine ⟨hd.ids, hd.effective, hd.generation, hd.schedule, ?_⟩
    intro a ha hdisabled
    have hne : a.id ≠ t.account.id := by
      intro hid
      obtain rfl := List.inj_on_of_nodup_map hd.ids ha haccount hid
      have hoff : (schedule d.state.config t.account.provider).enabled = false := hdisabled
      rw [hvalue, hoff] at henabled
      cases henabled
    change (d.state.pollIntervals.insert t.account.id interval).get a.id = some 0
    rw [Dict.get_insert_ne _ _ hne]
    exact hd.disabled a ha hdisabled
  rcases iterate_cases ht htx with ⟨-, heq⟩ | ⟨henabled, hstale, heq⟩ |
    ⟨henabled, hnow, hstale, after, heq⟩ | ⟨henabled, hnow, hstale, heq⟩
  · rw [heq]
    exact ⟨hd, hbox, rfl, rfl, rfl⟩
  · rw [heq]
    exact ⟨hreports _ henabled, hbox, rfl, rfl, rfl, hstale⟩
  · rw [heq]
    exact ⟨hreports _ henabled, hbox, rfl, rfl, hnow, hstale⟩
  · rw [heq]
    exact ⟨hreports _ henabled, hbox, rfl, rfl, hnow, hstale⟩

/-- The task takes a trigger or finds none. -/
theorem receive_cases (hbox : ManualOnly d)
    (hwaits : ∃ after, t.phase = .waiting after ∨ t.phase = .rechecking after) :
    Daemon.SameSchedules d (receive d t).1 ∧ ManualOnly (receive d t).1 ∧
      Moves t (receive d t).2 := by
  unfold receive
  cases hrecv : (d.state.mailbox t.key).bind Mailbox.recv with
  | none => exact ⟨.refl d, hbox, .stays⟩
  | some result =>
    obtain ⟨trigger, rest⟩ := result
    obtain ⟨box, hfound, htaken⟩ := Option.bind_eq_some_iff.mp hrecv
    obtain ⟨p, hp, rfl⟩ := Option.map_eq_some_iff.mp hfound
    have hmanual := hbox p (List.mem_of_find?_eq_some hp)
    have hqueue : p.2.queue = trigger :: rest.queue := by
      unfold Mailbox.recv at htaken
      split at htaken
      · cases htaken
      · rename_i hq
        cases htaken
        exact hq
    obtain ⟨client, rfl⟩ := hmanual trigger (by rw [hqueue]; exact List.mem_cons_self)
    obtain ⟨after, hphase⟩ := hwaits
    refine ⟨⟨rfl, rfl, rfl, rfl, rfl, rfl, rfl⟩, ?_, .triggered hphase⟩
    intro q hq trigger htrigger
    obtain ⟨q₀, hq₀, rfl⟩ := List.mem_map.mp hq
    simp only at htrigger
    split at htrigger
    · exact hmanual trigger (by rw [hqueue]; exact List.mem_cons_of_mem _ htrigger)
    · exact hbox q₀ hq₀ trigger htrigger

section Step

variable [F64 F] (json : SerdeJson F)

theorem manualOnly_startAccount (h : ManualOnly d) (account : Account)
    (presenter : QuotaWindow F → RenderHint ℚ) (upsertFault : Option String) (now : DateTime) :
    ManualOnly (d.startAccount json account presenter upsertFault now).1 := by
  intro p hp trigger htrigger
  change p ∈ d.state.pollers.filter (·.1 != (account.provider, account.id)) ++
    [((account.provider, account.id), ({ queue := [] } : Mailbox PollTrigger))] at hp
  rcases List.mem_append.mp hp with hp | hp
  · exact h p (List.mem_of_mem_filter hp) trigger htrigger
  · obtain rfl := List.mem_singleton.mp hp
    cases htrigger

/-- A step of a task leaves everything the config decides alone, or is one iteration of its loop
after something that did. -/
theorem step_cases (hbox : ManualOnly d) (ht : t.Settled) (wakeup : Wakeup F) :
    (Daemon.SameSchedules d (t.step json d wakeup).1 ∧ ManualOnly (t.step json d wakeup).1 ∧
        Moves t (t.step json d wakeup).2) ∨
      ∃ d₁ t₁, Daemon.SameSchedules d d₁ ∧ ManualOnly d₁ ∧ t₁.account = t.account ∧ t₁.Ready ∧
        t.step json d wakeup = iterate d₁ t₁ := by
  have hstays : Daemon.SameSchedules d (d, t).1 ∧ ManualOnly (d, t).1 ∧ Moves t (d, t).2 :=
    ⟨.refl d, hbox, .stays⟩
  cases wakeup with
  | started =>
    simp only [step]
    split
    · rename_i hphase
      simp only [Settled, hphase] at ht
      exact .inr ⟨d, t, .refl d, hbox, rfl, fun _ => ht, rfl⟩
    · exact .inl hstays
  | elapsed =>
    simp only [step]
    split
    · rename_i hphase
      exact .inl ⟨.refl d, hbox, .scheduled hphase⟩
    · rename_i hphase
      exact .inl ⟨.refl d, hbox, .resolves hphase⟩
    · exact .inl hstays
  | trigger =>
    simp only [step]
    split
    · rename_i hphase
      exact .inl (receive_cases hbox ⟨_, .inl hphase⟩)
    · rename_i hphase
      exact .inl (receive_cases hbox ⟨_, .inr hphase⟩)
    · exact .inl hstays
  | scheduleChanged =>
    simp only [step]
    split
    · rename_i hphase _
      simp only [Settled, hphase] at ht
      split
      · exact .inr ⟨d, t, .refl d, hbox, rfl, fun _ => ht, rfl⟩
      · exact .inl hstays
    · rename_i hphase _
      simp only [Settled, hphase] at ht
      split
      · exact .inr ⟨d, t, .refl d, hbox, rfl, fun _ => ht.2, rfl⟩
      · exact .inl hstays
    · rename_i hphase _
      simp only [Settled, hphase] at ht
      split
      · refine .inr ⟨d, t, .refl d, hbox, rfl, ?_, rfl⟩
        intro hnow
        rw [ht.1] at hnow
        cases hnow
      · exact .inl hstays
    · exact .inl hstays
  | resolved ok =>
    simp only [step]
    split
    · rename_i hphase
      simp only [Settled, hphase] at ht
      cases ok with
      | true =>
        exact .inr ⟨d, { t with gate := t.gate.credentialOk.1, pollImmediately := true },
          .refl d, hbox, rfl, fun _ => rfl, rfl⟩
      | false =>
        refine .inr ⟨d, t, .refl d, hbox, rfl, ?_, rfl⟩
        intro hnow
        rw [ht.1] at hnow
        cases hnow
    · exact .inl hstays
  | polled polled id ts latencyMs faults =>
    simp only [step]
    split
    · rename_i trigger hphase
      have hnow : t.pollImmediately = false := by
        simp only [Settled, hphase] at ht
        cases trigger with
        | startup => exact ht.1
        | scheduled => exact ht.1
        | manual client => exact ht
      refine .inr ⟨d.recordEvent json faults (t.event trigger polled id ts latencyMs),
        { t with gate := (t.gate.record polled).1 }, ⟨rfl, rfl, rfl, rfl, rfl, rfl, rfl⟩, hbox,
        rfl, ?_, rfl⟩
      intro h
      change t.pollImmediately = true at h
      rw [hnow] at h
      cases h
    · exact .inl hstays
  | shutdown =>
    simp only [step]
    split
    · exact .inl ⟨.refl d, hbox, .stops⟩
    · exact .inl ⟨.refl d, hbox, .stops⟩
    · exact .inl ⟨.refl d, hbox, .stops⟩
    · exact .inl hstays

end Step
end PollTask

/-! ## All tasks -/

namespace PollSystem

variable {F : Type} [F64 F]

def step (json : SerdeJson F) (s : PollSystem F) : PollInput F → PollSystem F
  | .startAccount account presenter upsertFault now =>
    let started := s.daemon.startAccount json account presenter upsertFault now
    { s with daemon := started.1, tasks := s.tasks ++ [started.2] }
  | .applyConfig loaded now => { s with daemon := s.daemon.applyConfig loaded now }
  | .rejectConfig error now => { s with daemon := s.daemon.rejectConfig error now }
  | .pollNow provider account => { s with daemon := (s.daemon.pollNow provider account).2 }
  | .wake task wakeup =>
    match s.tasks[task]? with
    | none => s
    | some t =>
      let result := t.step json s.daemon wakeup
      { daemon := result.1
        tasks := s.tasks.set task result.2
        cameFrom := fun n =>
          if n = task ∧ result.2.phase ≠ t.phase then t.phase else s.cameFrom n }

def run (json : SerdeJson F) (s : PollSystem F) (inputs : List (PollInput F)) : PollSystem F :=
  inputs.foldl (step json) s

omit [F64 F] in
/-- A daemon that has not started any account yet. -/
def boot (storage : Storage F) (configPath : String) (knownProviders : List ProviderId)
    (now : DateTime) : PollSystem F where
  daemon := .new storage configPath knownProviders now

omit [F64 F] in
/-- An account that is started is not registered yet. -/
def NewAccount (s : PollSystem F) : PollInput F → Prop
  | .startAccount account _ _ _ => ∀ a ∈ s.daemon.state.accounts, a.id ≠ account.id
  | _ => True

instance (s : PollSystem F) (i : PollInput F) : Decidable (s.NewAccount i) :=
  match i with
  | .startAccount account _ _ _ =>
    inferInstanceAs (Decidable (∀ a ∈ s.daemon.state.accounts, a.id ≠ account.id))
  | .applyConfig _ _ => inferInstanceAs (Decidable True)
  | .rejectConfig _ _ => inferInstanceAs (Decidable True)
  | .pollNow _ _ => inferInstanceAs (Decidable True)
  | .wake _ _ => inferInstanceAs (Decidable True)

/-- Account ids are distinct along the run. -/
def DistinctAccounts (json : SerdeJson F) (s : PollSystem F) (inputs : List (PollInput F)) : Prop :=
  StepsMeet (step json) NewAccount s inputs

instance (json : SerdeJson F) (s : PollSystem F) (inputs : List (PollInput F)) :
    Decidable (DistinctAccounts json s inputs) :=
  inferInstanceAs (Decidable (StepsMeet (step json) NewAccount s inputs))

private theorem run_concat (json : SerdeJson F) (s : PollSystem F) (inputs : List (PollInput F))
    (i : PollInput F) : s.run json (inputs ++ [i]) = (s.run json inputs).step json i := by
  simp [run, List.foldl_append]

/-- The config and what it decides agree, and the tasks are those of the accounts. -/
structure Inv (s : PollSystem F) : Prop where
  scheduled : s.daemon.Scheduled
  accounts : s.daemon.state.accounts = s.tasks.map (·.account)
  manual : PollTask.ManualOnly s.daemon
  settled : ∀ t ∈ s.tasks, t.Settled

variable {json : SerdeJson F} {s : PollSystem F}

omit [F64 F] in
theorem Inv.mem_accounts (h : s.Inv) {t : PollTask} (ht : t ∈ s.tasks) :
    t.account ∈ s.daemon.state.accounts := by
  rw [h.accounts]
  exact List.mem_map_of_mem ht

omit [F64 F] in
theorem inv_boot (storage : Storage F) (path : String) (known : List ProviderId)
    (now : DateTime) : (boot storage path known now).Inv where
  scheduled := by
    refine ⟨List.nodup_nil, rfl, rfl, ?_, ?_⟩
    · intro a ha
      cases ha
    · intro a ha
      cases ha
  accounts := rfl
  manual := by
    intro p hp
    cases hp
  settled := by
    intro t ht
    cases ht

omit [F64 F] in
theorem inv_installConfig (h : s.Inv) (loaded : Option LoadedConfig) (error : Option String)
    (now : DateTime) : ({ s with daemon := s.daemon.installConfig loaded error now }).Inv := by
  obtain ⟨-, -, -, haccounts, -⟩ := Daemon.installConfig_state s.daemon loaded error now
  exact ⟨Daemon.scheduled_installConfig loaded error now h.scheduled, haccounts.trans h.accounts,
    PollTask.manualOnly_installConfig h.manual loaded error now, h.settled⟩

theorem inv_startAccount (h : s.Inv) {account : Account}
    (hfresh : ∀ a ∈ s.daemon.state.accounts, a.id ≠ account.id)
    (presenter : QuotaWindow F → RenderHint ℚ) (upsertFault : Option String) (now : DateTime) :
    (s.step json (.startAccount account presenter upsertFault now)).Inv := by
  refine ⟨Daemon.scheduled_startAccount json h.scheduled hfresh presenter upsertFault now,
    ?_, ?_, ?_⟩
  · change s.daemon.state.accounts ++ [account] =
      (s.tasks ++ [({ account } : PollTask)]).map (·.account)
    rw [List.map_append, ← h.accounts]
    rfl
  · exact PollTask.manualOnly_startAccount json h.manual account presenter upsertFault now
  · intro t ht
    rcases List.mem_append.mp ht with ht | ht
    · exact h.settled t ht
    · obtain rfl := List.mem_singleton.mp ht
      rfl

omit [F64 F] in
theorem inv_pollNow (h : s.Inv) (provider : ProviderId) (account : Option AccountId) :
    ({ s with daemon := (s.daemon.pollNow provider account).2 }).Inv := by
  have hsame := s.daemon.sameSchedules_pollNow provider account
  exact ⟨h.scheduled.congr hsame, hsame.accounts.trans h.accounts,
    PollTask.manualOnly_pollNow h.manual provider account, h.settled⟩

/-- What a wakeup makes of a task, and of the daemon around it. -/
theorem inv_wake (h : s.Inv) {task : Nat} {t : PollTask} (ht : s.tasks[task]? = some t)
    (wakeup : Wakeup F) (cameFrom : Nat → Phase) :
    ({ daemon := (t.step json s.daemon wakeup).1
       tasks := s.tasks.set task (t.step json s.daemon wakeup).2
       cameFrom } : PollSystem F).Inv := by
  have hmem := List.mem_of_getElem? ht
  obtain ⟨hscheduled, hmanual, haccounts, haccount, hsettled⟩ :
      (t.step json s.daemon wakeup).1.Scheduled ∧
        PollTask.ManualOnly (t.step json s.daemon wakeup).1 ∧
        (t.step json s.daemon wakeup).1.state.accounts = s.daemon.state.accounts ∧
        (t.step json s.daemon wakeup).2.account = t.account ∧
        (t.step json s.daemon wakeup).2.Settled := by
    rcases PollTask.step_cases json h.manual (h.settled t hmem) wakeup with
      ⟨hsame, hmanual, hmoves⟩ | ⟨d₁, t₁, hsame, hmanual, haccount, hready, heq⟩
    · exact ⟨h.scheduled.congr hsame, hmanual, hsame.accounts, hmoves.account_eq,
        hmoves.settled (h.settled t hmem)⟩
    · rw [heq]
      have hregistered : t₁.account ∈ d₁.state.accounts := by
        rw [haccount, hsame.accounts]
        exact h.mem_accounts hmem
      obtain ⟨hd, hbox, haccounts, hkept, hsettled⟩ :=
        PollTask.iterate_scheduled (h.scheduled.congr hsame) hmanual hregistered hready
      exact ⟨hd, hbox, haccounts.trans hsame.accounts, hkept.trans haccount, hsettled⟩
  refine ⟨hscheduled, ?_, hmanual, ?_⟩
  · change (t.step json s.daemon wakeup).1.state.accounts = _
    rw [haccounts, h.accounts, List.map_set, haccount]
    apply List.ext_getElem?
    intro i
    by_cases hi : i = task
    · subst hi
      rw [List.getElem?_set_self', List.getElem?_map, ht]
      rfl
    · rw [List.getElem?_set_ne (Ne.symm hi)]
  · intro u hu
    rcases List.mem_or_eq_of_mem_set hu with hu | rfl
    · exact h.settled u hu
    · exact hsettled

theorem inv_step (h : s.Inv) (i : PollInput F) (hnew : s.NewAccount i) : (s.step json i).Inv := by
  cases i with
  | startAccount account presenter upsertFault now =>
    exact inv_startAccount h hnew presenter upsertFault now
  | applyConfig loaded now => exact inv_installConfig h _ _ _
  | rejectConfig error now => exact inv_installConfig h _ _ _
  | pollNow provider account => exact inv_pollNow h provider account
  | wake task wakeup =>
    simp only [step]
    split
    · exact h
    · rename_i t ht
      exact inv_wake h ht wakeup _

theorem inv_run {inputs : List (PollInput F)} (h : s.Inv)
    (hdistinct : DistinctAccounts json s inputs) : (s.run json inputs).Inv :=
  hdistinct.invariant h fun _ i hs hnew => inv_step hs i hnew

omit [F64 F] in
private theorem iterate_configState (d : Daemon F) (t : PollTask) :
    (PollTask.iterate d t).1.state.configState = d.state.configState := by
  unfold PollTask.iterate
  split
  · rfl
  · simp only
    split <;> split <;> rfl

private theorem step_generation (h : s.Inv) (i : PollInput F) :
    (s.step json i).daemon.state.configState.generation =
      s.daemon.state.configState.generation + (if i.isLoad then 1 else 0) := by
  cases i with
  | startAccount account presenter upsertFault now => rfl
  | applyConfig loaded now => rfl
  | rejectConfig error now => rfl
  | pollNow provider account =>
    change (s.daemon.pollNow provider account).2.state.configState.generation = _
    rw [(s.daemon.sameSchedules_pollNow provider account).configState]
    rfl
  | wake task wakeup =>
    simp only [step]
    split
    · rfl
    · rename_i t ht
      have hsettled := h.settled t (List.mem_of_getElem? ht)
      change (t.step json s.daemon wakeup).1.state.configState.generation = _
      rcases PollTask.step_cases json h.manual hsettled wakeup with
        ⟨hsame, -, -⟩ | ⟨d₁, t₁, hsame, -, -, -, heq⟩
      · rw [hsame.configState]
        rfl
      · rw [heq, iterate_configState, hsame.configState]
        rfl

/-- The schedules follow the config: in every state reached, everything the config decides agrees
with it, every load attempt counts, and a rejected one changes nothing else. -/
theorem schedules_follow (storage : Storage F) (path : String) (known : List ProviderId)
    (now : DateTime) {inputs : List (PollInput F)}
    (hdistinct : DistinctAccounts json (boot storage path known now) inputs) :
    ((boot storage path known now).run json inputs).daemon.Scheduled ∧
      (∀ pre i post, inputs = pre ++ i :: post →
        ((boot storage path known now).run json (pre ++ [i])).daemon.state.configState.generation =
          ((boot storage path known now).run json pre).daemon.state.configState.generation +
            (if i.isLoad then 1 else 0)) ∧
      ∀ pre error ts post, inputs = pre ++ .rejectConfig error ts :: post →
        Daemon.Unaffected ((boot storage path known now).run json pre).daemon
          ((boot storage path known now).run json (pre ++ [.rejectConfig error ts])).daemon := by
  have hreached : ∀ pre i post, inputs = pre ++ i :: post →
      ((boot storage path known now).run json pre).Inv := by
    intro pre i post hsplit
    rw [hsplit, DistinctAccounts, stepsMeet_append] at hdistinct
    exact inv_run (inv_boot _ _ _ _) hdistinct.1
  refine ⟨(inv_run (inv_boot _ _ _ _) hdistinct).scheduled, ?_, ?_⟩
  · intro pre i post hsplit
    rw [run_concat]
    exact step_generation (hreached pre i post hsplit) i
  · intro pre error ts post hsplit
    rw [run_concat]
    exact Daemon.rejectConfig_unaffected ts (hreached pre _ post hsplit).scheduled error

def claudeA : Account where
  id := ⟨"claude:a"⟩
  provider := "claude"
  label := "a"

def claudeB : Account where
  id := ⟨"claude:b"⟩
  provider := "claude"
  label := "b"

/-- No account yet, and only one provider to find any of. -/
def claudeBoot : PollSystem ℚ := boot .empty "config.toml" ["claude"] 0

/-- Two accounts of a provider that is disabled while the first one polls. -/
def disabledWhilePolling : List (PollInput ℚ) := [
  .startAccount claudeA (fun _ => defaultHint) none 0, .wake 0 .started,
  .startAccount claudeB (fun _ => defaultHint) none 0,
  .applyConfig (TriggerSystem.claudeConfig false) 1,
  .wake 0 (TriggerSystem.emptyPoll 1 1), .wake 1 .started, .rejectConfig "expected a table" 2,
  .wake 0 .scheduleChanged]

theorem schedules_follow_disabledWhilePolling :
    (claudeBoot.run (.table [] []) disabledWhilePolling).daemon.Scheduled ∧
      (∀ pre i post, disabledWhilePolling = pre ++ i :: post →
        (claudeBoot.run (.table [] []) (pre ++ [i])).daemon.state.configState.generation =
          (claudeBoot.run (.table [] []) pre).daemon.state.configState.generation +
            (if i.isLoad then 1 else 0)) ∧
      ∀ pre error ts post, disabledWhilePolling = pre ++ .rejectConfig error ts :: post →
        Daemon.Unaffected (claudeBoot.run (.table [] []) pre).daemon
          (claudeBoot.run (.table [] []) (pre ++ [.rejectConfig error ts])).daemon :=
  schedules_follow .empty "config.toml" ["claude"] 0 (by decide)

end PollSystem
end Teiryo
