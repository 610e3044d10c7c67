import Teiryo.Daemon.Schedules

/-!
# Discovery

How accounts come into service, following `run` in `teiryod/src/lib.rs` and `spawn_rediscovery`
in `scheduler.rs`. At startup every adapter is asked for its accounts once, in turn. One that has
none, or fails, gets a task that asks again until it has some; the task waits on the config while
the provider is disabled.
-/

namespace Teiryo

/-- What an adapter brings to discovery: its provider, and how its windows are drawn. -/
structure Adapter (F : Type) where
  provider : ProviderId
  presenter : QuotaWindow F → RenderHint ℚ

/-- The accounts an adapter answers with, or its error's message. -/
abbrev Discovered := Except String (List Account)

/-- Whether there are accounts to start. -/
def Discovered.found : Discovered → Bool
  | .ok (_ :: _) => true
  | _ => false

/-- How long to wait between discovery attempts: a local read, as often as the credential is
re-checked. -/
def rediscoveryInterval (config : Config) (provider : ProviderId) : StdDuration :=
  min (config.pollInterval provider) credentialRecheckMax

/-- Where a rediscovery task is suspended. -/
inductive RediscoveryPhase where
  | spawned
  | parked
  | sleeping (after : StdDuration)
  | discovering
  | finished
  | stopped
  deriving DecidableEq, Repr

/-- At an `await` that listens for the config and for the shutdown. -/
def RediscoveryPhase.listens : RediscoveryPhase → Bool
  | .parked => true
  | .sleeping _ => true
  | _ => false

/-- The locals of a rediscovery task; `seen` is the config version it last looked at. -/
structure Rediscovery (F : Type) where
  adapter : Adapter F
  immediately : Bool := false
  seen : Nat
  phase : RediscoveryPhase := .spawned

namespace Rediscovery

variable {F : Type}

/-- From the top of the loop to the next `await`. -/
def iterate (config : Config) (t : Rediscovery F) : Rediscovery F :=
  if config.providerEnabled t.adapter.provider then
    if t.immediately then { t with immediately := false, phase := .discovering }
    else { t with phase := .sleeping (rediscoveryInterval config t.adapter.provider) }
  else { t with immediately := true, phase := .parked }

end Rediscovery

/-- The daemon while it looks for accounts. `starting` are the adapters startup has not heard from
yet. The last field records history: what was answered, oldest first. -/
structure Discovery (F : Type) where
  polls : PollSystem F
  discoveryErrors : List (ProviderId × String) := []
  starting : List (Adapter F)
  tasks : List (Rediscovery F) := []
  answers : List (ProviderId × Discovered) := []

/-- What the outside adds to an account that is started: the time, and whether the database takes
it. -/
structure StartEnv where
  upsertFault : Account → Option String := fun _ => none
  now : DateTime

inductive DiscoveryInput (F : Type) where
  /-- The adapter that startup waits for answers. -/
  | startup (answer : Discovered) (env : StartEnv)
  /-- The runtime first polls a spawned task. -/
  | started (task : Nat)
  /-- A task's sleep is over. -/
  | elapsed (task : Nat)
  | configChanged (task : Nat)
  /-- The adapter that a task waits for answers. -/
  | answered (task : Nat) (answer : Discovered) (env : StartEnv)
  | shutdown (task : Nat)
  /-- Anything else in the daemon. -/
  | poll (input : PollInput F)

namespace Discovery

variable {F : Type}

def config (s : Discovery F) : Config := s.polls.daemon.state.config

def accounts (s : Discovery F) : List Account := s.polls.daemon.state.accounts

/-- The entries of the other providers. -/
def otherErrors (s : Discovery F) (provider : ProviderId) : List (ProviderId × String) :=
  s.discoveryErrors.filter fun e => e.1 != provider

/-- The discovery error kept for a provider. -/
def discoveryError (s : Discovery F) (provider : ProviderId) : Option String :=
  (s.discoveryErrors.find? fun e => e.1 == provider).map (·.2)

/-- What a provider's adapter answered, oldest first. -/
def answersOf (s : Discovery F) (provider : ProviderId) : List Discovered :=
  (s.answers.filter fun a => a.1 == provider).map (·.2)

/-- Ask the adapter again later. -/
def spawnRediscovery (s : Discovery F) (adapter : Adapter F) : Discovery F :=
  { s with tasks := s.tasks ++ [{ adapter, seen := s.polls.daemon.configTx.version }] }

def setTask (s : Discovery F) (task : Nat) (t : Rediscovery F) : Discovery F :=
  { s with tasks := s.tasks.set task t }

section Steps

variable [F64 F] (json : SerdeJson F)

def startAccounts (polls : PollSystem F) (adapter : Adapter F) (env : StartEnv)
    (accounts : List Account) : PollSystem F :=
  accounts.foldl (fun s a => s.step json
    (.startAccount a adapter.presenter (env.upsertFault a) env.now)) polls

/-- What startup does with an answer. -/
def startup (s : Discovery F) (adapter : Adapter F) (rest : List (Adapter F))
    (answer : Discovered) (env : StartEnv) : Discovery F :=
  let s := { s with starting := rest, answers := s.answers ++ [(adapter.provider, answer)] }
  match answer with
  | .error message =>
    { s with discoveryErrors :=
        s.otherErrors adapter.provider ++ [(adapter.provider, message)] }.spawnRediscovery adapter
  | .ok [] => s.spawnRediscovery adapter
  | .ok accounts => { s with polls := startAccounts json s.polls adapter env accounts }

/-- What a task does with an answer. -/
def answered (s : Discovery F) (task : Nat) (t : Rediscovery F) (answer : Discovered)
    (env : StartEnv) : Discovery F :=
  let provider := t.adapter.provider
  let s := { s with answers := s.answers ++ [(provider, answer)] }
  match answer with
  | .error message =>
    { s with discoveryErrors := s.otherErrors provider ++ [(provider, message)] }.setTask task
      (t.iterate s.config)
  | .ok [] =>
    { s with discoveryErrors := s.otherErrors provider }.setTask task (t.iterate s.config)
  | .ok accounts =>
    { s with
      discoveryErrors := s.otherErrors provider
      polls := startAccounts json s.polls t.adapter env accounts }.setTask task
        { t with phase := .finished }

/-- One transition. An input that nothing waits for changes nothing. -/
def step (s : Discovery F) : DiscoveryInput F → Discovery F
  | .startup answer env =>
    match s.starting with
    | [] => s
    | adapter :: rest => s.startup json adapter rest answer env
  | .started task =>
    match s.tasks[task]? with
    | some t => if t.phase = .spawned then s.setTask task (t.iterate s.config) else s
    | none => s
  | .elapsed task =>
    match s.tasks[task]? with
    | some t =>
      match t.phase with
      | .sleeping _ => s.setTask task { t with immediately := false, phase := .discovering }
      | _ => s
    | none => s
  | .configChanged task =>
    match s.tasks[task]? with
    | some t =>
      if t.phase.listens && s.polls.daemon.configTx.hasChanged t.seen then
        s.setTask task ({ t with seen := s.polls.daemon.configTx.version }.iterate s.config)
      else s
    | none => s
  | .answered task answer env =>
    match s.tasks[task]? with
    | some t => if t.phase = .discovering then s.answered json task t answer env else s
    | none => s
  | .shutdown task =>
    match s.tasks[task]? with
    | some t =>
      if t.phase.listens then s.setTask task { t with phase := .stopped } else s
    | none => s
  | .poll input =>
    match input with
    | .startAccount _ _ _ _ => s
    | input => { s with polls := s.polls.step json input }

def run (s : Discovery F) (inputs : List (DiscoveryInput F)) : Discovery F :=
  inputs.foldl (step json) s

omit [F64 F] in
/-- A daemon that has heard from no adapter yet. -/
def boot (storage : Storage F) (configPath : String) (adapters : List (Adapter F))
    (now : DateTime) : Discovery F where
  polls := .boot storage configPath (adapters.map (·.provider)) now
  starting := adapters

end Steps
end Discovery

section Frames

variable {F : Type} [F64 F] (json : SerdeJson F)

/-- The daemons have the same accounts and the same config. -/
structure Daemon.SameConfig (d d' : Daemon F) : Prop where
  accounts : d'.state.accounts = d.state.accounts
  config : d'.state.config = d.state.config
  configState : d'.state.configState = d.state.configState
  configTx : d'.configTx = d.configTx
  watchTx : d'.watchTx.Follows d.watchTx

omit [F64 F] in
theorem Daemon.SameConfig.refl (d : Daemon F) : d.SameConfig d :=
  ⟨rfl, rfl, rfl, rfl, .inl rfl⟩

omit [F64 F] in
theorem PollTask.sameConfig_iterate (d : Daemon F) (t : PollTask) :
    d.SameConfig (t.iterate d).1 := by
  unfold PollTask.iterate
  split
  · exact .refl d
  · dsimp only
    split <;> split <;> exact ⟨rfl, rfl, rfl, rfl, .inl rfl⟩

theorem PollTask.sameConfig_step (d : Daemon F) (t : PollTask) (wakeup : Wakeup F) :
    d.SameConfig (t.step json d wakeup).1 := by
  have hreceive : d.SameConfig (t.receive d).1 := by
    unfold PollTask.receive
    split
    · exact .refl d
    · exact ⟨rfl, rfl, rfl, rfl, .inl rfl⟩
  cases wakeup with
  | started =>
    simp only [PollTask.step]
    split
    · exact PollTask.sameConfig_iterate d t
    · exact .refl d
  | elapsed =>
    simp only [PollTask.step]
    split <;> exact .refl d
  | trigger =>
    simp only [PollTask.step]
    split
    · exact hreceive
    · exact hreceive
    · exact .refl d
  | scheduleChanged =>
    have hchanged : ∀ c : Bool, d.SameConfig (if c then t.iterate d else (d, t)).1 := by
      intro c
      cases c with
      | false => exact .refl d
      | true => exact PollTask.sameConfig_iterate d t
    simp only [PollTask.step]
    split
    · exact hchanged _
    · exact hchanged _
    · exact hchanged _
    · exact .refl d
  | resolved ok =>
    simp only [PollTask.step]
    split
    · split
      · exact PollTask.sameConfig_iterate d _
      · exact PollTask.sameConfig_iterate d t
    · exact .refl d
  | polled polled id ts latencyMs faults =>
    simp only [PollTask.step]
    split
    · rename_i trigger _
      have h := PollTask.sameConfig_iterate
        (d.recordEvent json faults (t.event trigger polled id ts latencyMs))
        { t with gate := (t.gate.record polled).1 }
      exact ⟨h.accounts, h.config, h.configState, h.configTx,
        h.watchTx.trans (Watch.sendReplace_follows d.watchTx _)⟩
    · exact .refl d
  | shutdown =>
    simp only [PollTask.step]
    split <;> exact .refl d

/-- Accounts come in one way, and a config only along with a send on its channel. -/
theorem PollSystem.step_frame (s : PollSystem F) (i : PollInput F) :
    (s.step json i).daemon.state.accounts = s.daemon.state.accounts ++
        (match i with
          | .startAccount account _ _ _ => [account]
          | _ => []) ∧
      (s.daemon.configTx.version < (s.step json i).daemon.configTx.version ∨
        (s.step json i).daemon.state.config = s.daemon.state.config ∧
          (s.step json i).daemon.configTx = s.daemon.configTx) := by
  have hinstall : ∀ loaded error now,
      (s.daemon.installConfig loaded error now).state.accounts = s.daemon.state.accounts ∧
        s.daemon.configTx.version < (s.daemon.installConfig loaded error now).configTx.version :=
    fun loaded error now =>
      ⟨(Daemon.installConfig_state s.daemon loaded error now).2.2.2.1, Nat.lt_succ_self _⟩
  cases i with
  | startAccount account presenter upsertFault now => exact ⟨rfl, .inr ⟨rfl, rfl⟩⟩
  | applyConfig loaded now =>
    obtain ⟨haccounts, hversion⟩ := hinstall (some loaded) none now
    exact ⟨haccounts.trans (List.append_nil _).symm, .inl hversion⟩
  | rejectConfig error now =>
    obtain ⟨haccounts, hversion⟩ := hinstall none (some error) now
    exact ⟨haccounts.trans (List.append_nil _).symm, .inl hversion⟩
  | pollNow provider account =>
    have hsame := s.daemon.sameSchedules_pollNow provider account
    exact ⟨hsame.accounts.trans (List.append_nil _).symm, .inr ⟨hsame.config, hsame.configTx⟩⟩
  | wake task wakeup =>
    rw [List.append_nil]
    simp only [PollSystem.step]
    split
    · exact ⟨rfl, .inr ⟨rfl, rfl⟩⟩
    · rename_i t ht
      have hsame := PollTask.sameConfig_step json s.daemon t wakeup
      exact ⟨hsame.accounts, .inr ⟨hsame.config, hsame.configTx⟩⟩

/-- The daemon later on: what was sent can be told, and the config's channel carries the
generation of the config, if it did. -/
structure Daemon.Onwards (d d' : Daemon F) : Prop where
  watchTx : d'.watchTx.Follows d.watchTx
  configTx : d'.configTx.Follows d.configTx
  numbered : d.configTx.value = d.state.configState.generation →
    d'.configTx.value = d'.state.configState.generation

omit [F64 F] in
theorem Daemon.Onwards.refl (d : Daemon F) : d.Onwards d := ⟨.inl rfl, .inl rfl, id⟩

omit [F64 F] in
theorem Daemon.Onwards.trans {d d' d'' : Daemon F} (h : d.Onwards d') (h' : d'.Onwards d'') :
    d.Onwards d'' :=
  ⟨h'.watchTx.trans h.watchTx, h'.configTx.trans h.configTx, fun hd => h'.numbered (h.numbered hd)⟩

omit [F64 F] in
theorem Daemon.onwards_installConfig (d : Daemon F) (loaded : Option LoadedConfig)
    (error : Option String) (now : DateTime) : d.Onwards (d.installConfig loaded error now) :=
  ⟨.inl rfl, Watch.sendReplace_follows d.configTx _, fun _ => rfl⟩

omit [F64 F] in
theorem Daemon.onwards_pollNow (d : Daemon F) (provider : ProviderId)
    (account : Option AccountId) : d.Onwards (d.pollNow provider account).2 := by
  unfold Daemon.pollNow
  dsimp only
  split
  · exact .refl d
  · split
    · exact .refl d
    · split
      · exact .refl d
      · exact ⟨.inl rfl, .inl rfl, id⟩

theorem PollSystem.onwards_step (s : PollSystem F) (i : PollInput F) :
    s.daemon.Onwards (s.step json i).daemon := by
  cases i with
  | startAccount account presenter upsertFault now => exact ⟨.inl rfl, .inl rfl, id⟩
  | applyConfig loaded now => exact s.daemon.onwards_installConfig (some loaded) none now
  | rejectConfig error now => exact s.daemon.onwards_installConfig none (some error) now
  | pollNow provider account => exact s.daemon.onwards_pollNow provider account
  | wake task wakeup =>
    simp only [PollSystem.step]
    split
    · exact .refl s.daemon
    · rename_i t ht
      have hsame := PollTask.sameConfig_step json s.daemon t wakeup
      refine ⟨hsame.watchTx, .inl hsame.configTx, ?_⟩
      rw [hsame.configTx, hsame.configState]
      exact id

end Frames

namespace Discovery

variable {F : Type}

/-- How a task goes on by itself. -/
inductive Moves (d : Daemon F) (t : Rediscovery F) : Rediscovery F → Prop where
  | started (h : t.phase = .spawned) : Moves d t (t.iterate d.state.config)
  | changed (h : t.phase.listens = true) (hseen : t.seen < d.configTx.version) :
    Moves d t ({ t with seen := d.configTx.version }.iterate d.state.config)
  | elapsed {after : StdDuration} (h : t.phase = .sleeping after) :
    Moves d t { t with immediately := false, phase := .discovering }
  | stopped (h : t.phase.listens = true) : Moves d t { t with phase := .stopped }

variable [F64 F] (json : SerdeJson F)

/-- What becomes of the daemon: nothing, what the poll tasks and the config do, a move of one
task, or an answer that startup or a task was waiting for. -/
inductive Goes (s : Discovery F) : DiscoveryInput F → Discovery F → Prop where
  | idle (i : DiscoveryInput F) : Goes s i s
  | polled (input : PollInput F)
      (hinput : (s.polls.step json input).daemon.state.accounts = s.accounts) :
    Goes s (.poll input) { s with polls := s.polls.step json input }
  | moved (i : DiscoveryInput F) {task : Nat} {t t' : Rediscovery F} (ht : s.tasks[task]? = some t)
      (hmoves : Moves s.polls.daemon t t') (hstop : t'.phase = .stopped → i = .shutdown task) :
    Goes s i (s.setTask task t')
  | startup {adapter : Adapter F} {rest : List (Adapter F)}
      (hstarting : s.starting = adapter :: rest) (answer : Discovered) (env : StartEnv) :
    Goes s (.startup answer env) (s.startup json adapter rest answer env)
  | answered {task : Nat} {t : Rediscovery F} (ht : s.tasks[task]? = some t)
      (hphase : t.phase = .discovering) (answer : Discovered) (env : StartEnv) :
    Goes s (.answered task answer env) (s.answered json task t answer env)

omit [F64 F] in
theorem iterate_live (config : Config) (t : Rediscovery F) :
    (t.iterate config).adapter = t.adapter ∧ (t.iterate config).phase ≠ .finished ∧
      (t.iterate config).phase ≠ .stopped := by
  unfold Rediscovery.iterate
  split
  · split
    · exact ⟨rfl, by simp, by simp⟩
    · exact ⟨rfl, by simp, by simp⟩
  · exact ⟨rfl, by simp, by simp⟩

theorem goes_step (s : Discovery F) (i : DiscoveryInput F) : Goes json s i (s.step json i) := by
  cases i with
  | startup answer env =>
    simp only [step]
    split
    · exact .idle _
    · rename_i adapter rest hstarting
      exact .startup hstarting answer env
  | started task =>
    simp only [step]
    split
    · rename_i t ht
      split
      · rename_i hphase
        exact .moved _ ht (.started hphase) fun h => absurd h (iterate_live _ _).2.2
      · exact .idle _
    · exact .idle _
  | elapsed task =>
    simp only [step]
    split
    · rename_i t ht
      split
      · rename_i hphase
        exact .moved _ ht (.elapsed hphase) fun h => by cases h
      · exact .idle _
    · exact .idle _
  | configChanged task =>
    simp only [step]
    split
    · rename_i t ht
      split
      · rename_i hphase
        rw [Bool.and_eq_true] at hphase
        exact .moved _ ht (.changed hphase.1 (of_decide_eq_true hphase.2)) fun h =>
          absurd h (iterate_live _ _).2.2
      · exact .idle _
    · exact .idle _
  | answered task answer env =>
    simp only [step]
    split
    · rename_i t ht
      split
      · rename_i hphase
        exact .answered ht hphase answer env
      · exact .idle _
    · exact .idle _
  | shutdown task =>
    simp only [step]
    split
    · rename_i t ht
      split
      · rename_i hphase
        exact .moved _ ht (.stopped hphase) fun _ => rfl
      · exact .idle _
    · exact .idle _
  | poll input =>
    have haccounts := (PollSystem.step_frame json s.polls input).1
    cases input with
    | startAccount account presenter upsertFault now => exact .idle _
    | applyConfig loaded now => exact .polled _ (haccounts.trans (List.append_nil _))
    | rejectConfig error now => exact .polled _ (haccounts.trans (List.append_nil _))
    | pollNow provider account => exact .polled _ (haccounts.trans (List.append_nil _))
    | wake task wakeup => exact .polled _ (haccounts.trans (List.append_nil _))

omit [F64 F] in
/-- A task that moves keeps its adapter, and was not done and is not. -/
theorem Moves.live {d : Daemon F} {t t' : Rediscovery F} (h : Moves d t t') :
    t'.adapter = t.adapter ∧ t.phase ≠ .finished ∧ t'.phase ≠ .finished := by
  have hlistens : t.phase.listens = true → t.phase ≠ .finished := by
    rintro h heq
    rw [heq] at h
    cases h
  cases h with
  | started h => exact ⟨(iterate_live _ t).1, by simp [h], (iterate_live _ t).2.1⟩
  | changed h hseen => exact ⟨(iterate_live _ _).1, hlistens h, (iterate_live _ _).2.1⟩
  | elapsed h => exact ⟨rfl, by simp [h], by simp⟩
  | stopped h => exact ⟨rfl, hlistens h, by simp⟩

end Discovery
end Teiryo
