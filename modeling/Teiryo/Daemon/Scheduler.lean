import Teiryo.Daemon.State

/-!
# Poll tasks

One task per account decides when to poll, following `teiryod/src/scheduler.rs`. A task runs
without interruption from one `await` to the next, so its state machine has one phase per `await`
and one transition per way of leaving it; `iterate` is the stretch from the top of the loop to
the next `await`.
-/

namespace Teiryo

/-- `Duration::MAX`. -/
def StdDuration.max : StdDuration := (2 ^ 64 - 1) * 1000000000 + 999999999

/-- `Duration::checked_mul`. -/
def StdDuration.checkedMul (d : StdDuration) (n : Nat) : Option StdDuration :=
  if d * n ≤ StdDuration.max then some (d * n) else none

def backoffFactor : Nat := 2

def maxBackoff : StdDuration := Config.fromSecs 3600

def credentialRecheckMax : StdDuration := Config.fromSecs 30

/-- How far a poll got before it produced its outcome. -/
inductive Stage where
  | credential
  | provider
  deriving DecidableEq, Repr

structure Polled (F : Type) where
  outcome : PollOutcome F
  stage : Stage
  deriving DecidableEq, Repr

/-- Consecutive rate-limited polls, and the wait they buy. -/
structure Throttle where
  strikes : UInt32 := 0
  retryAfter : Option StdDuration := none
  deriving DecidableEq, Repr

namespace Throttle

variable {F : Type}

/-- `u32::saturating_add(1)`. -/
def saturatingSucc (n : UInt32) : UInt32 := UInt32.ofNat (min (n.toNat + 1) (2 ^ 32 - 1))

/-- Fold in the poll that just finished. One that stopped at the credential says nothing. -/
def record (t : Throttle) (polled : Polled F) : Throttle :=
  match polled.stage with
  | .credential => t
  | .provider =>
    match polled.outcome with
    | .rateLimited retryAfter => { strikes := saturatingSucc t.strikes, retryAfter }
    | _ => {}

def isThrottled (t : Throttle) : Bool := decide (0 < t.strikes)

/-- The wait before the next scheduled poll, given the configured cadence. -/
def delay (t : Throttle) (base : StdDuration) : StdDuration :=
  if t.strikes = 0 then base
  else
    let doublings := min (t.strikes.toNat - 1) 31
    let factor := min (backoffFactor ^ doublings) (2 ^ 32 - 1)
    let scaled := max (min ((base.checkedMul factor).getD maxBackoff) maxBackoff) base
    max scaled (t.retryAfter.getD 0)

end Throttle

/-- What the poll task does next. -/
inductive Step where
  | park
  | pollNow
  | recheck (after : StdDuration)
  | wait (after : StdDuration)
  deriving DecidableEq, Repr

/-- Why the task is or is not polling right now. -/
structure Gate where
  throttle : Throttle := {}
  credentialStale : Bool := false
  deriving DecidableEq, Repr

/-- A change in why the task is polling or not. -/
inductive Transition where
  | paused
  | resumed
  | throttled
  deriving DecidableEq, Repr

namespace Gate

variable {F : Type}

/-- Fold in the poll that just finished, reporting the edges it crossed. -/
def record (g : Gate) (polled : Polled F) : Gate × Option Transition × Option Transition :=
  let next : Gate := {
    throttle := g.throttle.record polled
    credentialStale := decide (polled.stage = .credential) }
  let credential :=
    match g.credentialStale, next.credentialStale with
    | false, true => some .paused
    | true, false => some .resumed
    | _, _ => none
  let throttled :=
    if next.throttle.isThrottled && !g.throttle.isThrottled then some .throttled else none
  (next, credential, throttled)

/-- A re-check resolved the credential, sending nothing. -/
def credentialOk (g : Gate) : Gate × Option Transition :=
  ({ g with credentialStale := false }, if g.credentialStale then some .resumed else none)

def park (_ : Gate) : Gate := {}

/-- The next thing to do. -/
def nextStep (g : Gate) (schedule : Schedule) (pollImmediately : Bool) : Step :=
  if !schedule.enabled then .park
  else if pollImmediately then .pollNow
  else if g.credentialStale then .recheck (min schedule.interval credentialRecheckMax)
  else .wait (g.throttle.delay schedule.interval)

end Gate

/-- The cadence clients should count down to for a step; none leaves the published one alone. -/
def reportedInterval (step : Step) (resting : StdDuration) : Option StdDuration :=
  match step with
  | .recheck _ => some 0
  | .wait after => some after
  | .pollNow => some resting
  | .park => none

/-- Where a poll task is suspended. -/
inductive Phase where
  | spawned
  | parked
  | polling (trigger : PollTrigger)
  | rechecking (after : StdDuration)
  | resolving
  | waiting (after : StdDuration)
  | stopped
  deriving DecidableEq, Repr

/-- The locals of a poll task; `seen` is the schedule version it last looked at. -/
structure PollTask where
  account : Account
  pollImmediately : Bool := true
  gate : Gate := {}
  seen : Nat := 0
  phase : Phase := .spawned
  deriving DecidableEq, Repr

/-- What lets a suspended task go on. -/
inductive Wakeup (F : Type) where
  /-- The runtime first polls the spawned task. -/
  | started
  /-- The sleep is over. -/
  | elapsed
  /-- The trigger queue has a message. -/
  | trigger
  /-- The schedule was sent again. -/
  | scheduleChanged
  /-- The credential re-check answered. -/
  | resolved (ok : Bool)
  /-- The poll finished: its result and the rest of its event. -/
  | polled (polled : Polled F) (id : PollId) (ts : DateTime) (latencyMs : UInt32)
      (faults : Storage.Faults)
  | shutdown

namespace PollTask

variable {F : Type}

def key (t : PollTask) : PollerKey := (t.account.provider, t.account.id)

/-- The event a poll publishes. -/
def event (t : PollTask) (trigger : PollTrigger) (polled : Polled F) (id : PollId) (ts : DateTime)
    (latencyMs : UInt32) : PollEvent F where
  id := id
  ts := ts
  provider := t.account.provider
  account := t.account.id
  trigger := trigger
  outcome := polled.outcome
  latencyMs := latencyMs

/-- From the top of the loop to the next `await`. -/
def iterate (d : Daemon F) (t : PollTask) : Daemon F × PollTask :=
  match d.state.schedules.get t.key with
  | none => (d, { t with phase := .stopped })
  | some tx =>
    let step := t.gate.nextStep tx.value t.pollImmediately
    let d :=
      match reportedInterval step (t.gate.throttle.delay tx.value.interval) with
      | some interval => d.setReportedInterval t.account.id interval
      | none => d
    let t := { t with seen := tx.version }
    match step with
    | .park => (d, { t with pollImmediately := true, gate := t.gate.park, phase := .parked })
    | .pollNow => (d, { t with pollImmediately := false, phase := .polling .startup })
    | .recheck after => (d, { t with phase := .rechecking after })
    | .wait after => (d, { t with phase := .waiting after })

end PollTask

/-- The trigger queue of one poll task. -/
def SharedState.mailbox {F : Type} (st : SharedState F) (key : PollerKey) :
    Option (Mailbox PollTrigger) :=
  (st.pollers.find? (·.1 == key)).map (·.2)

/-- Change the trigger queue of one poll task. -/
def SharedState.setMailbox {F : Type} (st : SharedState F) (key : PollerKey)
    (box : Mailbox PollTrigger) : SharedState F :=
  { st with pollers := st.pollers.map fun p => (p.1, if p.1 == key then box else p.2) }

/-- A change of every queue by its key is a change of the queue looked up. -/
theorem SharedState.mailbox_map {F : Type} (st : SharedState F) (key : PollerKey)
    (change : PollerKey → Mailbox PollTrigger → Mailbox PollTrigger) :
    ({ st with pollers := st.pollers.map fun p => (p.1, change p.1 p.2) } :
      SharedState F).mailbox key = (st.mailbox key).map (change key) := by
  simp only [mailbox]
  induction st.pollers with
  | nil => rfl
  | cons p ps ih =>
    rw [List.map_cons, List.find?_cons, List.find?_cons]
    by_cases hp : p.1 = key
    · simp [hp]
    · have hbeq : (p.1 == key) = false := beq_eq_false_iff_ne.mpr hp
      simp only [hbeq]
      exact ih

namespace PollTask

variable {F : Type} [F64 F]

/-- Take the next trigger, if the task is at an `await` that listens for one. -/
def receive (d : Daemon F) (t : PollTask) : Daemon F × PollTask :=
  match (d.state.mailbox t.key).bind Mailbox.recv with
  | none => (d, t)
  | some (trigger, box) =>
    ({ d with state := d.state.setMailbox t.key box }, { t with phase := .polling trigger })

/-- One transition. A wakeup the task is not waiting for changes nothing. -/
def step (json : SerdeJson F) (d : Daemon F) (t : PollTask) : Wakeup F → Daemon F × PollTask
  | .started =>
    match t.phase with
    | .spawned => iterate d t
    | _ => (d, t)
  | .elapsed =>
    match t.phase with
    | .waiting _ => (d, { t with phase := .polling .scheduled })
    | .rechecking _ => (d, { t with phase := .resolving })
    | _ => (d, t)
  | .trigger =>
    match t.phase with
    | .waiting _ => receive d t
    | .rechecking _ => receive d t
    | _ => (d, t)
  | .scheduleChanged =>
    match t.phase, d.state.schedules.get t.key with
    | .parked, some tx => if tx.hasChanged t.seen then iterate d t else (d, t)
    | .waiting _, some tx => if tx.hasChanged t.seen then iterate d t else (d, t)
    | .rechecking _, some tx => if tx.hasChanged t.seen then iterate d t else (d, t)
    | _, _ => (d, t)
  | .resolved ok =>
    match t.phase with
    | .resolving =>
      if ok then iterate d { t with gate := t.gate.credentialOk.1, pollImmediately := true }
      else iterate d t
    | _ => (d, t)
  | .polled polled id ts latencyMs faults =>
    match t.phase with
    | .polling trigger =>
      let d := d.recordEvent json faults (t.event trigger polled id ts latencyMs)
      iterate d { t with gate := (t.gate.record polled).1 }
    | _ => (d, t)
  | .shutdown =>
    match t.phase with
    | .parked => (d, { t with phase := .stopped })
    | .waiting _ => (d, { t with phase := .stopped })
    | .rechecking _ => (d, { t with phase := .stopped })
    | _ => (d, t)

end PollTask

namespace Daemon

variable {F : Type} [F64 F]

/-- Bring one discovered account into service: persist it, seed its health row, replay what the
last run learned about it, and start its poll task. -/
def startAccount (json : SerdeJson F) (d : Daemon F) (account : Account)
    (presenter : QuotaWindow F → RenderHint ℚ) (upsertFault : Option String) (now : DateTime) :
    Daemon F × PollTask :=
  let st := d.state
  let key := (account.provider, account.id)
  let st := { st with
    storage := if upsertFault.isSome then st.storage else st.storage.upsertAccount account
    accounts := st.accounts ++ [account]
    health := st.health.insert key ((st.health.get key).getD {}) }
  let d := ({ d with state := st }.hydrateAccount json account now).registerPoller account presenter
  ({ d with state := { d.state with
      pollers := d.state.pollers.filter (·.1 != key) ++ [(key, {})] } },
    { account })

end Daemon
end Teiryo
