import Teiryo.Daemon.Schedules
import Teiryo.Daemon.Throttling

/-!
# How long a rate limit is waited out

A poll task sleeps a jittered wait before each scheduled poll, following `jittered` in
`teiryod/src/scheduler.rs`. The jitter takes up to a tenth off the wait, a `Retry-After` included,
so only a wait the throttle chose for itself leaves room for one.
-/

namespace Teiryo

/-- `str::parse::<u64>`. -/
def parseU64 (text : String) : Option UInt64 :=
  let digits := match text.toList with
    | '+' :: digits => digits
    | digits => digits
  let value : Nat := digits.foldl (fun n c => 10 * n + (c.toNat - 48)) 0
  if !digits.isEmpty && digits.all Char.isDigit && decide (value < 2 ^ 64) then
    some (UInt64.ofNat value)
  else none

/-- The `Retry-After` of a response, following `claude/mod.rs`. -/
def retryAfterOf (headers : List (String × String)) : Option StdDuration :=
  ((headers.find? fun h => h.1.toLower == "retry-after").bind fun h => parseU64 h.2).map
    fun secs => Config.fromSecs secs.toNat

private theorem retryAfterOf_secs {headers : List (String × String)} {r : StdDuration}
    (h : retryAfterOf headers = some r) : ∃ secs : UInt64, r = Config.fromSecs secs.toNat := by
  obtain ⟨secs, -, rfl⟩ := Option.map_eq_some_iff.mp h
  exact ⟨secs, rfl⟩

/-- The subsecond clock, in nanoseconds. -/
abbrev Subsec := Fin 1000000000

namespace StdDuration

/-- `as_millis() as u64`. -/
def asMillis (d : StdDuration) : Nat := d / 1000000 % 2 ^ 64

/-- `Duration::from_millis`. -/
def fromMillis (millis : Nat) : StdDuration := millis * 1000000

end StdDuration

/-- Base interval ±10%. -/
def jittered (nanos : Subsec) (base : StdDuration) : StdDuration :=
  let spread := max (base.asMillis / 5) 1
  let offset := nanos.val % spread
  let low := base.asMillis - spread / 2
  StdDuration.fromMillis (low + offset)

/-- Neither the difference nor the sum leaves the `u64` it is computed in. -/
theorem jittered_fits (nanos : Subsec) (base : StdDuration) :
    max (base.asMillis / 5) 1 / 2 ≤ base.asMillis ∧
      base.asMillis - max (base.asMillis / 5) 1 / 2 + nanos.val % max (base.asMillis / 5) 1 <
        2 ^ 64 := by
  have hmillis : base.asMillis < 2 ^ 64 := Nat.mod_lt _ (by decide)
  have hoffset : nanos.val % max (base.asMillis / 5) 1 < max (base.asMillis / 5) 1 :=
    Nat.mod_lt _ (by omega)
  have hnanos : nanos.val % max (base.asMillis / 5) 1 ≤ nanos.val := Nat.mod_le _ _
  have hsubsec := nanos.isLt
  omega

/-- The shortest sleep is that of a clock on a whole second. -/
theorem jittered_ge_iff (base : StdDuration) (millis : Nat) :
    (∀ nanos, StdDuration.fromMillis millis ≤ jittered nanos base) ↔
      millis + max (base.asMillis / 5) 1 / 2 ≤ base.asMillis := by
  have hfits := (jittered_fits 0 base).1
  unfold jittered StdDuration.fromMillis
  constructor
  · intro h
    have hzero := h 0
    simp only [Fin.val_zero, Nat.zero_mod, Nat.add_zero] at hzero
    have hle : millis ≤ base.asMillis - max (base.asMillis / 5) 1 / 2 :=
      Nat.le_of_mul_le_mul_right hzero (by decide)
    omega
  · intro h nanos
    have hle : millis ≤ base.asMillis - max (base.asMillis / 5) 1 / 2 := by omega
    exact Nat.mul_le_mul_right _ (hle.trans (Nat.le_add_right _ _))

/-- The wait a throttle would choose without the provider's answer. -/
def Throttle.backoff (t : Throttle) (base : StdDuration) : StdDuration :=
  max base (min (base * 2 ^ min (t.strikes.toNat - 1) 31) maxBackoff)

/-- A wait leaves room for an answer when it exceeds it by what the jitter may take off. -/
def LeavesRoom (own retryAfter : StdDuration) : Prop :=
  retryAfter / 1000000 + max (own.asMillis / 5) 1 / 2 ≤ own.asMillis

instance (own retryAfter : StdDuration) : Decidable (LeavesRoom own retryAfter) :=
  inferInstanceAs (Decidable (_ ≤ _))

/-- A sleep honours an answer, whatever the clock, exactly if the throttle's own wait leaves room
for it: an answer that is itself the wait is cut short. -/
theorem jittered_honours_iff (own : StdDuration) (secs : UInt64) :
    (∀ nanos, Config.fromSecs secs.toNat ≤ jittered nanos (max own (Config.fromSecs secs.toNat))) ↔
      LeavesRoom own (Config.fromSecs secs.toNat) := by
  have hmillis : Config.fromSecs secs.toNat = StdDuration.fromMillis (secs.toNat * 1000) := by
    show secs.toNat * 1000000000 = secs.toNat * 1000 * 1000000
    rw [Nat.mul_assoc]
  have hdiv : Config.fromSecs secs.toNat / 1000000 = secs.toNat * 1000 := by
    show secs.toNat * 1000000000 / 1000000 = secs.toNat * 1000
    omega
  unfold LeavesRoom
  rw [hdiv]
  rcases Nat.le_total own (Config.fromSecs secs.toNat) with hanswer | hown
  · rw [max_eq_right hanswer]
    have hwait := jittered_ge_iff (Config.fromSecs secs.toNat) (secs.toNat * 1000)
    rw [← hmillis] at hwait
    rw [hwait]
    -- either side holds only where the provider asks for nothing
    have hzero (base : StdDuration) (hbase : base ≤ Config.fromSecs secs.toNat) :
        secs.toNat * 1000 + max (base.asMillis / 5) 1 / 2 ≤ base.asMillis ↔ secs.toNat = 0 := by
      have hless : base.asMillis ≤ secs.toNat * 1000 := by
        rw [← hdiv]
        exact (Nat.mod_le _ _).trans (Nat.div_le_div_right hbase)
      omega
    rw [hzero _ le_rfl, hzero _ hanswer]
  · rw [max_eq_left hown, hmillis]
    exact jittered_ge_iff own (secs.toNat * 1000)

theorem delay_eq_backoff (t : Throttle) (base : StdDuration) (h : t.strikes ≠ 0) :
    t.delay base = max (t.backoff base) (t.retryAfter.getD 0) :=
  t.delay_pos base h

/-- A poll task, the daemon it runs in and the sleep it has armed. The last two fields record
history: the answer of the rate limit the task is waiting out, and each such answer that a scheduled
poll followed, with the sleep between them. -/
structure SleepSystem (F : Type) where
  daemon : Daemon F
  task : PollTask
  sleep : StdDuration := 0
  asked : Option StdDuration := none
  log : List (StdDuration × StdDuration) := []

inductive SleepInput (F : Type) where
  /-- The rest of the daemon ran. -/
  | rest (daemon : Daemon F)
  /-- The task was woken, and read the clock if it came to arm a sleep. -/
  | wake (wakeup : Wakeup F) (nanos : Subsec)

/-- The answer of a poll that ended rate limited. -/
def Wakeup.retryAfter? {F : Type} : Wakeup F → Option StdDuration
  | .polled result _ _ _ _ => result.outcome.rateLimit?.join
  | _ => none

namespace SleepSystem

variable {F : Type}

/-- The sleep a task arms on its way to an `await`. -/
def arm (nanos : Subsec) : Phase → StdDuration
  | .waiting after => jittered nanos after
  | .rechecking after => jittered nanos after
  | _ => 0

/-- The task was spawned into a daemon. -/
def start (daemon : Daemon F) (account : Account) : SleepSystem F where
  daemon := daemon
  task := { account }

variable [F64 F]

def step (json : SerdeJson F) (s : SleepSystem F) : SleepInput F → SleepSystem F
  | .rest daemon => { s with daemon }
  | .wake wakeup nanos =>
    let result := s.task.step json s.daemon wakeup
    -- a task that is not waiting for the wakeup sleeps on
    if result.2 = s.task then { s with daemon := result.1 }
    else {
      daemon := result.1
      task := result.2
      sleep := arm nanos result.2.phase
      asked :=
        match result.2.phase with
        | .waiting _ => wakeup.retryAfter?
        | _ => none
      log :=
        match wakeup, s.task.phase, s.asked with
        | .elapsed, .waiting _, some r => s.log ++ [(r, s.sleep)]
        | _, _, _ => s.log }

/-- A rate limit comes from the provider, with the answer of its headers. -/
def FromProvider : SleepInput F → Prop
  | .wake (.polled polled _ _ _ _) _ =>
    polled.isRateLimited = true →
      polled.stage = .provider ∧ ∃ headers, polled.outcome = .rateLimited (retryAfterOf headers)
  | _ => True

/-- A poll that leads to a wait leaves the throttle with room for the provider's answer. -/
def Roomy (s : SleepSystem F) : SleepInput F → Prop
  | .wake (.polled polled _ _ _ _) _ =>
    ∀ r tx trigger, polled.outcome.rateLimit?.join = some r →
      s.daemon.state.schedules.get s.task.key = some tx → s.task.phase = .polling trigger →
      tx.value.enabled = true → s.task.pollImmediately = false →
      LeavesRoom ((s.task.gate.throttle.record polled).backoff tx.value.interval) r
  | _ => True

end SleepSystem

section

variable {F : Type} {json : SerdeJson F} {d : Daemon F} {t : PollTask} {after : StdDuration}

/-- A task goes from the top of the loop to a wait for as long as its throttle says. -/
theorem iterate_waiting_iff :
    (PollTask.iterate d t).2.phase = .waiting after ↔
      ∃ tx, d.state.schedules.get t.key = some tx ∧ tx.value.enabled = true ∧
        t.pollImmediately = false ∧ t.gate.credentialStale = false ∧
        t.gate.throttle.delay tx.value.interval = after := by
  unfold PollTask.iterate
  cases htx : d.state.schedules.get t.key with
  | none => simp
  | some tx =>
    cases henabled : tx.value.enabled with
    | false => simp [Gate.nextStep, henabled]
    | true =>
      cases hnow : t.pollImmediately with
      | true => simp [Gate.nextStep, henabled]
      | false =>
        cases hstale : t.gate.credentialStale with
        | true => simp [Gate.nextStep, henabled, hstale]
        | false => simp [Gate.nextStep, henabled, hstale]

private theorem iterate_polling {trigger : PollTrigger}
    (h : (PollTask.iterate d t).2.phase = .polling trigger) :
    t.pollImmediately = true ∧ (PollTask.iterate d t).2.pollImmediately = false := by
  unfold PollTask.iterate at h ⊢
  cases htx : d.state.schedules.get t.key with
  | none => simp [htx] at h
  | some tx =>
    cases henabled : tx.value.enabled with
    | false => simp [htx, Gate.nextStep, henabled] at h
    | true =>
      cases hnow : t.pollImmediately with
      | true => simp [Gate.nextStep, henabled]
      | false =>
        cases hstale : t.gate.credentialStale with
        | true => simp [htx, Gate.nextStep, henabled, hnow, hstale] at h
        | false => simp [htx, Gate.nextStep, henabled, hnow, hstale] at h

private theorem saturatingSucc_ne_zero (n : UInt32) : Throttle.saturatingSucc n ≠ 0 := by
  intro h
  have hzero := congrArg UInt32.toNat h
  rw [Throttle.saturatingSucc_toNat] at hzero
  simp at hzero

private theorem delay_rateLimited {polled : Polled F} {r : StdDuration} (throttle : Throttle)
    (base : StdDuration) (hstage : polled.stage = .provider)
    (hr : polled.outcome.rateLimit?.join = some r) :
    (throttle.record polled).delay base = max ((throttle.record polled).backoff base) r := by
  have hrecord := throttle.record_reached polled (decide_eq_true hstage)
  rw [Option.join_eq_some_iff.mp hr] at hrecord
  rw [hrecord, delay_eq_backoff _ _ (saturatingSucc_ne_zero _)]
  rfl

variable [F64 F] {polled : Polled F} {id : PollId} {ts : DateTime} {latencyMs : UInt32}
  {faults : Storage.Faults}

private theorem polled_waiting_iff {trigger : PollTrigger} (hphase : t.phase = .polling trigger) :
    (t.step json d (.polled polled id ts latencyMs faults)).2.phase = .waiting after ↔
      ∃ tx, d.state.schedules.get t.key = some tx ∧ tx.value.enabled = true ∧
        t.pollImmediately = false ∧ polled.stage ≠ .credential ∧
        (t.gate.throttle.record polled).delay tx.value.interval = after := by
  have hschedules : (d.recordEvent json faults
      (t.event trigger polled id ts latencyMs)).state.schedules = d.state.schedules := rfl
  simp only [PollTask.step, hphase]
  rw [iterate_waiting_iff, hschedules]
  simp [Gate.record, PollTask.key]

private theorem polled_ne {trigger : PollTrigger} (hphase : t.phase = .polling trigger) :
    (t.step json d (.polled polled id ts latencyMs faults)).2 ≠ t := by
  intro heq
  have hpolling := congrArg PollTask.phase heq
  have hflag := congrArg PollTask.pollImmediately heq
  rw [hphase] at hpolling
  simp only [PollTask.step, hphase] at hpolling hflag
  obtain ⟨hnow, hgone⟩ := iterate_polling hpolling
  rw [hgone] at hflag
  exact absurd (hflag.trans hnow) Bool.false_ne_true

end

namespace SleepSystem

variable {F : Type} [F64 F] {json : SerdeJson F} {s : SleepSystem F}

/-- The sleep of a task that waits out a rate limit is as long as the provider asked. -/
def Honours (s : SleepSystem F) : Prop := ∀ r ∈ s.asked, r ≤ s.sleep

section

variable {polled : Polled F} {id : PollId} {ts : DateTime} {latencyMs : UInt32}
  {faults : Storage.Faults} {nanos : Subsec}

theorem step_polled {trigger : PollTrigger} (hphase : s.task.phase = .polling trigger) :
    s.step json (.wake (.polled polled id ts latencyMs faults) nanos) = {
      daemon := (s.task.step json s.daemon (.polled polled id ts latencyMs faults)).1
      task := (s.task.step json s.daemon (.polled polled id ts latencyMs faults)).2
      sleep := arm nanos (s.task.step json s.daemon (.polled polled id ts latencyMs faults)).2.phase
      asked :=
        match (s.task.step json s.daemon (.polled polled id ts latencyMs faults)).2.phase with
        | .waiting _ => polled.outcome.rateLimit?.join
        | _ => none
      log := s.log } :=
  if_neg (polled_ne hphase)

private theorem polled_honours {trigger : PollTrigger} (hphase : s.task.phase = .polling trigger) :
    (s.step json (.wake (.polled polled id ts latencyMs faults) nanos)).Honours ↔
      ∀ r after, polled.outcome.rateLimit?.join = some r →
        (s.task.step json s.daemon (.polled polled id ts latencyMs faults)).2.phase =
          .waiting after →
        r ≤ jittered nanos after := by
  rw [step_polled hphase]
  cases (s.task.step json s.daemon (.polled polled id ts latencyMs faults)).2.phase <;>
    simp [Honours, arm]

omit [F64 F] in
/-- The answer of a rate limit is a whole number of seconds. -/
theorem FromProvider.secs {r : StdDuration}
    (h : FromProvider (.wake (.polled polled id ts latencyMs faults) nanos))
    (hr : polled.outcome.rateLimit?.join = some r) :
    polled.stage = .provider ∧ ∃ secs : UInt64, r = Config.fromSecs secs.toNat := by
  have hlimited : polled.isRateLimited = true := by
    simp [Polled.isRateLimited, Option.join_eq_some_iff.mp hr]
  obtain ⟨hstage, headers, houtcome⟩ := h hlimited
  rw [houtcome] at hr
  exact ⟨hstage, retryAfterOf_secs hr⟩

/-- What the provider asks for after a rate limit is honoured whatever the clock exactly if there is
room for it. -/
theorem polled_honours_iff {trigger : PollTrigger} (hphase : s.task.phase = .polling trigger)
    (hprovider : FromProvider (.wake (.polled polled id ts latencyMs faults) nanos)) :
    (∀ nanos, (s.step json (.wake (.polled polled id ts latencyMs faults) nanos)).Honours) ↔
      s.Roomy (.wake (.polled polled id ts latencyMs faults) nanos) := by
  simp only [polled_honours hphase]
  constructor
  · intro h r tx trigger hr htx _ henabled hnow
    obtain ⟨hstage, secs, rfl⟩ := hprovider.secs hr
    rw [← jittered_honours_iff, ← delay_rateLimited _ _ hstage hr]
    intro nanos
    apply h nanos _ _ hr
    rw [polled_waiting_iff hphase]
    exact ⟨tx, htx, henabled, hnow, by simp [hstage], rfl⟩
  · intro h nanos r after hr hwaiting
    obtain ⟨hstage, secs, rfl⟩ := hprovider.secs hr
    obtain ⟨tx, htx, henabled, hnow, -, rfl⟩ := (polled_waiting_iff hphase).mp hwaiting
    rw [delay_rateLimited _ _ hstage hr]
    exact (jittered_honours_iff _ _).mpr (h _ tx trigger hr htx hphase henabled hnow) nanos

end

/-- What holds of the sleeps of a run. -/
structure Inv (s : SleepSystem F) : Prop where
  honours : s.Honours
  log : ∀ e ∈ s.log, e.1 ≤ e.2

theorem inv_step (h : s.Inv) (i : SleepInput F) (hprovider : FromProvider i) (hroom : s.Roomy i) :
    (s.step json i).Inv := by
  cases i with
  | rest daemon => exact ⟨h.honours, h.log⟩
  | wake wakeup nanos =>
    by_cases hsame : (s.task.step json s.daemon wakeup).2 = s.task
    · have hkeeps : s.step json (.wake wakeup nanos) =
          { s with daemon := (s.task.step json s.daemon wakeup).1 } := if_pos hsame
      rw [hkeeps]
      exact ⟨h.honours, h.log⟩
    · refine ⟨?_, ?_⟩
      · have hquiet (hnone : wakeup.retryAfter? = none) :
            (s.step json (.wake wakeup nanos)).Honours := by
          intro r hr
          simp only [step, if_neg hsame, hnone] at hr
          cases hphase : (s.task.step json s.daemon wakeup).2.phase <;> simp [hphase] at hr
        cases wakeup with
        | polled polled id ts latencyMs faults =>
          cases hphase : s.task.phase with
          | polling trigger => exact (polled_honours_iff hphase hprovider).mpr hroom nanos
          | _ =>
            refine absurd ?_ hsame
            simp only [PollTask.step, hphase]
        | _ => exact hquiet rfl
      · intro e he
        simp only [step, if_neg hsame] at he
        split at he
        · rename_i hasked
          rcases List.mem_append.mp he with he | he
          · exact h.log e he
          · obtain rfl := List.mem_singleton.mp he
            exact h.honours _ hasked
        · exact h.log e he

/-- In a run whose rate limits leave room for the answer, every scheduled poll after one was as late
as the provider asked. After one rate limit that is so, whatever the clock, only if there is. -/
theorem retry_after_honoured (json : SerdeJson F) (daemon : Daemon F) (account : Account)
    (inputs : List (SleepInput F)) (hprovider : ∀ i ∈ inputs, FromProvider i) :
    (StepsMeet (step json) Roomy (start daemon account) inputs →
        ∀ e ∈ (inputs.foldl (step json) (start daemon account)).log, e.1 ≤ e.2) ∧
      ∀ (s : SleepSystem F) (polled : Polled F) (id : PollId) (ts : DateTime) (latencyMs : UInt32)
        (faults : Storage.Faults) (trigger : PollTrigger), s.task.phase = .polling trigger →
        FromProvider (.wake (.polled polled id ts latencyMs faults) 0) →
        ((∀ nanos, (s.step json (.wake (.polled polled id ts latencyMs faults) nanos)).Honours) ↔
          s.Roomy (.wake (.polled polled id ts latencyMs faults) 0)) := by
  refine ⟨fun hroom => ?_, fun s polled id ts latencyMs faults trigger hphase hfrom =>
    polled_honours_iff hphase hfrom⟩
  have hstart : (start daemon account).Inv := 
    ⟨fun r hr => (Option.not_mem_none r hr).elim, fun e he => (List.not_mem_nil he).elim⟩
  have hinv := (hroom.and hprovider).invariant hstart fun s i h hi => inv_step h i hi.1 hi.2
  exact hinv.log

/-- The account's task and the daemon it was started in. -/
def claudeSleep : SleepSystem ℚ :=
  start TriggerSystem.claudeStart.daemon TriggerSystem.claudeStart.task.account

/-- A first poll that is rate limited, and the one after it. -/
def limitedOnce (answer : String) : List (SleepInput ℚ) := [
  .wake .started 0,
  .wake (.polled { outcome := .rateLimited (retryAfterOf [("Retry-After", answer)]),
                   stage := .provider } 1 1 0 Storage.noFaults) 0,
  .wake .elapsed 0]

private theorem limitedOnce_fromProvider (answer : String) :
    ∀ i ∈ limitedOnce answer, FromProvider i := by
  intro i hi
  simp only [limitedOnce, List.mem_cons, List.not_mem_nil, or_false] at hi
  rcases hi with rfl | rfl | rfl
  · trivial
  · exact fun _ => ⟨rfl, _, rfl⟩
  · trivial

/-- A minute fits what the jitter leaves of the three minutes the task would wait anyway. -/
theorem retry_after_honoured_minute :
    (Config.fromSecs 60, Config.fromSecs 162) ∈
        ((limitedOnce "60").foldl (step (.table [] [])) claudeSleep).log ∧
      Config.fromSecs 60 ≤ Config.fromSecs 162 := by
  have hlog : (Config.fromSecs 60, Config.fromSecs 162) ∈
      ((limitedOnce "60").foldl (step (.table [] [])) claudeSleep).log := by decide +kernel
  refine ⟨hlog, (retry_after_honoured _ _ _ _ (limitedOnce_fromProvider "60")).1
    ⟨trivial, ?_, trivial, trivial⟩ _ hlog⟩
  intro r tx trigger hr htx _ _ _
  have hanswer : retryAfterOf [("Retry-After", "60")] = some (Config.fromSecs 60) := by
    decide +kernel
  have hschedule : (claudeSleep.step (.table [] []) (.wake .started 0)).daemon.state.schedules.get
      (claudeSleep.step (.table [] []) (.wake .started 0)).task.key =
        some { value := { enabled := true, interval := Config.fromSecs 180 } } := by
    rfl
  cases hanswer.symm.trans hr
  cases hschedule.symm.trans htx
  decide

/-- Five minutes become four and a half, and the longest answers wrap around to a moment. -/
theorem retry_after_cut_short :
    (∃ e ∈ ((limitedOnce "300").foldl (step (.table [] [])) claudeSleep).log,
        e = (Config.fromSecs 300, Config.fromSecs 270) ∧ ¬ e.1 ≤ e.2) ∧
      ∃ e ∈ ((limitedOnce "18446744073709552").foldl (step (.table [] [])) claudeSleep).log,
        e = (Config.fromSecs 18446744073709552, StdDuration.fromMillis 346) ∧ ¬ e.1 ≤ e.2 := by
  constructor
  · decide +kernel
  · decide +kernel

end SleepSystem
end Teiryo
