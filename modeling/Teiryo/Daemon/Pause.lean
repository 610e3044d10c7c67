import Teiryo.Daemon.Schedules
import Teiryo.Daemon.Throttling

/-!
# Pauses

A credential that stops resolving pauses the polls of its account. The gate says so once, on the
edge, and the poll task stays away from the provider until the pause is over.
-/

namespace Teiryo

/-- What is done with a gate. -/
inductive GateOp (F : Type) where
  | record (polled : Polled F)
  | credentialOk
  | park
  | nextStep (schedule : Schedule) (pollImmediately : Bool)

namespace GateOp

variable {F : Type}

/-- A query leaves the gate alone. -/
def touches : GateOp F → Bool
  | .nextStep _ _ => false
  | _ => true

def isPark : GateOp F → Bool
  | .park => true
  | _ => false

/-- A poll that stopped at the credential. -/
def stopsAtCredential : GateOp F → Bool
  | .record polled => decide (polled.stage = .credential)
  | _ => false

end GateOp

/-- Whether a transition is about the credential. -/
def Transition.ofCredential : Transition → Bool
  | .throttled => false
  | _ => true

/-- The edges of a pause in turn, from a gate with a stale credential or a good one. -/
def Alternates : Bool → List Transition → Prop
  | _, [] => True
  | stale, t :: ts => t = (if stale then .resumed else .paused) ∧ Alternates (!stale) ts

namespace Throttle

variable {F : Type}

private theorem isThrottled_iff (t : Throttle) : t.isThrottled = true ↔ t.strikes ≠ 0 := by
  have hzero : (0 : UInt32).toNat = 0 := rfl
  rw [isThrottled, decide_eq_true_iff, UInt32.lt_iff_toNat_lt, Ne, ← UInt32.toNat_inj]
  omega

/-- The first strike is the only one that starts a throttle. -/
theorem first_strike_iff (t : Throttle) (polled : Polled F) :
    ((t.record polled).isThrottled && !t.isThrottled) = true ↔
      t.strikes = 0 ∧ (t.record polled).strikes = 1 := by
  rw [Bool.and_eq_true, Bool.not_eq_true', ← Bool.not_eq_true, isThrottled_iff, isThrottled_iff,
    Decidable.not_not]
  cases hreached : polled.reached with
  | false =>
    rw [t.record_unreached polled hreached]
    constructor
    · rintro ⟨hsome, hnone⟩
      exact absurd hnone hsome
    · rintro ⟨hnone, hone⟩
      exact absurd (hnone.symm.trans hone) (by decide)
  | true =>
    rw [t.record_reached polled hreached]
    cases polled.outcome.rateLimit? with
    | none => simp
    | some retryAfter =>
      constructor
      · rintro ⟨-, hnone⟩
        refine ⟨hnone, ?_⟩
        simp only [hnone]
        rfl
      · rintro ⟨hnone, hone⟩
        simp only at hone ⊢
        exact ⟨by rw [hone]; decide, hnone⟩

end Throttle

namespace Gate

variable {F : Type}

/-- The gate after an operation and the transitions it reported. -/
def apply (g : Gate) : GateOp F → Gate × List Transition
  | .record polled =>
    let (next, credential, throttled) := g.record polled
    (next, credential.toList ++ throttled.toList)
  | .credentialOk =>
    let (next, credential) := g.credentialOk
    (next, credential.toList)
  | .park => (g.park, [])
  | .nextStep _ _ => (g, [])

def after (g : Gate) (ops : List (GateOp F)) : Gate := ops.foldl (fun g op => (g.apply op).1) g

/-- What is reported along a sequence of operations. -/
def reports (g : Gate) : List (GateOp F) → List Transition
  | [] => []
  | op :: ops => (g.apply op).2 ++ reports (g.apply op).1 ops

private theorem apply_stale (g : Gate) (op : GateOp F) :
    (g.apply op).1.credentialStale =
      if op.touches then op.stopsAtCredential else g.credentialStale := by
  cases op <;> rfl

private theorem apply_edge (g : Gate) (op : GateOp F) (hpark : op.isPark = false) :
    (g.apply op).2.filter Transition.ofCredential =
      if (g.apply op).1.credentialStale = g.credentialStale then []
      else [if g.credentialStale then .resumed else .paused] := by
  cases op with
  | record polled =>
    have hthrottled (crossed : Bool) :
        ((if crossed then some .throttled else none).toList).filter Transition.ofCredential =
          [] := by
      cases crossed <;> rfl
    have hstage : (g.apply (.record polled)).1.credentialStale =
        decide (polled.stage = .credential) := rfl
    rw [hstage, apply, record]
    simp only [List.filter_append, hthrottled, List.append_nil]
    cases hstale : g.credentialStale <;> cases polled.stage <;> rfl
  | credentialOk =>
    cases hstale : g.credentialStale <;>
      simp [apply, credentialOk, hstale, Transition.ofCredential]
  | park => cases hpark
  | nextStep schedule now => simp [apply]

private theorem reports_alternate (g : Gate) (ops : List (GateOp F))
    (hpark : ∀ op ∈ ops, op.isPark = false) :
    Alternates g.credentialStale ((g.reports ops).filter Transition.ofCredential) := by
  induction ops generalizing g with
  | nil => trivial
  | cons op ops ih =>
    have hrest := ih (g.apply op).1 fun o ho => hpark o (List.mem_cons_of_mem _ ho)
    rw [reports, List.filter_append, apply_edge g op (hpark op List.mem_cons_self)]
    by_cases hsame : (g.apply op).1.credentialStale = g.credentialStale
    · rw [if_pos hsame, List.nil_append, ← hsame]
      exact hrest
    · rw [if_neg hsame, List.singleton_append]
      rw [Bool.eq_not_of_ne hsame] at hrest
      exact ⟨rfl, hrest⟩

private theorem after_park (g : Gate) (ops : List (GateOp F)) (h : ops.getLast? = some .park) :
    g.after ops = {} := by
  obtain ⟨before, rfl⟩ := List.getLast?_eq_some_iff.mp h
  simp [after, apply, park]

/-- The credential is stale when the last operation to touch the gate was a poll that stopped at
it. -/
theorem after_stale_iff (ops : List (GateOp F)) :
    (Gate.after {} ops).credentialStale = true ↔
      ∃ polled, (ops.filter GateOp.touches).getLast? = some (.record polled) ∧
        polled.stage = .credential := by
  induction ops using List.reverseRecOn with
  | nil => simp [after]
  | append_singleton ops op ih =>
    have hlast : Gate.after {} (ops ++ [op]) = ((Gate.after {} ops).apply op).1 := by
      simp [after]
    rw [hlast, apply_stale, List.filter_append]
    cases op with
    | nextStep schedule now => simpa [GateOp.touches] using ih
    | record polled => simp [GateOp.touches, GateOp.stopsAtCredential]
    | credentialOk => simp [GateOp.touches, GateOp.stopsAtCredential]
    | park => simp [GateOp.touches, GateOp.stopsAtCredential]

/-- A throttle is reported on the poll that brings the first strike. -/
theorem throttled_iff (g : Gate) (op : GateOp F) :
    .throttled ∈ (g.apply op).2 ↔
      (∃ polled, op = .record polled) ∧ g.throttle.strikes = 0 ∧
        (g.apply op).1.throttle.strikes = 1 := by
  cases op with
  | record polled =>
    have hcredential : Transition.throttled ∉ (g.record polled).2.1.toList := by
      simp only [record]
      cases g.credentialStale <;> cases polled.stage <;> simp
    have hsplit : .throttled ∈ (g.apply (.record polled)).2 ↔
        .throttled ∈ (g.record polled).2.1.toList ∨ .throttled ∈ (g.record polled).2.2.toList :=
      List.mem_append
    have hreport : (g.record polled).2.2 =
        if (g.throttle.record polled).isThrottled && !g.throttle.isThrottled then some .throttled
        else none := rfl
    have hnext : (g.apply (.record polled)).1.throttle = g.throttle.record polled := rfl
    rw [hsplit, or_iff_right hcredential, hreport, hnext, ← g.throttle.first_strike_iff polled]
    cases (g.throttle.record polled).isThrottled && !g.throttle.isThrottled <;> simp
  | credentialOk =>
    cases hstale : g.credentialStale <;> simp [apply, credentialOk, hstale]
  | park => simp [apply]
  | nextStep schedule now => simp [apply]

private theorem nextStep_stale (g : Gate) (schedule : Schedule) (hstale : g.credentialStale = true)
    (henabled : schedule.enabled = true) :
    g.nextStep schedule false = .recheck (min schedule.interval credentialRecheckMax) := by
  simp [nextStep, henabled, hstale]

end Gate

namespace PollTask

variable {F : Type} {d : Daemon F} {t : PollTask}

private theorem iterate_stale (hstale : t.gate.credentialStale = true) :
    (iterate d t).2.gate.credentialStale = true ∨ (iterate d t).2.phase = .parked := by
  unfold iterate
  split
  · exact .inl hstale
  · simp only
    split
    · exact .inr rfl
    · exact .inl hstale
    · exact .inl hstale
    · exact .inl hstale

private theorem iterate_settled (hbox : ManualOnly d) (ht : t.Ready) :
    ManualOnly (iterate d t).1 ∧ (iterate d t).2.Settled := by
  cases htx : d.state.schedules.get t.key with
  | none =>
    unfold iterate
    rw [htx]
    exact ⟨hbox, trivial⟩
  | some tx =>
    rcases iterate_cases ht htx with ⟨-, heq⟩ | ⟨-, hstale, heq⟩ | ⟨-, hnow, hstale, after, heq⟩ |
      ⟨-, hnow, hstale, heq⟩
    · rw [heq]
      exact ⟨hbox, rfl⟩
    · rw [heq]
      exact ⟨hbox, rfl, hstale⟩
    · rw [heq]
      exact ⟨hbox, hnow, hstale⟩
    · rw [heq]
      exact ⟨hbox, hnow, hstale⟩

/-- A task that polls of its own accord is not paused. -/
theorem Settled.fresh (ht : t.Settled)
    (hpolls : t.phase = .polling .startup ∨ t.phase = .polling .scheduled) :
    t.gate.credentialStale = false := by
  rcases hpolls with hphase | hphase
  · simp only [Settled, hphase] at ht
    exact ht.2
  · simp only [Settled, hphase] at ht
    exact ht.2

variable [F64 F] (json : SerdeJson F)

private theorem step_settled (hbox : ManualOnly d) (ht : t.Settled) (wakeup : Wakeup F) :
    ManualOnly (t.step json d wakeup).1 ∧ (t.step json d wakeup).2.Settled := by
  rcases step_cases json hbox ht wakeup with
    ⟨-, hmanual, hmoves⟩ | ⟨d₁, t₁, -, hmanual, -, hready, heq⟩
  · exact ⟨hmanual, hmoves.settled ht⟩
  · rw [heq]
    exact iterate_settled hmanual hready

/-- What ends the pause of a task that is woken. -/
inductive Ends (t : PollTask) : Wakeup F → Prop where
  | resolved (hphase : t.phase = .resolving) : Ends t (.resolved true)
  | manual {client : ClientKind} {polled : Polled F} {id : PollId} {ts : DateTime}
      {latencyMs : UInt32} {faults : Storage.Faults}
      (hphase : t.phase = .polling (.manual client)) :
      Ends t (.polled polled id ts latencyMs faults)

private theorem step_stale (ht : t.Settled) (hstale : t.gate.credentialStale = true)
    (wakeup : Wakeup F) : (t.step json d wakeup).2.gate.credentialStale = true ∨ Ends t wakeup ∨
      (t.step json d wakeup).2.phase = .parked := by
  have hloops {d : Daemon F} : (iterate d t).2.gate.credentialStale = true ∨ Ends t wakeup ∨
      (iterate d t).2.phase = .parked := (iterate_stale hstale).imp_right .inr
  cases wakeup with
  | started =>
    simp only [step]
    split
    · exact hloops
    · exact .inl hstale
  | elapsed =>
    simp only [step]
    split <;> exact .inl hstale
  | trigger =>
    have hreceive : (receive d t).2.gate = t.gate := by
      unfold receive
      split <;> rfl
    simp only [step]
    split
    · exact .inl (hreceive ▸ hstale)
    · exact .inl (hreceive ▸ hstale)
    · exact .inl hstale
  | scheduleChanged =>
    simp only [step]
    split
    · split
      · exact hloops
      · exact .inl hstale
    · split
      · exact hloops
      · exact .inl hstale
    · split
      · exact hloops
      · exact .inl hstale
    · exact .inl hstale
  | resolved ok =>
    simp only [step]
    split
    · rename_i hphase
      cases ok with
      | true => exact .inr (.inl (.resolved hphase))
      | false => exact hloops
    · exact .inl hstale
  | polled polled id ts latencyMs faults =>
    simp only [step]
    split
    · rename_i trigger hphase
      cases trigger with
      | startup =>
        have hfresh := ht.fresh (.inl hphase)
        exact absurd (hfresh.symm.trans hstale) Bool.false_ne_true
      | scheduled =>
        have hfresh := ht.fresh (.inr hphase)
        exact absurd (hfresh.symm.trans hstale) Bool.false_ne_true
      | manual client => exact .inr (.inl (.manual hphase))
    · exact .inl hstale
  | shutdown =>
    simp only [step]
    split <;> exact .inl hstale

end PollTask

namespace PollSystem

variable {F : Type} [F64 F]

/-- Every task knows its own next step, and only manual triggers reach it. -/
structure Sound (s : PollSystem F) : Prop where
  manual : PollTask.ManualOnly s.daemon
  settled : ∀ t ∈ s.tasks, t.Settled

/-- What ends the pause of one of the tasks: its credential resolves, a manual poll of it ends or
it parks. -/
inductive EndsPause (json : SerdeJson F) (n : Nat) (s : PollSystem F) : PollInput F → Prop where
  | resolved {t : PollTask} (ht : s.tasks[n]? = some t) (hphase : t.phase = .resolving) :
      EndsPause json n s (.wake n (.resolved true))
  | manual {t : PollTask} {client : ClientKind} {polled : Polled F} {id : PollId} {ts : DateTime}
      {latencyMs : UInt32} {faults : Storage.Faults} (ht : s.tasks[n]? = some t)
      (hphase : t.phase = .polling (.manual client)) :
      EndsPause json n s (.wake n (.polled polled id ts latencyMs faults))
  | parked {i : PollInput F} {t : PollTask} (ht : (s.step json i).tasks[n]? = some t)
      (hphase : t.phase = .parked) : EndsPause json n s i

variable {json : SerdeJson F} {s : PollSystem F}

theorem sound_step (h : s.Sound) (i : PollInput F) : (s.step json i).Sound := by
  cases i with
  | startAccount account presenter upsertFault now =>
    refine ⟨PollTask.manualOnly_startAccount json h.manual account presenter upsertFault now, ?_⟩
    intro t ht
    rcases List.mem_append.mp ht with ht | ht
    · exact h.settled t ht
    · obtain rfl := List.mem_singleton.mp ht
      rfl
  | applyConfig loaded now => exact ⟨PollTask.manualOnly_installConfig h.manual _ _ _, h.settled⟩
  | rejectConfig error now => exact ⟨PollTask.manualOnly_installConfig h.manual _ _ _, h.settled⟩
  | pollNow provider account => exact ⟨PollTask.manualOnly_pollNow h.manual _ _, h.settled⟩
  | wake task wakeup =>
    simp only [step]
    split
    · exact h
    · rename_i t ht
      obtain ⟨hmanual, hsettled⟩ :=
        PollTask.step_settled json h.manual (h.settled t (List.mem_of_getElem? ht)) wakeup
      refine ⟨hmanual, ?_⟩
      intro u hu
      rcases List.mem_or_eq_of_mem_set hu with hu | rfl
      · exact h.settled u hu
      · exact hsettled

private theorem step_paused (h : s.Sound) {n : Nat} {t : PollTask} (ht : s.tasks[n]? = some t)
    (hstale : t.gate.credentialStale = true) (i : PollInput F) (hkeeps : ¬ EndsPause json n s i) :
    ∃ t', (s.step json i).tasks[n]? = some t' ∧ t'.gate.credentialStale = true := by
  cases i with
  | startAccount account presenter upsertFault now =>
    have hlt := (List.getElem?_eq_some_iff.mp ht).1
    exact ⟨t, (List.getElem?_append_left hlt).trans ht, hstale⟩
  | applyConfig loaded now => exact ⟨t, ht, hstale⟩
  | rejectConfig error now => exact ⟨t, ht, hstale⟩
  | pollNow provider account => exact ⟨t, ht, hstale⟩
  | wake m wakeup =>
    have hlt := (List.getElem?_eq_some_iff.mp ht).1
    cases hm : s.tasks[m]? with
    | none =>
      have hidle : s.step json (.wake m wakeup) = s := by simp only [step, hm]
      rw [hidle]
      exact ⟨t, ht, hstale⟩
    | some u =>
      have htasks : (s.step json (.wake m wakeup)).tasks =
          s.tasks.set m (u.step json s.daemon wakeup).2 := by simp only [step, hm]
      by_cases hmn : m = n
      · subst hmn
        cases hm.symm.trans ht
        have hwoken : (s.step json (.wake m wakeup)).tasks[m]? =
            some (t.step json s.daemon wakeup).2 := by
          rw [htasks, List.getElem?_set_self hlt]
        refine ⟨_, hwoken, ?_⟩
        rcases PollTask.step_stale json (h.settled t (List.mem_of_getElem? ht)) hstale wakeup with
          hkept | hends | hparked
        · exact hkept
        · cases hends with
          | resolved hphase => exact (hkeeps (.resolved ht hphase)).elim
          | manual hphase => exact (hkeeps (.manual ht hphase)).elim
        · exact (hkeeps (.parked hwoken hparked)).elim
      · refine ⟨t, ?_, hstale⟩
        rw [htasks, List.getElem?_set_ne hmn]
        exact ht

private theorem run_paused (h : s.Sound) {n : Nat} {t t' : PollTask} (ht : s.tasks[n]? = some t)
    (hstale : t.gate.credentialStale = true) (inputs : List (PollInput F))
    (ht' : (s.run json inputs).tasks[n]? = some t')
    (hpolls : t'.phase = .polling .startup ∨ t'.phase = .polling .scheduled) :
    ∃ pre i post, inputs = pre ++ i :: post ∧ EndsPause json n (s.run json pre) i := by
  induction inputs generalizing s t with
  | nil =>
    cases ht.symm.trans ht'
    have hfresh := (h.settled _ (List.mem_of_getElem? ht)).fresh hpolls
    exact absurd (hfresh.symm.trans hstale) Bool.false_ne_true
  | cons i inputs ih =>
    by_cases hends : EndsPause json n s i
    · exact ⟨[], i, inputs, rfl, hends⟩
    · obtain ⟨u, hu, hustale⟩ := step_paused h ht hstale i hends
      obtain ⟨pre, j, post, rfl, hj⟩ := ih (sound_step h i) hu hustale ht'
      exact ⟨i :: pre, j, post, rfl, hj⟩

omit [F64 F] in
private theorem sound_boot (storage : Storage F) (path : String) (known : List ProviderId)
    (now : DateTime) : (boot storage path known now).Sound where
  manual := (inv_boot storage path known now).manual
  settled := (inv_boot storage path known now).settled

end PollSystem

/-- A pause is entered, reported and left once. Between parks its two edges alternate; the
credential is stale where the last word on it was a poll that stopped at it; the first strike is
reported and no other; a pause is spent on re-checks; and a poll task polls again of its own
accord only after its credential resolved, a manual poll or a park. -/
theorem pause_once {F : Type} [F64 F] (json : SerdeJson F) :
    (∀ before between : List (GateOp F), before = [] ∨ before.getLast? = some .park →
      (∀ op ∈ between, op.isPark = false) →
      Alternates false (((Gate.after {} before).reports between).filter Transition.ofCredential)) ∧
    (∀ ops : List (GateOp F), (Gate.after {} ops).credentialStale = true ↔
      ∃ polled, (ops.filter GateOp.touches).getLast? = some (.record polled) ∧
        polled.stage = .credential) ∧
    (∀ (g : Gate) (op : GateOp F), .throttled ∈ (g.apply op).2 ↔
      (∃ polled, op = .record polled) ∧ g.throttle.strikes = 0 ∧
        (g.apply op).1.throttle.strikes = 1) ∧
    (∀ (g : Gate) (schedule : Schedule), g.credentialStale = true → schedule.enabled = true →
      g.nextStep schedule false = .recheck (min schedule.interval credentialRecheckMax)) ∧
    ∀ (storage : Storage F) (path : String) (known : List ProviderId) (now : DateTime)
      (before inputs : List (PollInput F)) (n : Nat) (t t' : PollTask),
      ((PollSystem.boot storage path known now).run json before).tasks[n]? = some t →
      t.gate.credentialStale = true →
      (((PollSystem.boot storage path known now).run json before).run json inputs).tasks[n]? =
        some t' →
      t'.phase = .polling .startup ∨ t'.phase = .polling .scheduled →
      ∃ pre i post, inputs = pre ++ i :: post ∧
        PollSystem.EndsPause json n
          (((PollSystem.boot storage path known now).run json before).run json pre) i := by
  refine ⟨?_, Gate.after_stale_iff, Gate.throttled_iff, Gate.nextStep_stale, ?_⟩
  · intro before between hbefore hpark
    have hfresh : Gate.after {} before = {} := by
      rcases hbefore with rfl | hpark
      · rfl
      · exact Gate.after_park {} before hpark
    rw [hfresh]
    exact Gate.reports_alternate {} between hpark
  · intro storage path known now before inputs n t t' ht hstale ht' hpolls
    have hsound : ((PollSystem.boot storage path known now).run json before).Sound :=
      foldl_invariant before (PollSystem.sound_boot storage path known now) fun s i hs =>
        PollSystem.sound_step hs i
    exact PollSystem.run_paused hsound ht hstale inputs ht' hpolls

/-- A poll whose credential did not resolve. -/
def expired : Polled ℚ where
  outcome := .authError "token expired"
  stage := .credential

/-- An account whose first poll stopped at its credential. -/
def claudeExpired : List (PollInput ℚ) := [
  .startAccount PollSystem.claudeA (fun _ => defaultHint) none 0, .wake 0 .started,
  .wake 0 (.polled expired 1 1 0 Storage.noFaults)]

/-- The user logs in again, and the next re-check finds out. -/
def claudeRelogin : List (PollInput ℚ) := [.wake 0 .elapsed, .wake 0 (.resolved true)]

theorem pause_once_relogin :
    Alternates false ((Gate.reports {} [.record expired, .record expired, .credentialOk]).filter
        Transition.ofCredential) ∧
      ∃ pre i post, claudeRelogin = pre ++ i :: post ∧
        PollSystem.EndsPause (.table [] []) 0
          ((PollSystem.claudeBoot.run (.table [] []) claudeExpired).run (.table [] []) pre) i := by
  obtain ⟨halternates, -, -, -, hruns⟩ := pause_once (F := ℚ) (.table [] [])
  constructor
  · exact halternates [] [.record expired, .record expired, .credentialOk] (.inl rfl)
      (by simp [GateOp.isPark])
  · have hpaused : (PollSystem.claudeBoot.run (.table [] []) claudeExpired).tasks[0]?.map
        (·.gate.credentialStale) = some true := by decide
    have hpolls : ((PollSystem.claudeBoot.run (.table [] []) claudeExpired).run (.table [] [])
        claudeRelogin).tasks[0]?.map (·.phase) = some (.polling .startup) := by decide
    obtain ⟨t, ht, hstale⟩ := Option.map_eq_some_iff.mp hpaused
    obtain ⟨t', ht', hphase⟩ := Option.map_eq_some_iff.mp hpolls
    exact hruns .empty "config.toml" ["claude"] 0 claudeExpired claudeRelogin 0 t t' ht hstale ht'
      (.inl hphase)

end Teiryo
