import Teiryo.Daemon.Schedules

/-!
# The published cadence

A config reload and the account's own poll task both write the cadence clients see. The task
writes it before every `await` it comes to from the top of its loop, so the reload's value only
stays until the task has looked at the new schedule.
-/

namespace Teiryo
namespace PollTask

variable {F : Type} {d d' : Daemon F} {t t' : PollTask}

/-- The cadence of what the task is doing. -/
def cadence (t : PollTask) (s : Schedule) : StdDuration :=
  match t.phase with
  | .spawned => reported s
  | .waiting _ => t.gate.throttle.delay s.interval
  | .polling _ => if t.gate.credentialStale then 0 else t.gate.throttle.delay s.interval
  | .parked => 0
  | .rechecking _ => 0
  | .resolving => 0
  | .stopped => 0

/-- Where the poll in flight was started from. -/
def Origin (t : PollTask) (cameFrom : Phase) : Prop :=
  ∀ trigger, t.phase = .polling trigger → trigger = .startup ∨
    (∃ after, cameFrom = .waiting after ∧ t.gate.credentialStale = false) ∨
    (∃ after, cameFrom = .rechecking after ∧ t.gate.credentialStale = true)

/-- The published cadence is the last reload's until the task has looked at the schedule, and the
task's own from then on. -/
structure Published (d : Daemon F) (t : PollTask) (tx : Watch Schedule) : Prop where
  channel : d.state.schedules.get t.key = some tx
  seen_le : t.seen ≤ tx.version
  unseen : t.seen < tx.version →
    d.state.pollIntervals.get t.account.id = some (reported tx.value)
  current : t.seen = tx.version → t.phase ≠ .stopped →
    d.state.pollIntervals.get t.account.id = some (t.cadence tx.value)
  wait_eq : t.seen = tx.version → ∀ after, t.phase = .waiting after →
    after = t.gate.throttle.delay tx.value.interval

theorem Published.congr {tx : Watch Schedule} (h : Published d t tx)
    (hschedules : d'.state.schedules.get t.key = d.state.schedules.get t.key)
    (hintervals : d'.state.pollIntervals.get t.account.id =
      d.state.pollIntervals.get t.account.id) : Published d' t tx := by
  refine ⟨hschedules.trans h.channel, h.seen_le, ?_, ?_, h.wait_eq⟩
  · intro hlt
    rw [hintervals]
    exact h.unseen hlt
  · intro heq hphase
    rw [hintervals]
    exact h.current heq hphase

private theorem Moves.seen_eq (h : Moves t t') : t'.seen = t.seen := by
  cases h <;> rfl

private theorem Moves.gate_eq (h : Moves t t') : t'.gate = t.gate := by
  cases h <;> rfl

private theorem Moves.cadence_eq (h : Moves t t') (ht : t.Settled) (hphase : t'.phase ≠ .stopped)
    (s : Schedule) : t'.cadence s = t.cadence s := by
  cases h with
  | stays => rfl
  | stops => exact absurd rfl hphase
  | scheduled h =>
    simp only [Settled, h] at ht
    simp [cadence, h, ht.2]
  | resolves h => simp [cadence, h]
  | triggered h =>
    rcases h with h | h
    · simp only [Settled, h] at ht
      simp [cadence, h, ht.2]
    · simp only [Settled, h] at ht
      simp [cadence, h, ht.2]

theorem Published.moves {tx : Watch Schedule} (h : Published d t tx)
    (hsame : Daemon.SameSchedules d d') (hmoves : Moves t t') (ht : t.Settled) :
    Published d' t' tx := by
  have hkey : t'.key = t.key := by
    rw [key, key, hmoves.account_eq]
  refine ⟨?_, ?_, ?_, ?_, ?_⟩
  · rw [hsame.schedules, hkey]
    exact h.channel
  · rw [hmoves.seen_eq]
    exact h.seen_le
  · rw [hmoves.seen_eq, hmoves.account_eq, hsame.pollIntervals]
    exact h.unseen
  · intro hseen hphase
    rw [hmoves.seen_eq] at hseen
    rw [hmoves.account_eq, hsame.pollIntervals, hmoves.cadence_eq ht hphase]
    apply h.current hseen
    intro hstopped
    apply hphase
    cases hmoves with
    | stays => exact hstopped
    | stops => rfl
    | scheduled hwaits => rw [hwaits] at hstopped; cases hstopped
    | resolves hwaits => rw [hwaits] at hstopped; cases hstopped
    | triggered hwaits =>
      rcases hwaits with hwaits | hwaits
      · rw [hwaits] at hstopped; cases hstopped
      · rw [hwaits] at hstopped; cases hstopped
  · intro hseen after hwaits
    rw [hmoves.seen_eq] at hseen
    rw [hmoves.gate_eq]
    cases hmoves with
    | stays => exact h.wait_eq hseen after hwaits
    | stops => cases hwaits
    | scheduled => cases hwaits
    | resolves => cases hwaits
    | triggered => cases hwaits

theorem Moves.origin (h : Moves t t') (ht : t.Settled) {cameFrom : Phase}
    (hfrom : t.Origin cameFrom) :
    t'.Origin (if t'.phase ≠ t.phase then t.phase else cameFrom) := by
  cases h with
  | stays =>
    rw [if_neg (by simp)]
    exact hfrom
  | stops =>
    intro trigger hphase
    cases hphase
  | resolves =>
    intro trigger hphase
    cases hphase
  | scheduled h =>
    intro trigger hphase
    simp only [Settled, h] at ht
    rw [if_pos (by simp [h])]
    exact .inr (.inl ⟨_, h, ht.2⟩)
  | triggered h =>
    intro trigger hphase
    rcases h with h | h
    · simp only [Settled, h] at ht
      rw [if_pos (by simp [h])]
      exact .inr (.inl ⟨_, h, ht.2⟩)
    · simp only [Settled, h] at ht
      rw [if_pos (by simp [h])]
      exact .inr (.inr ⟨_, h, ht.2⟩)

private theorem published_iterate (hd : d.Scheduled) (haccount : t.account ∈ d.state.accounts)
    (ht : t.Ready) (cameFrom : Phase) :
    (∃ tx, Published (iterate d t).1 (iterate d t).2 tx) ∧ (iterate d t).2.Origin cameFrom := by
  obtain ⟨tx, htx, hvalue⟩ := hd.schedule t.account haccount
  rcases iterate_cases ht htx with ⟨hdisabled, heq⟩ | ⟨-, hstale, heq⟩ |
    ⟨-, -, hstale, after, heq⟩ | ⟨-, -, hstale, heq⟩
  · rw [heq]
    refine ⟨⟨tx, htx, Nat.le_refl _, ?_, ?_, ?_⟩, ?_⟩
    · intro hlt
      exact absurd hlt (Nat.lt_irrefl _)
    · intro _ _
      rw [hvalue] at hdisabled
      exact hd.disabled t.account haccount hdisabled
    · intro _ after hwaits
      cases hwaits
    · intro trigger hphase
      cases hphase
  · rw [heq]
    refine ⟨⟨tx, htx, Nat.le_refl _, ?_, ?_, ?_⟩, ?_⟩
    · intro hlt
      exact absurd hlt (Nat.lt_irrefl _)
    · intro _ _
      simp [Daemon.setReportedInterval, cadence, hstale]
    · intro _ after hwaits
      cases hwaits
    · intro trigger hphase
      cases hphase
      exact .inl rfl
  · rw [heq]
    refine ⟨⟨tx, htx, Nat.le_refl _, ?_, ?_, ?_⟩, ?_⟩
    · intro hlt
      exact absurd hlt (Nat.lt_irrefl _)
    · intro _ _
      simp [Daemon.setReportedInterval, cadence]
    · intro _ after hwaits
      cases hwaits
    · intro trigger hphase
      cases hphase
  · rw [heq]
    refine ⟨⟨tx, htx, Nat.le_refl _, ?_, ?_, ?_⟩, ?_⟩
    · intro hlt
      exact absurd hlt (Nat.lt_irrefl _)
    · intro _ _
      simp [Daemon.setReportedInterval, cadence]
    · intro _ after hwaits
      cases hwaits
      rfl
    · intro trigger hphase
      cases hphase

private theorem iterate_others (ht : t.Ready) {tx : Watch Schedule}
    (htx : d.state.schedules.get t.key = some tx) :
    (iterate d t).1.state.schedules = d.state.schedules ∧
      ∀ id, id ≠ t.account.id →
        (iterate d t).1.state.pollIntervals.get id = d.state.pollIntervals.get id := by
  rcases iterate_cases ht htx with ⟨-, heq⟩ | ⟨-, -, heq⟩ | ⟨-, -, -, after, heq⟩ | ⟨-, -, -, heq⟩
  · rw [heq]
    exact ⟨rfl, fun _ _ => rfl⟩
  · rw [heq]
    exact ⟨rfl, fun _ hne => Dict.get_insert_ne _ _ hne⟩
  · rw [heq]
    exact ⟨rfl, fun _ hne => Dict.get_insert_ne _ _ hne⟩
  · rw [heq]
    exact ⟨rfl, fun _ hne => Dict.get_insert_ne _ _ hne⟩

end PollTask

namespace PollSystem

variable {F : Type} [F64 F] {json : SerdeJson F} {s : PollSystem F}

/-- Every task's cadence is published as it should be. -/
structure CadenceInv (s : PollSystem F) : Prop extends s.Inv where
  published : ∀ (n : Nat) t, s.tasks[n]? = some t → ∃ tx, PollTask.Published s.daemon t tx
  origin : ∀ (n : Nat) t, s.tasks[n]? = some t → t.Origin (s.cameFrom n)

omit [F64 F] in
private theorem Inv.id_ne (h : s.Inv) {n m : Nat} {t u : PollTask} (ht : s.tasks[n]? = some t)
    (hu : s.tasks[m]? = some u) (hne : n ≠ m) : t.account.id ≠ u.account.id := by
  intro hid
  have hnd := h.scheduled.ids
  rw [h.accounts, List.map_map] at hnd
  have hn : n < (s.tasks.map ((·.id) ∘ (·.account))).length := by
    rw [List.length_map]
    exact (List.getElem?_eq_some_iff.mp ht).1
  apply hne
  apply (List.getElem?_inj hn hnd).mp
  rw [List.getElem?_map, List.getElem?_map, ht, hu]
  exact congrArg some hid

omit [F64 F] in
private theorem cadenceInv_installConfig (h : s.CadenceInv) (loaded : Option LoadedConfig)
    (error : Option String) (now : DateTime) :
    ({ s with daemon := s.daemon.installConfig loaded error now }).CadenceInv := by
  refine ⟨inv_installConfig h.toInv loaded error now, ?_, h.origin⟩
  intro n t ht
  obtain ⟨tx, hpublished⟩ := h.published n t ht
  obtain ⟨tx', htx', -, hversion, hinterval⟩ := Daemon.installConfig_sent loaded error now
    h.scheduled (h.mem_accounts (List.mem_of_getElem? ht)) hpublished.channel
  have hseen := hpublished.seen_le
  refine ⟨tx', htx', by omega, fun _ => hinterval, ?_, ?_⟩
  · intro heq
    omega
  · intro heq
    omega

private theorem cadenceInv_startAccount (h : s.CadenceInv) {account : Account}
    (hfresh : ∀ a ∈ s.daemon.state.accounts, a.id ≠ account.id)
    (presenter : QuotaWindow F → RenderHint ℚ) (upsertFault : Option String) (now : DateTime) :
    (s.step json (.startAccount account presenter upsertFault now)).CadenceInv := by
  obtain ⟨-, hschedules, hintervals, -⟩ := Daemon.startAccount_state json s.daemon account
    presenter upsertFault now
  have hcases : ∀ (n : Nat) t, (s.tasks ++ [({ account } : PollTask)])[n]? = some t →
      s.tasks[n]? = some t ∨ t = { account } := by
    intro n t ht
    rw [List.getElem?_append] at ht
    split at ht
    · exact .inl ht
    · right
      have hmem := List.mem_of_getElem? ht
      exact List.mem_singleton.mp hmem
  refine ⟨inv_startAccount h.toInv hfresh presenter upsertFault now, ?_, ?_⟩
  · intro n t ht
    rcases hcases n t ht with ht | rfl
    · obtain ⟨tx, hpublished⟩ := h.published n t ht
      have hother := hfresh _ (h.mem_accounts (List.mem_of_getElem? ht))
      refine ⟨tx, hpublished.congr ?_ ?_⟩
      · change Dict.get (Daemon.startAccount json s.daemon account presenter upsertFault
          now).1.state.schedules t.key = _
        rw [hschedules]
        exact Dict.get_insert_ne _ _ fun hkey => hother (congrArg Prod.snd hkey)
      · change Dict.get (Daemon.startAccount json s.daemon account presenter upsertFault
          now).1.state.pollIntervals t.account.id = _
        rw [hintervals]
        exact Dict.get_insert_ne _ _ hother
    · refine ⟨{ value := schedule s.daemon.state.config account.provider }, ?_, Nat.le_refl _,
        ?_, ?_, ?_⟩
      · exact Dict.get_insert_self _ _ _
      · intro hlt
        cases hlt
      · intro _ _
        exact Dict.get_insert_self _ _ _
      · intro _ after hwaits
        cases hwaits
  · intro n t ht
    rcases hcases n t ht with ht | rfl
    · exact h.origin n t ht
    · intro trigger hphase
      cases hphase

private theorem cadenceInv_set (h : s.CadenceInv) {task : Nat} {t : PollTask}
    (ht : s.tasks[task]? = some t) {wakeup : Wakeup F}
    (hown : ∃ tx, PollTask.Published (t.step json s.daemon wakeup).1
      (t.step json s.daemon wakeup).2 tx)
    (horigin : (t.step json s.daemon wakeup).2.Origin
      (if (t.step json s.daemon wakeup).2.phase ≠ t.phase then t.phase else s.cameFrom task))
    (hothers : (t.step json s.daemon wakeup).1.state.schedules = s.daemon.state.schedules ∧
      ∀ id, id ≠ t.account.id →
        (t.step json s.daemon wakeup).1.state.pollIntervals.get id =
          s.daemon.state.pollIntervals.get id) :
    (s.step json (.wake task wakeup)).CadenceInv := by
  have hinv : (s.step json (.wake task wakeup)).Inv := inv_step h.toInv _ trivial
  refine ⟨hinv, ?_, ?_⟩
  · intro n u hu
    simp only [step, ht] at hu ⊢
    by_cases hn : n = task
    · subst hn
      rw [List.getElem?_set_self', ht] at hu
      cases hu
      exact hown
    · rw [List.getElem?_set_ne (Ne.symm hn)] at hu
      obtain ⟨tx, hpublished⟩ := h.published n u hu
      refine ⟨tx, hpublished.congr ?_ ?_⟩
      · rw [hothers.1]
      · exact hothers.2 _ (h.toInv.id_ne hu ht hn)
  · intro n u hu
    simp only [step, ht] at hu ⊢
    by_cases hn : n = task
    · subst hn
      rw [List.getElem?_set_self', ht] at hu
      cases hu
      simpa using horigin
    · rw [List.getElem?_set_ne (Ne.symm hn)] at hu
      simpa [hn] using h.origin n u hu

private theorem cadenceInv_wake (h : s.CadenceInv) {task : Nat} {t : PollTask}
    (ht : s.tasks[task]? = some t) (wakeup : Wakeup F) :
    (s.step json (.wake task wakeup)).CadenceInv := by
  have hmem := List.mem_of_getElem? ht
  have hsettled := h.settled t hmem
  rcases PollTask.step_cases json h.manual hsettled wakeup with
    ⟨hsame, -, hmoves⟩ | ⟨d₁, t₁, hsame, -, haccount, hready, heq⟩
  · obtain ⟨tx, hpublished⟩ := h.published task t ht
    refine cadenceInv_set h ht ⟨tx, hpublished.moves hsame hmoves hsettled⟩
      (hmoves.origin hsettled (h.origin task t ht)) ⟨hsame.schedules, ?_⟩
    intro id _
    rw [hsame.pollIntervals]
  · have hscheduled := h.scheduled.congr hsame
    have hregistered : t₁.account ∈ d₁.state.accounts := by
      rw [haccount, hsame.accounts]
      exact h.mem_accounts hmem
    obtain ⟨tx, htx, -⟩ := hscheduled.schedule _ hregistered
    obtain ⟨hschedules, hintervals⟩ := PollTask.iterate_others hready htx
    apply cadenceInv_set h ht
    · rw [heq]
      exact (PollTask.published_iterate hscheduled hregistered hready .spawned).1
    · rw [heq]
      exact (PollTask.published_iterate hscheduled hregistered hready _).2
    · rw [heq, hschedules]
      refine ⟨hsame.schedules, ?_⟩
      intro id hne
      rw [← haccount] at hne
      rw [hintervals id hne, hsame.pollIntervals]

private theorem cadenceInv_step (h : s.CadenceInv) (i : PollInput F) (hnew : s.NewAccount i) :
    (s.step json i).CadenceInv := by
  cases i with
  | startAccount account presenter upsertFault now =>
    exact cadenceInv_startAccount h hnew presenter upsertFault now
  | applyConfig loaded now => exact cadenceInv_installConfig h _ _ _
  | rejectConfig error now => exact cadenceInv_installConfig h _ _ _
  | pollNow provider account =>
    have hsame := s.daemon.sameSchedules_pollNow provider account
    refine ⟨inv_pollNow h.toInv provider account, ?_, h.origin⟩
    intro n t ht
    obtain ⟨tx, hpublished⟩ := h.published n t ht
    refine ⟨tx, hpublished.congr ?_ ?_⟩
    · exact congrArg (Dict.get · t.key) hsame.schedules
    · exact congrArg (Dict.get · t.account.id) hsame.pollIntervals
  | wake task wakeup =>
    cases ht : s.tasks[task]? with
    | none =>
      simp only [step, ht]
      exact h
    | some t => exact cadenceInv_wake h ht wakeup

private theorem cadenceInv_run (storage : Storage F) (path : String) (known : List ProviderId)
    (now : DateTime) {inputs : List (PollInput F)}
    (hdistinct : DistinctAccounts json (boot storage path known now) inputs) :
    ((boot storage path known now).run json inputs).CadenceInv := by
  apply StepsMeet.invariant hdistinct
  · refine ⟨inv_boot _ _ _ _, ?_, ?_⟩
    · intro n t ht
      cases ht
    · intro n t ht
      cases ht
  · intro s i hs hnew
    exact cadenceInv_step hs i hnew

/-- The published cadence of a suspended task, by the `await` it is suspended at, once it has seen
the latest schedule. -/
structure Describes (published : Option StdDuration) (t : PollTask) (cameFrom : Phase)
    (s : Schedule) : Prop where
  parked : t.phase = .parked → published = some 0
  rechecking : ∀ after, t.phase = .rechecking after → published = some 0
  resolving : t.phase = .resolving → published = some 0
  /-- A poll asked for during a re-check. -/
  recheckPoll : ∀ trigger after, t.phase = .polling trigger → trigger ≠ .startup →
    cameFrom = .rechecking after → published = some 0
  waiting : ∀ after, t.phase = .waiting after →
    after = t.gate.throttle.delay s.interval ∧ published = some after
  /-- A poll that ends a wait. -/
  waitPoll : ∀ trigger after, t.phase = .polling trigger → trigger ≠ .startup →
    cameFrom = .waiting after → published = some (t.gate.throttle.delay s.interval)
  immediatePoll : t.phase = .polling .startup →
    published = some (t.gate.throttle.delay s.interval)
  /-- There is no other kind of poll. -/
  polls : ∀ trigger, t.phase = .polling trigger → trigger = .startup ∨
    (∃ after, cameFrom = .waiting after) ∨ ∃ after, cameFrom = .rechecking after

omit [F64 F] in
private theorem describes_of_published {d : Daemon F} {t : PollTask} {tx : Watch Schedule}
    {cameFrom : Phase} (h : PollTask.Published d t tx) (ht : t.Settled)
    (horigin : t.Origin cameFrom) (hseen : t.seen = tx.version) :
    Describes (d.state.pollIntervals.get t.account.id) t cameFrom tx.value := by
  have hcurrent : ∀ {phase}, t.phase = phase → phase ≠ .stopped →
      d.state.pollIntervals.get t.account.id = some (t.cadence tx.value) := by
    intro phase hphase hruns
    rw [← hphase] at hruns
    exact h.current hseen hruns
  refine ⟨?_, ?_, ?_, ?_, ?_, ?_, ?_, ?_⟩
  · intro hphase
    rw [hcurrent hphase (by simp), PollTask.cadence, hphase]
  · intro after hphase
    rw [hcurrent hphase (by simp), PollTask.cadence, hphase]
  · intro hphase
    rw [hcurrent hphase (by simp), PollTask.cadence, hphase]
  · intro trigger after hphase hne hfrom
    rw [hcurrent hphase (by simp), PollTask.cadence, hphase]
    rcases horigin trigger hphase with heq | ⟨_, hwait, -⟩ | ⟨_, -, hstale⟩
    · exact absurd heq hne
    · rw [hfrom] at hwait
      cases hwait
    · simp [hstale]
  · intro after hphase
    have hwait := h.wait_eq hseen after hphase
    refine ⟨hwait, ?_⟩
    rw [hcurrent hphase (by simp), PollTask.cadence, hphase, hwait]
  · intro trigger after hphase hne hfrom
    rw [hcurrent hphase (by simp), PollTask.cadence, hphase]
    rcases horigin trigger hphase with heq | ⟨_, -, hstale⟩ | ⟨_, hwait, -⟩
    · exact absurd heq hne
    · simp [hstale]
    · rw [hfrom] at hwait
      cases hwait
  · intro hphase
    simp only [PollTask.Settled, hphase] at ht
    rw [hcurrent hphase (by simp), PollTask.cadence, hphase]
    simp [ht.2]
  · intro trigger hphase
    rcases horigin trigger hphase with heq | ⟨after, hwait, -⟩ | ⟨after, hwait, -⟩
    · exact .inl heq
    · exact .inr (.inl ⟨after, hwait⟩)
    · exact .inr (.inr ⟨after, hwait⟩)

/-- Whatever the order of reloads and of the tasks' own steps, the published cadence of a task is
what it is doing once it has seen the latest schedule, and what the reload installed before. -/
theorem cadence_describes (storage : Storage F) (path : String) (known : List ProviderId)
    (now : DateTime) {inputs : List (PollInput F)}
    (hdistinct : DistinctAccounts json (boot storage path known now) inputs) {n : Nat}
    {t : PollTask} (ht : ((boot storage path known now).run json inputs).tasks[n]? = some t) :
    ∃ tx, ((boot storage path known now).run json inputs).daemon.state.schedules.get t.key =
        some tx ∧
      (tx.hasChanged t.seen = false →
        Describes (((boot storage path known now).run json
          inputs).daemon.state.pollIntervals.get t.account.id) t
          (((boot storage path known now).run json inputs).cameFrom n) tx.value) ∧
      (tx.hasChanged t.seen = true →
        ((boot storage path known now).run json inputs).daemon.state.pollIntervals.get
          t.account.id = some (if tx.value.enabled then tx.value.interval else 0)) := by
  have h := cadenceInv_run storage path known now hdistinct
  obtain ⟨tx, hpublished⟩ := h.published n t ht
  refine ⟨tx, hpublished.channel, ?_, ?_⟩
  · intro hseen
    have hle := hpublished.seen_le
    have hnew : ¬ t.seen < tx.version := of_decide_eq_false hseen
    exact describes_of_published hpublished (h.settled t (List.mem_of_getElem? ht))
      (h.origin n t ht) (by omega)
  · intro hunseen
    exact hpublished.unseen (of_decide_eq_true hunseen)

theorem cadence_describes_disabledWhilePolling :
    ∃ tx, (claudeBoot.run (.table [] []) disabledWhilePolling).daemon.state.schedules.get
        ("claude", ⟨"claude:b"⟩) = some tx ∧
      (tx.hasChanged 1 = false →
        Describes
          ((claudeBoot.run (.table [] []) disabledWhilePolling).daemon.state.pollIntervals.get
            ⟨"claude:b"⟩) { account := claudeB, seen := 1, phase := .parked }
          ((claudeBoot.run (.table [] []) disabledWhilePolling).cameFrom 1) tx.value) ∧
      (tx.hasChanged 1 = true →
        (claudeBoot.run (.table [] []) disabledWhilePolling).daemon.state.pollIntervals.get
          ⟨"claude:b"⟩ = some (if tx.value.enabled then tx.value.interval else 0)) := by
  have ht : (claudeBoot.run (.table [] []) disabledWhilePolling).tasks[1]? =
      some { account := claudeB, seen := 1, phase := .parked } := by
    decide
  exact cadence_describes .empty "config.toml" ["claude"] 0 (by decide) ht

end PollSystem
end Teiryo
