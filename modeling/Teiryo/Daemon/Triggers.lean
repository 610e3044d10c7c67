import Teiryo.Daemon.SetConfig

/-!
# Manual triggers of a poll task

One account's poll task with the requests and config changes that reach it. Accepted triggers
wait in a queue that a parked task does not read, so a trigger that is waiting when the task
parks is taken once the provider is enabled again.
-/

namespace Teiryo

/-- What happened to the manual triggers of the task, oldest first. Triggers are numbered in the
order they were accepted. -/
inductive TriggerEvent where
  | accepted (n : Nat)
  | disabled
  | parked
  | ran (n : Nat)
  deriving DecidableEq, Repr

/-- A poll task and the daemon it runs in. The last three fields record history: how many
triggers were accepted and taken so far, and the log. -/
structure TriggerSystem (F : Type) where
  daemon : Daemon F
  task : PollTask
  accepted : Nat := 0
  taken : Nat := 0
  log : List TriggerEvent := []

inductive TriggerInput (F : Type) where
  | pollNow (provider : ProviderId) (account : Option AccountId)
  | applyConfig (loaded : LoadedConfig) (now : DateTime)
  | rejectConfig (error : String) (now : DateTime)
  | wake (wakeup : Wakeup F)

namespace TriggerSystem

variable {F : Type}

/-- The account has just been started. -/
def start [F64 F] (json : SerdeJson F) (d : Daemon F) (account : Account)
    (presenter : QuotaWindow F → RenderHint ℚ) (upsertFault : Option String) (now : DateTime) :
    TriggerSystem F where
  daemon := (d.startAccount json account presenter upsertFault now).1
  task := (d.startAccount json account presenter upsertFault now).2

/-- The triggers waiting for the task. -/
def waiting (s : TriggerSystem F) : List PollTrigger :=
  ((s.daemon.state.mailbox s.task.key).map (·.queue)).getD []

/-- Whether a request is for this task's account. -/
def targets (s : TriggerSystem F) (provider : ProviderId) (account : Option AccountId) : Bool :=
  s.task.key.1 == provider && account.all (· == s.task.key.2)

def isAccepted : Response F ℚ → Bool
  | .pollAccepted _ => true
  | _ => false

section Step

variable [F64 F]

/-- Whether a wakeup takes the task through the loop and into the park arm. -/
def parks (json : SerdeJson F) (s : TriggerSystem F) (wakeup : Wakeup F) : Bool :=
  let task := (s.task.step json s.daemon wakeup).2
  decide (task.phase = .parked) && decide (s.task.phase ≠ .parked ∨ s.task.seen ≠ task.seen)

/-- Whether a wakeup takes a trigger off the queue. -/
def takes (json : SerdeJson F) (s : TriggerSystem F) : Wakeup F → Bool
  | .trigger => decide ((s.task.step json s.daemon .trigger).2.phase ≠ s.task.phase)
  | _ => false

def step (json : SerdeJson F) (s : TriggerSystem F) : TriggerInput F → TriggerSystem F
  | .pollNow provider account =>
    let result := s.daemon.pollNow provider account
    if isAccepted result.1 && s.targets provider account then
      { s with
        daemon := result.2, accepted := s.accepted + 1, log := s.log ++ [.accepted s.accepted] }
    else { s with daemon := result.2 }
  | .applyConfig loaded now =>
    let daemon := s.daemon.applyConfig loaded now
    let provider := s.task.key.1
    if s.daemon.state.config.providerEnabled provider &&
        !daemon.state.config.providerEnabled provider then
      { s with daemon, log := s.log ++ [.disabled] }
    else { s with daemon }
  | .rejectConfig error now => { s with daemon := s.daemon.rejectConfig error now }
  | .wake wakeup =>
    let result := s.task.step json s.daemon wakeup
    let next := { s with daemon := result.1, task := result.2 }
    if s.takes json wakeup then
      { next with taken := s.taken + 1, log := s.log ++ [.ran s.taken] }
    else if s.parks json wakeup then { next with log := s.log ++ [.parked] }
    else next

/-- No trigger is left waiting when the task parks. -/
def ParksEmpty (json : SerdeJson F) (s : TriggerSystem F) : TriggerInput F → Prop
  | .wake wakeup => s.parks json wakeup = true → s.waiting = []
  | _ => True

instance (json : SerdeJson F) (s : TriggerSystem F) (i : TriggerInput F) :
    Decidable (ParksEmpty json s i) :=
  match i with
  | .wake wakeup => inferInstanceAs (Decidable (s.parks json wakeup = true → s.waiting = []))
  | .pollNow _ _ => inferInstanceAs (Decidable True)
  | .applyConfig _ _ => inferInstanceAs (Decidable True)
  | .rejectConfig _ _ => inferInstanceAs (Decidable True)

end Step

private theorem mailbox_setMailbox (st : SharedState F) (key : PollerKey)
    (box : Mailbox PollTrigger) :
    (st.setMailbox key box).mailbox key = (st.mailbox key).map fun _ => box := by
  have h := st.mailbox_map key fun k old => if k == key then box else old
  simp only [beq_self_eq_true, if_true] at h
  exact h

private theorem pollNow_mailbox (d : Daemon F) (provider : ProviderId)
    (account : Option AccountId) (key : PollerKey) :
    (d.pollNow provider account).2.state.mailbox key =
      (d.state.mailbox key).map fun box =>
        if isAccepted (d.pollNow provider account).1 &&
            (key.1 == provider && account.all (· == key.2))
        then box.send (.manual .tui) else box := by
  have hnone : ∀ message kind, (d.state.mailbox key) = (d.state.mailbox key).map fun box =>
      if isAccepted (.err kind message : Response F ℚ) &&
          (key.1 == provider && account.all (· == key.2))
      then box.send (.manual .tui) else box := by
    intro message kind
    simp [isAccepted]
  unfold Daemon.pollNow
  simp only
  split
  · exact hnone _ _
  · split
    · exact hnone _ _
    · split
      · exact hnone _ _
      · simp only [isAccepted, Bool.true_and]
        exact d.state.mailbox_map key fun k box =>
          if k.1 == provider && account.all (· == k.2) then box.send (.manual .tui) else box

private theorem iterate_frame (d : Daemon F) (t : PollTask) :
    (PollTask.iterate d t).1.state.pollers = d.state.pollers ∧
      (PollTask.iterate d t).2.account = t.account := by
  unfold PollTask.iterate
  split
  · exact ⟨rfl, rfl⟩
  · simp only
    split <;> split <;> exact ⟨rfl, rfl⟩

section Invariant

variable [F64 F] {json : SerdeJson F}

private theorem task_step_frame (json : SerdeJson F) (d : Daemon F) (t : PollTask)
    {wakeup : Wakeup F} (h : wakeup ≠ .trigger) :
    (t.step json d wakeup).1.state.pollers = d.state.pollers ∧
      (t.step json d wakeup).2.account = t.account := by
  cases wakeup with
  | trigger => exact (h rfl).elim
  | started =>
    simp only [PollTask.step]
    split
    · exact iterate_frame d t
    · exact ⟨rfl, rfl⟩
  | elapsed =>
    simp only [PollTask.step]
    split <;> exact ⟨rfl, rfl⟩
  | scheduleChanged =>
    have hite : ∀ c : Bool,
        (if c then PollTask.iterate d t else (d, t)).1.state.pollers = d.state.pollers ∧
          (if c then PollTask.iterate d t else (d, t)).2.account = t.account := by
      intro c
      cases c
      · exact ⟨rfl, rfl⟩
      · exact iterate_frame d t
    simp only [PollTask.step]
    split
    · exact hite _
    · exact hite _
    · exact hite _
    · exact ⟨rfl, rfl⟩
  | resolved ok =>
    simp only [PollTask.step]
    split
    · split
      · exact iterate_frame d _
      · exact iterate_frame d t
    · exact ⟨rfl, rfl⟩
  | polled polled id ts latencyMs faults =>
    simp only [PollTask.step]
    split
    · exact iterate_frame _ _
    · exact ⟨rfl, rfl⟩
  | shutdown =>
    simp only [PollTask.step]
    split <;> exact ⟨rfl, rfl⟩

private theorem task_step_trigger (json : SerdeJson F) (d : Daemon F) (t : PollTask) :
    t.step json d .trigger = (d, t) ∨
      ∃ trigger box, (d.state.mailbox t.key).bind Mailbox.recv = some (trigger, box) ∧
        t.phase ≠ .polling trigger ∧
        t.step json d .trigger = ({ d with state := d.state.setMailbox t.key box },
          { t with phase := .polling trigger }) := by
  have hreceive : (∀ trigger, t.phase ≠ .polling trigger) → PollTask.receive d t = (d, t) ∨
      ∃ trigger box, (d.state.mailbox t.key).bind Mailbox.recv = some (trigger, box) ∧
        t.phase ≠ .polling trigger ∧
        PollTask.receive d t = ({ d with state := d.state.setMailbox t.key box },
          { t with phase := .polling trigger }) := by
    intro hphase
    unfold PollTask.receive
    cases hrecv : (d.state.mailbox t.key).bind Mailbox.recv with
    | none => exact .inl rfl
    | some result => exact .inr ⟨result.1, result.2, rfl, hphase _, rfl⟩
  simp only [PollTask.step]
  split
  · rename_i hphase
    exact hreceive (by simp [hphase])
  · rename_i hphase
    exact hreceive (by simp [hphase])
  · exact .inl rfl

/-- The numbering agrees with the queue, no trigger that ran was accepted before a park, and
neither was any that is still waiting. -/
structure Inv (s : TriggerSystem F) : Prop where
  queue : ∃ box, s.daemon.state.mailbox s.task.key = some box ∧
    box.queue.length + s.taken = s.accepted
  accepted_lt : ∀ {n}, .accepted n ∈ s.log → n < s.accepted
  fresh : ∀ {n}, s.taken ≤ n → n < s.accepted → ¬ [.accepted n, .parked].Sublist s.log
  safe : ∀ n, ¬ [.accepted n, .parked, .ran n].Sublist s.log

private theorem mem_of_pair {log : List TriggerEvent} {n : Nat}
    (h : [.accepted n, .parked].Sublist log) : .accepted n ∈ log :=
  h.subset List.mem_cons_self

private theorem pair_concat {log : List TriggerEvent} {n : Nat} {x : TriggerEvent}
    (h : [.accepted n, .parked].Sublist (log ++ [x])) :
    [.accepted n, .parked].Sublist log ∨ x = .parked := by
  have hconcat : ([.accepted n] ++ [.parked] : List TriggerEvent).Sublist (log ++ [x]) := h
  rcases sublist_concat_iff.mp hconcat with h | ⟨hx, -⟩
  · exact .inl h
  · exact .inr hx.symm

private theorem triple_concat {log : List TriggerEvent} {n : Nat} {x : TriggerEvent}
    (h : [.accepted n, .parked, .ran n].Sublist (log ++ [x])) :
    [.accepted n, .parked, .ran n].Sublist log ∨
      x = .ran n ∧ [.accepted n, .parked].Sublist log := by
  have hconcat : ([.accepted n, .parked] ++ [.ran n] : List TriggerEvent).Sublist (log ++ [x]) := h
  rcases sublist_concat_iff.mp hconcat with h | ⟨hx, h⟩
  · exact .inl h
  · exact .inr ⟨hx.symm, h⟩

omit [F64 F] in
private theorem Inv.accepted_lt_concat {s : TriggerSystem F} (hs : Inv s) {x : TriggerEvent}
    (hx : ∀ n, x ≠ .accepted n) {n : Nat} (hn : .accepted n ∈ s.log ++ [x]) : n < s.accepted := by
  rcases List.mem_append.mp hn with hn | hn
  · exact hs.accepted_lt hn
  · exact absurd (List.mem_singleton.mp hn).symm (hx n)

omit [F64 F] in
private theorem Inv.safe_concat {s : TriggerSystem F} (hs : Inv s) {x : TriggerEvent}
    (hx : ∀ n, x ≠ .ran n) (n : Nat) :
    ¬ [.accepted n, .parked, .ran n].Sublist (s.log ++ [x]) := by
  intro htriple
  rcases triple_concat htriple with htriple | ⟨hran, -⟩
  · exact hs.safe n htriple
  · exact hx n hran

private theorem inv_pollNow {s : TriggerSystem F} (hs : Inv s) (provider : ProviderId)
    (account : Option AccountId) : Inv (s.step json (.pollNow provider account)) := by
  obtain ⟨box, hbox, hlen⟩ := hs.queue
  have hmail := pollNow_mailbox s.daemon provider account s.task.key
  rw [hbox, Option.map_some] at hmail
  change _ = some (if isAccepted (s.daemon.pollNow provider account).1 &&
    s.targets provider account then box.send (.manual .tui) else box) at hmail
  by_cases hacc : (isAccepted (s.daemon.pollNow provider account).1 &&
      s.targets provider account) = true
  · rw [step, if_pos hacc]
    rw [if_pos hacc] at hmail
    refine ⟨⟨_, hmail, ?_⟩, ?_, ?_, ?_⟩
    · simp only [Mailbox.send, List.length_append, List.length_singleton]
      omega
    · intro n hn
      rcases List.mem_append.mp hn with hn | hn
      · have := hs.accepted_lt hn
        simp only
        omega
      · have hk : n = s.accepted := by simpa using hn
        simp only
        omega
    · intro n hlow hhigh hpair
      rcases pair_concat hpair with hpair | hx
      · have hlt := hs.accepted_lt (mem_of_pair hpair)
        exact hs.fresh hlow hlt hpair
      · cases hx
    · exact hs.safe_concat (fun n h => by cases h)
  · rw [step, if_neg hacc]
    rw [if_neg hacc] at hmail
    exact ⟨⟨_, hmail, hlen⟩, hs.accepted_lt, hs.fresh, hs.safe⟩

omit [F64 F] in
private theorem inv_of_pollers {s s' : TriggerSystem F} (hs : Inv s)
    (hpollers : s'.daemon.state.pollers = s.daemon.state.pollers)
    (haccount : s'.task.account = s.task.account) (haccepted : s'.accepted = s.accepted)
    (htaken : s'.taken = s.taken)
    (hlog : s'.log = s.log ∨ s'.log = s.log ++ [.disabled] ∨
      s'.log = s.log ++ [.parked] ∧ s.waiting = []) : Inv s' := by
  obtain ⟨box, hbox, hlen⟩ := hs.queue
  have hkey : s'.task.key = s.task.key := by rw [PollTask.key, haccount, PollTask.key]
  have hqueue : ∃ box, s'.daemon.state.mailbox s'.task.key = some box ∧
      box.queue.length + s'.taken = s'.accepted := by
    refine ⟨box, ?_, ?_⟩
    · rw [hkey, SharedState.mailbox, hpollers]
      exact hbox
    · rw [haccepted, htaken, hlen]
  rcases hlog with hlog | hlog | ⟨hlog, hempty⟩
  · refine ⟨hqueue, ?_, ?_, ?_⟩
    · rw [hlog, haccepted]
      exact hs.accepted_lt
    · rw [hlog, haccepted, htaken]
      exact hs.fresh
    · rw [hlog]
      exact hs.safe
  · refine ⟨hqueue, ?_, ?_, ?_⟩
    · rw [hlog, haccepted]
      exact hs.accepted_lt_concat (fun n h => by cases h)
    · rw [hlog, haccepted, htaken]
      intro n hlow hhigh hpair
      rcases pair_concat hpair with hpair | hx
      · exact hs.fresh hlow hhigh hpair
      · cases hx
    · rw [hlog]
      exact hs.safe_concat (fun n h => by cases h)
  · -- a park with an empty queue: every accepted trigger was taken
    have hdone : s.taken = s.accepted := by
      rw [waiting, hbox, Option.map_some, Option.getD_some] at hempty
      rw [hempty, List.length_nil] at hlen
      omega
    refine ⟨hqueue, ?_, ?_, ?_⟩
    · rw [hlog, haccepted]
      exact hs.accepted_lt_concat (fun n h => by cases h)
    · intro n hlow hhigh _
      omega
    · rw [hlog]
      exact hs.safe_concat (fun n h => by cases h)

private theorem takes_of_ne {s : TriggerSystem F} {wakeup : Wakeup F} (h : wakeup ≠ .trigger) :
    s.takes json wakeup = false := by
  cases wakeup <;> first | rfl | exact absurd rfl h

omit [F64 F] in
private theorem inv_take {s : TriggerSystem F} (hs : Inv s) {trigger : PollTrigger}
    {box : Mailbox PollTrigger}
    (hrecv : (s.daemon.state.mailbox s.task.key).bind Mailbox.recv = some (trigger, box)) :
    Inv { s with
      daemon := { s.daemon with state := s.daemon.state.setMailbox s.task.key box }
      task := { s.task with phase := .polling trigger }
      taken := s.taken + 1, log := s.log ++ [.ran s.taken] } := by
  obtain ⟨old, hold, hlen⟩ := hs.queue
  rw [hold, Option.bind_some] at hrecv
  have hlen' := Mailbox.recv_length hrecv
  have hmail := mailbox_setMailbox s.daemon.state s.task.key box
  rw [hold, Option.map_some] at hmail
  refine ⟨⟨box, hmail, ?_⟩, ?_, ?_, ?_⟩
  · simp only
    omega
  · exact hs.accepted_lt_concat (fun n h => by cases h)
  · intro n hlow hhigh hpair
    have hlow' : s.taken ≤ n := Nat.le_of_succ_le hlow
    rcases pair_concat hpair with hpair | hx
    · exact hs.fresh hlow' hhigh hpair
    · cases hx
  · intro n htriple
    rcases triple_concat htriple with htriple | ⟨hx, hpair⟩
    · exact hs.safe n htriple
    · cases hx
      exact hs.fresh (Nat.le_refl _) (by omega) hpair

private theorem inv_wake {s : TriggerSystem F} (hs : Inv s) (wakeup : Wakeup F)
    (hok : s.parks json wakeup = true → s.waiting = []) : Inv (s.step json (.wake wakeup)) := by
  by_cases htrigger : wakeup = .trigger
  · subst htrigger
    rcases task_step_trigger json s.daemon s.task with hstay | ⟨trigger, box, hrecv, hne, htake⟩
    · have hnot : s.takes json .trigger = false := by simp [takes, hstay]
      have hpark : s.parks json .trigger = false := by simp [parks, hstay]
      simp only [step, hnot, hpark, hstay]
      exact hs
    · have hdo : s.takes json .trigger = true := by
        simp only [takes, htake, decide_eq_true_eq]
        exact fun h => hne h.symm
      simp only [step, hdo, htake, if_true]
      exact inv_take hs hrecv
  · have hnot : s.takes json wakeup = false := takes_of_ne htrigger
    obtain ⟨hpollers, haccount⟩ := task_step_frame json s.daemon s.task htrigger
    by_cases hpark : s.parks json wakeup = true
    · simp only [step, hnot, hpark, if_true]
      exact inv_of_pollers hs hpollers haccount rfl rfl (.inr (.inr ⟨rfl, hok hpark⟩))
    · simp only [step, hnot, hpark]
      exact inv_of_pollers hs hpollers haccount rfl rfl (.inl rfl)

omit [F64 F] in
private theorem mailbox_fresh (st : SharedState F) (key : PollerKey) :
    ({ st with pollers := st.pollers.filter (·.1 != key) ++ [(key, {})] } :
      SharedState F).mailbox key = some {} := by
  have hnone : (st.pollers.filter (·.1 != key)).find? (·.1 == key) = none := by
    apply List.find?_eq_none.mpr
    intro p hp
    have hne := (List.mem_filter.mp hp).2
    simpa using hne
  simp [SharedState.mailbox, List.find?_append, hnone]

theorem inv_start (json : SerdeJson F) (d : Daemon F) (account : Account)
    (presenter : QuotaWindow F → RenderHint ℚ) (upsertFault : Option String) (now : DateTime) :
    Inv (start json d account presenter upsertFault now) := by
  refine ⟨⟨{}, ?_, rfl⟩, ?_, ?_, ?_⟩
  · exact mailbox_fresh _ _
  · intro n hn
    cases hn
  · intro n _ hlt
    cases hlt
  · intro n h
    cases h

theorem inv_step (s : TriggerSystem F) (i : TriggerInput F) (hs : Inv s)
    (hok : ParksEmpty json s i) : Inv (s.step json i) := by
  cases i with
  | pollNow provider account => exact inv_pollNow hs provider account
  | applyConfig loaded now =>
    have hpollers := (Daemon.installConfig_state s.daemon (some loaded) none now).2.2.2.2.1
    rw [step]
    split
    · exact inv_of_pollers hs hpollers rfl rfl rfl (.inr (.inl rfl))
    · exact inv_of_pollers hs hpollers rfl rfl rfl (.inl rfl)
  | rejectConfig error now =>
    have hpollers := (Daemon.installConfig_state s.daemon none (some error) now).2.2.2.2.1
    exact inv_of_pollers hs hpollers rfl rfl rfl (.inl rfl)
  | wake wakeup => exact inv_wake hs wakeup hok

/-- In every run in which the task only parks with an empty queue, a trigger accepted before the
provider was disabled never runs after the task has parked. -/
theorem run_no_late_trigger (json : SerdeJson F) (d : Daemon F) (account : Account)
    (presenter : QuotaWindow F → RenderHint ℚ) (upsertFault : Option String) (now : DateTime)
    (inputs : List (TriggerInput F))
    (hmeets : StepsMeet (step json) (ParksEmpty json)
      (start json d account presenter upsertFault now) inputs) (n : Nat) :
    ¬ [.accepted n, .disabled, .parked, .ran n].Sublist
      (inputs.foldl (step json) (start json d account presenter upsertFault now)).log := by
  have hinv := hmeets.invariant (inv_start json d account presenter upsertFault now) inv_step
  intro h
  have hdrop : [TriggerEvent.accepted n, .parked, .ran n].Sublist
      [.accepted n, .disabled, .parked, .ran n] := .cons_cons _ (.cons _ (.refl _))
  exact hinv.safe n (hdrop.trans h)

end Invariant

/-- A freshly started account of an enabled provider. -/
def claudeStart : TriggerSystem ℚ :=
  start (.table [] []) Daemon.idle { id := ⟨"claude:a"⟩, provider := "claude", label := "a" }
    (fun _ => defaultHint) none 0

/-- The config with the provider enabled or not. -/
def claudeConfig (enabled : Bool) : LoadedConfig :=
  { config := { providers := .singleton "claude" { enabled } } }

/-- A poll that came back without windows. -/
def emptyPoll (id : PollId) (ts : DateTime) : Wakeup ℚ :=
  .polled { outcome := .success [], stage := .provider } id ts 0 Storage.noFaults

theorem run_no_late_trigger_idle :
    ¬ [.accepted 0, .disabled, .parked, .ran 0].Sublist
      ([.wake .started, .wake (emptyPoll 1 1), .pollNow "claude" none, .wake .trigger,
        .wake (emptyPoll 2 2), .applyConfig (claudeConfig false) 3, .wake .scheduleChanged,
        .applyConfig (claudeConfig true) 4, .wake .scheduleChanged].foldl
          (step (.table [] [])) claudeStart).log := by
  apply run_no_late_trigger
  decide

/-- A trigger accepted while a poll is in flight outlives the disabling of the provider: the task
parks without reading it, and takes it once it is enabled again. -/
theorem late_trigger_runs :
    ([.wake .started, .pollNow "claude" none, .applyConfig (claudeConfig false) 1,
        .wake (emptyPoll 1 1), .applyConfig (claudeConfig true) 2, .wake .scheduleChanged,
        .wake (emptyPoll 2 2), .wake .trigger].foldl (step (.table [] [])) claudeStart).log =
      [.accepted 0, .disabled, .parked, .ran 0] ∧
    ([.wake .started, .pollNow "claude" none, .applyConfig (claudeConfig false) 1,
        .wake (emptyPoll 1 1), .applyConfig (claudeConfig true) 2, .wake .scheduleChanged,
        .wake (emptyPoll 2 2), .wake .trigger].foldl (step (.table [] []))
          claudeStart).task.phase = .polling (.manual .tui) := by
  constructor
  · decide
  · decide

end TriggerSystem
end Teiryo
