import Teiryo.Client.Updates

/-!
# Spinners

The TUI stops an account's spinner when an update names the account. The daemon's channel holds
one event, so two polls that complete between two replies are delivered as one update, and the
spinner of the account that came first is never stopped.
-/

namespace Teiryo.UpdateSystem

variable {F : Type}

/-- Everything forwarded is handled, and the newest published poll is delivered. -/
def Quiescent (s : UpdateSystem F) : Prop :=
  s.net = [] ∧ ∀ e, s.daemon.watchTx.value = some e → e.id ≤ s.since

/-- No account is marked as polling although a poll of it was published since it was marked. -/
def SpinnersSettled (s : UpdateSystem F) : Prop := ∀ a ∈ s.polling, a ∉ s.completed

/-- A poll is published, with a new id, only after the one published before it has been picked up
by a reply. -/
def PublishesInTurn (s : UpdateSystem F) : UpdateInput F → Prop
  | .publish _ event => s.sent < event.id ∧
      ∀ e, s.daemon.watchTx.value = some e → e.id ≤ s.sent
  | _ => True

/-- An update that will stop the account's spinner is on its way to the TUI. -/
def OnItsWay (s : UpdateSystem F) (account : AccountId) : Prop :=
  (∃ e, NetEvent.update e ∈ s.net ∧ e.account = account) ∨
    (∃ e, s.conn = .replied (.update e) ∧ e.account = account) ∨
    ∃ e, s.daemon.watchTx.value = some e ∧ e.account = account ∧ s.sent < e.id

structure SpinnerInv (s : UpdateSystem F) : Prop where
  requested : ∀ {since gen}, s.conn = .requested since gen → since = s.since
  suspended : ∀ {a}, s.conn = .suspended a → a.since = s.since
  replied : ∀ {e}, s.conn = .replied (.update e) →
    s.since < e.id ∧ ∃ v, s.daemon.watchTx.value = some v ∧ e.id ≤ v.id
  carried : ∀ {a}, a ∈ s.polling → a ∈ s.completed → OnItsWay s a

theorem SpinnerInv.settled {s : UpdateSystem F} (hs : SpinnerInv s) (hq : Quiescent s) :
    SpinnersSettled s := by
  intro a ha hcompleted
  rcases hs.carried ha hcompleted with ⟨e, he, -⟩ | ⟨e, he, -⟩ | ⟨e, he, -, hlt⟩
  · rw [hq.1] at he
    cases he
  · obtain ⟨hlt, v, hv, hle⟩ := hs.replied he
    have hv' := hq.2 v hv
    exact absurd (lt_of_lt_of_le hlt (hle.trans hv')) (lt_irrefl _)
  · have hle := hq.2 e he
    have hsent : s.since ≤ s.sent := by
      unfold sent
      split
      · exact le_max_left _ _
      · exact le_refl _
    exact absurd (lt_of_le_of_lt (hle.trans hsent) hlt) (lt_irrefl _)

private theorem spinnerInv_start (d : Daemon F) (since : PollId) (configGen : Nat) :
    SpinnerInv (start d since configGen) := by
  refine ⟨?_, ?_, ?_, ?_⟩
  · intro since' gen h
    cases h
    rfl
  · intro a h
    cases h
  · intro e h
    cases h
  · intro a h
    simp [start] at h

private theorem spinnerInv_publish [F64 F] {json : SerdeJson F} {s : UpdateSystem F}
    (hs : SpinnerInv s) {faults : Storage.Faults} {event : PollEvent F} (hid : s.sent < event.id)
    (hpicked : ∀ e, s.daemon.watchTx.value = some e → e.id ≤ s.sent) :
    SpinnerInv (s.step json (.publish faults event)) := by
  have hvalue : (s.step json (.publish faults event)).daemon.watchTx.value = some event := rfl
  refine ⟨hs.requested, hs.suspended, ?_, ?_⟩
  · intro e he
    have hconn : s.conn = .replied (.update e) := he
    have hle : e.id ≤ s.sent := by
      simp only [sent, hconn]
      exact le_max_right _ _
    exact ⟨(hs.replied hconn).1, event, hvalue, hle.trans hid.le⟩
  · intro a ha hcompleted
    by_cases hacc : event.account = a
    · exact .inr (.inr ⟨event, hvalue, hacc, hid⟩)
    · have hold : a ∈ s.completed := by
        rcases Finset.mem_insert.mp hcompleted with h | h
        · exact absurd h.symm hacc
        · exact h
      rcases hs.carried ha hold with h | h | ⟨e, he, -, hlt⟩
      · exact .inl h
      · exact .inr (.inl h)
      · -- the event that is about to be overwritten has been picked up
        exact absurd (lt_of_lt_of_le hlt (hpicked e he)) (lt_irrefl _)

private theorem spinnerInv_check {s : UpdateSystem F} (hs : SpinnerInv s)
    (hsent : s.sent = s.since) (hnot : ∀ e, s.conn ≠ .replied (.update e)) (configGen : Nat) :
    SpinnerInv (s.check s.since configGen) := by
  have hcarried : ∀ {a}, a ∈ s.polling → a ∈ s.completed →
      (∃ e, NetEvent.update e ∈ s.net ∧ e.account = a) ∨
        ∃ e, s.daemon.watchTx.value = some e ∧ e.account = a ∧ s.since < e.id := by
    intro a ha hcompleted
    rcases hs.carried ha hcompleted with h | ⟨e, he, -⟩ | h
    · exact .inl h
    · exact absurd he (hnot e)
    · rw [hsent] at h
      exact .inr h
  rcases awaitUpdate_cases s.daemon s.since configGen with
    ⟨e, hvalue, hnew, hres⟩ | ⟨hold, hres⟩
  · rw [check, hres]
    refine ⟨?_, ?_, ?_, ?_⟩
    · intro since gen h
      cases h
    · intro a h
      cases h
    · intro e' h
      cases h
      exact ⟨hnew, e, hvalue, le_refl _⟩
    · intro a ha hcompleted
      rcases hcarried ha hcompleted with h | ⟨e', he', hacc, -⟩
      · exact .inl h
      · rw [hvalue] at he'
        cases he'
        exact .inr (.inl ⟨e, rfl, hacc⟩)
  · -- nothing newer is published, so only forwarded updates are left
    have hnet : ∀ {a}, a ∈ s.polling → a ∈ s.completed →
        ∃ e, NetEvent.update e ∈ s.net ∧ e.account = a := by
      intro a ha hcompleted
      rcases hcarried ha hcompleted with h | ⟨e, he, -, hlt⟩
      · exact h
      · exact absurd hlt (hold e he)
    rcases hres with hres | hres
    · rw [check, hres]
      refine ⟨?_, ?_, ?_, ?_⟩
      · intro since gen h
        cases h
      · intro a h
        cases h
      · intro e h
        cases h
      · intro a ha hcompleted
        exact .inl (hnet ha hcompleted)
    · rw [check, hres]
      refine ⟨?_, ?_, ?_, ?_⟩
      · intro since gen h
        cases h
      · intro a h
        cases h
        rfl
      · intro e h
        cases h
      · intro a ha hcompleted
        exact .inl (hnet ha hcompleted)

private theorem spinnerInv_serve [F64 F] {json : SerdeJson F} {s : UpdateSystem F}
    (hs : SpinnerInv s) : SpinnerInv (s.step json .serve) := by
  cases hconn : s.conn with
  | requested since gen =>
    have hsince := hs.requested hconn
    subst hsince
    simp only [step, hconn]
    exact spinnerInv_check hs (by simp [sent, hconn]) (by simp [hconn]) gen
  | suspended a =>
    have hsince := hs.suspended hconn
    by_cases hwoken : a.woken s.daemon = true
    · simp only [step, hconn, hwoken, if_true, hsince]
      exact spinnerInv_check hs (by simp [sent, hconn]) (by simp [hconn]) a.configGen
    · simp only [step, hconn, hwoken]
      exact hs
  | _ =>
    simp only [step, hconn]
    exact hs

private theorem spinnerInv_timeout [F64 F] {json : SerdeJson F} {s : UpdateSystem F}
    (hs : SpinnerInv s) : SpinnerInv (s.step json .timeout) := by
  cases hconn : s.conn with
  | suspended a =>
    by_cases hwoken : a.woken s.daemon = true
    · simp only [step, hconn, hwoken, if_true]
      exact hs
    · simp only [step, hconn, hwoken]
      refine ⟨?_, ?_, ?_, ?_⟩
      · intro since gen h
        cases h
      · intro a h
        cases h
      · intro e h
        cases h
      · intro a ha hcompleted
        rcases hs.carried ha hcompleted with h | ⟨e, he, -⟩ | h
        · exact .inl h
        · rw [hconn] at he
          cases he
        · simp only [sent, hconn] at h
          exact .inr (.inr h)
  | _ =>
    simp only [step, hconn]
    exact hs

private theorem spinnerInv_of_delivered {s s' : UpdateSystem F} (hs : SpinnerInv s)
    (hconn : (∃ gen, s'.conn = .requested s'.since gen) ∨ s'.conn = .closed)
    (hsince : s'.since = s.sent) (hdaemon : s'.daemon = s.daemon)
    (hpolling : s'.polling = s.polling) (hcompleted : s'.completed = s.completed)
    (hnet : ∀ event ∈ s.net, event ∈ s'.net)
    (hreply : ∀ e, s.conn = .replied (.update e) → .update e ∈ s'.net) : SpinnerInv s' := by
  have hsent : s'.sent = s.sent := by
    rcases hconn with ⟨gen, hconn⟩ | hconn
    · rw [sent, hconn, hsince]
    · rw [sent, hconn, hsince]
  refine ⟨?_, ?_, ?_, ?_⟩
  · intro since gen h
    rcases hconn with ⟨gen', hconn⟩ | hconn
    · rw [hconn] at h
      cases h
      rfl
    · rw [hconn] at h
      cases h
  · intro a h
    rcases hconn with ⟨gen', hconn⟩ | hconn
    · rw [hconn] at h
      cases h
    · rw [hconn] at h
      cases h
  · intro e h
    rcases hconn with ⟨gen', hconn⟩ | hconn
    · rw [hconn] at h
      cases h
    · rw [hconn] at h
      cases h
  · intro a ha hc
    rw [hpolling] at ha
    rw [hcompleted] at hc
    rcases hs.carried ha hc with ⟨e, he, hacc⟩ | ⟨e, he, hacc⟩ | h
    · exact .inl ⟨e, hnet _ he, hacc⟩
    · exact .inl ⟨e, hreply e he, hacc⟩
    · rw [← hsent, ← hdaemon] at h
      exact .inr (.inr h)

private theorem spinnerInv_deliver [F64 F] {json : SerdeJson F} {s : UpdateSystem F}
    (hs : SpinnerInv s) : SpinnerInv (s.step json .deliver) := by
  cases hconn : s.conn with
  | replied r =>
    cases r with
    | update e =>
      simp only [step, hconn]
      refine spinnerInv_of_delivered hs (.inl ⟨_, rfl⟩) (by simp [sent, hconn]) rfl rfl rfl
        (fun _ h => List.mem_append_left _ h) ?_
      intro e' h
      rw [hconn] at h
      cases h
      exact List.mem_append_right _ (List.mem_singleton.mpr rfl)
    | config state =>
      simp only [step, hconn]
      exact spinnerInv_of_delivered hs (.inl ⟨_, rfl⟩) (by simp [sent, hconn]) rfl rfl rfl
        (fun _ h => List.mem_append_left _ h) (by simp [hconn])
    | noUpdate =>
      simp only [step, hconn]
      exact spinnerInv_of_delivered hs (.inl ⟨_, rfl⟩) (by simp [sent, hconn]) rfl rfl rfl
        (fun _ h => h) (by simp [hconn])
    | _ =>
      simp only [step, hconn]
      exact spinnerInv_of_delivered hs (.inr rfl) (by simp [sent, hconn]) rfl rfl rfl
        (fun _ h => h) (by simp [hconn])
  | _ =>
    simp only [step, hconn]
    exact hs

private theorem spinnerInv_handle [F64 F] {json : SerdeJson F} {s : UpdateSystem F}
    (hs : SpinnerInv s) : SpinnerInv (s.step json .handle) := by
  cases hnet : s.net with
  | nil =>
    simp only [step, hnet]
    exact hs
  | cons event net =>
    cases event with
    | update e =>
      simp only [step, hnet]
      refine ⟨hs.requested, hs.suspended, hs.replied, ?_⟩
      intro a ha hcompleted
      obtain ⟨hne, ha⟩ := Finset.mem_erase.mp ha
      rcases hs.carried ha hcompleted with ⟨e', he', hacc⟩ | h | h
      · rw [hnet] at he'
        rcases List.mem_cons.mp he' with heq | he'
        · cases heq
          exact absurd hacc.symm hne
        · exact .inl ⟨e', he', hacc⟩
      · exact .inr (.inl h)
      · exact .inr (.inr h)
    | _ =>
      simp only [step, hnet]
      refine ⟨hs.requested, hs.suspended, hs.replied, ?_⟩
      intro a ha hcompleted
      rcases hs.carried ha hcompleted with ⟨e', he', hacc⟩ | h | h
      · rw [hnet] at he'
        rcases List.mem_cons.mp he' with heq | he'
        · cases heq
        · exact .inl ⟨e', he', hacc⟩
      · exact .inr (.inl h)
      · exact .inr (.inr h)

private theorem spinnerInv_step [F64 F] {json : SerdeJson F} (s : UpdateSystem F)
    (i : UpdateInput F)
    (hs : SpinnerInv s) (hok : PublishesInTurn s i) : SpinnerInv (s.step json i) := by
  cases i with
  | publish faults event => exact spinnerInv_publish hs hok.1 hok.2
  | install loaded error now => exact ⟨hs.requested, hs.suspended, hs.replied, hs.carried⟩
  | serve => exact spinnerInv_serve hs
  | timeout => exact spinnerInv_timeout hs
  | deliver => exact spinnerInv_deliver hs
  | handle => exact spinnerInv_handle hs
  | mark account =>
    refine ⟨hs.requested, hs.suspended, hs.replied, ?_⟩
    intro a ha hcompleted
    obtain ⟨hne, hcompleted⟩ := Finset.mem_erase.mp hcompleted
    rcases Finset.mem_insert.mp ha with heq | ha
    · exact absurd heq hne
    · exact hs.carried ha hcompleted
  | refused provider account shown =>
    refine ⟨hs.requested, hs.suspended, hs.replied, ?_⟩
    intro a ha hcompleted
    exact hs.carried (Finset.mem_sdiff.mp ha).1 hcompleted

/-- In every run in which each poll is published after the one before it was picked up, once
everything is delivered and handled no account whose poll landed is still spinning. -/
theorem run_spinners_settled [F64 F] (json : SerdeJson F) (d : Daemon F) (since : PollId)
    (configGen : Nat) (inputs : List (UpdateInput F))
    (hmeets : StepsMeet (step json) PublishesInTurn (start d since configGen) inputs)
    (hquiet : Quiescent (inputs.foldl (step json) (start d since configGen))) :
    SpinnersSettled (inputs.foldl (step json) (start d since configGen)) := by
  have hinv := hmeets.invariant (spinnerInv_start d since configGen) spinnerInv_step
  exact hinv.settled hquiet

theorem run_spinners_settled_in_turn :
    SpinnersSettled
      ([.mark ⟨"claude:a"⟩, .mark ⟨"claude:b"⟩,
        .publish Storage.noFaults (manualPoll "claude:a" 1 0), .serve, .deliver,
        .publish Storage.noFaults (manualPoll "claude:b" 2 0), .serve, .deliver, .handle,
        .handle].foldl (step (.table [] [])) (start Daemon.idle 0 0)) := by
  apply run_spinners_settled
  · refine ⟨trivial, trivial, ⟨?_, ?_⟩, trivial, trivial, ⟨?_, ?_⟩, trivial, trivial, trivial,
      trivial, trivial⟩
    · decide
    · intro e he
      cases he
    · decide
    · intro e he
      cases he
      decide
  · refine ⟨by decide, ?_⟩
    intro e he
    cases he
    decide

/-- Both polls complete before the request is served: one update, for the second, and the first
account's spinner keeps running. -/
theorem overtaken_poll_keeps_spinning :
    Quiescent
      ([.mark ⟨"claude:a"⟩, .mark ⟨"claude:b"⟩,
        .publish Storage.noFaults (manualPoll "claude:a" 1 0),
        .publish Storage.noFaults (manualPoll "claude:b" 2 0), .serve, .deliver, .handle].foldl
          (step (.table [] [])) (start Daemon.idle 0 0)) ∧
    ¬ SpinnersSettled
      ([.mark ⟨"claude:a"⟩, .mark ⟨"claude:b"⟩,
        .publish Storage.noFaults (manualPoll "claude:a" 1 0),
        .publish Storage.noFaults (manualPoll "claude:b" 2 0), .serve, .deliver, .handle].foldl
          (step (.table [] [])) (start Daemon.idle 0 0)) := by
  constructor
  · refine ⟨by decide, ?_⟩
    intro e he
    cases he
    decide
  · intro h
    have hpolling : (⟨"claude:a"⟩ : AccountId) ∈
        ([.mark ⟨"claude:a"⟩, .mark ⟨"claude:b"⟩,
          .publish Storage.noFaults (manualPoll "claude:a" 1 0),
          .publish Storage.noFaults (manualPoll "claude:b" 2 0), .serve, .deliver, .handle].foldl
            (step (.table [] [])) (start Daemon.idle 0 0)).polling := by decide
    exact h _ hpolling (by decide)

end Teiryo.UpdateSystem
