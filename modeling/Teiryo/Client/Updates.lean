import Teiryo.Daemon.SetConfig

/-!
# The update loop

A client's long-poll loop, `spawn_update_loop` of `teiryo/src/client.rs`, over one connection to
the daemon, and the TUI that handles what the loop forwards, as far as its spinners go. The loop
has one `AwaitUpdate` at a time: on its way to the daemon, suspended there, or answered and on
its way back.
-/

namespace Teiryo

/-- Events flowing into the event loop. -/
inductive NetEvent (F : Type) where
  | update (event : PollEvent F)
  | config (state : ConfigState)
  | disconnected (message : String)
  /-- The new command connection, by the build commit of its daemon. -/
  | reconnected (daemonCommit : String)
  | reconnectFailed (message : String)
  | incompatible (message : String)
  deriving DecidableEq, Repr

/-- Where the loop's request is. -/
inductive Conn (F : Type) where
  | requested (since : PollId) (configGen : Nat)
  | suspended (await : Daemon.Await)
  | replied (response : Response F ℚ)
  | closed
  deriving DecidableEq, Repr

/-- The daemon, the loop and the TUI. The last three fields record history: the polls published
since the last reply was decided, each reply with the polls published before it and after the
one before, and the accounts a poll of which was published since they were marked. -/
structure UpdateSystem (F : Type) where
  daemon : Daemon F
  since : PollId
  configGen : Nat
  conn : Conn F
  net : List (NetEvent F) := []
  polling : Finset AccountId := ∅
  unanswered : List (PollEvent F) := []
  answers : List (Response F ℚ × List (PollEvent F)) := []
  completed : Finset AccountId := ∅

inductive UpdateInput (F : Type) where
  /-- A poll of some account completes. -/
  | publish (faults : Storage.Faults) (event : PollEvent F)
  /-- A config load attempt. -/
  | install (loaded : Option LoadedConfig) (error : Option String) (now : DateTime)
  /-- The daemon starts on the request, or resumes it once woken. -/
  | serve
  /-- The request's deadline passes. -/
  | timeout
  /-- The reply reaches the client. -/
  | deliver
  /-- The TUI handles the next forwarded event. -/
  | handle
  /-- The user asks for a poll of an account. -/
  | mark (account : AccountId)
  /-- A `PollNow` is refused; `shown` are the accounts on the dashboard. -/
  | refused (provider : ProviderId) (account : Option AccountId) (shown : List Account)

namespace UpdateSystem

variable {F : Type}

/-- `App::poll_refused`. -/
def pollRefused (polling : Finset AccountId) (provider : ProviderId) (account : Option AccountId)
    (shown : List Account) : Finset AccountId :=
  polling \ ((shown.filter fun a =>
    a.provider == provider && account.all (· == a.id)).map (·.id)).toFinset

/-- A reply is decided. -/
def reply (s : UpdateSystem F) (r : Response F ℚ) : UpdateSystem F :=
  { s with
    conn := .replied r, unanswered := [], answers := s.answers ++ [(r, s.unanswered)] }

/-- The loop before its first reply. -/
def start (d : Daemon F) (since : PollId) (configGen : Nat) : UpdateSystem F where
  daemon := d
  since := since
  configGen := configGen
  conn := .requested since configGen

/-- Run `await_update` to its next suspension or reply. -/
def check (s : UpdateSystem F) (since : PollId) (configGen : Nat) : UpdateSystem F :=
  match s.daemon.awaitUpdate since configGen with
  | .inl r => s.reply r
  | .inr a => { s with conn := .suspended a }

def step [F64 F] (json : SerdeJson F) (s : UpdateSystem F) : UpdateInput F → UpdateSystem F
  | .publish faults event =>
    { s with
      daemon := s.daemon.recordEvent json faults event
      unanswered := s.unanswered ++ [event], completed := insert event.account s.completed }
  | .install loaded error now => { s with daemon := s.daemon.installConfig loaded error now }
  | .serve =>
    match s.conn with
    | .requested since configGen => s.check since configGen
    | .suspended a => if a.woken s.daemon then s.check a.since a.configGen else s
    | _ => s
  | .timeout =>
    match s.conn with
    | .suspended a => if a.woken s.daemon then s else s.reply .noUpdate
    | _ => s
  | .deliver =>
    match s.conn with
    | .replied (.update event) =>
      let since := max s.since event.id
      { s with since, conn := .requested since s.configGen, net := s.net ++ [.update event] }
    | .replied (.config state) =>
      let configGen := max s.configGen state.generation
      { s with configGen, conn := .requested s.since configGen, net := s.net ++ [.config state] }
    | .replied .noUpdate => { s with conn := .requested s.since s.configGen }
    | .replied _ => { s with conn := .closed }
    | _ => s
  | .handle =>
    match s.net with
    | .update event :: net => { s with net, polling := s.polling.erase event.account }
    | _ :: net => { s with net }
    | [] => s
  | .mark account =>
    { s with
      polling := insert account s.polling, completed := s.completed.erase account }
  | .refused provider account shown =>
    { s with polling := pollRefused s.polling provider account shown }

/-- The newest poll id the client has, or has been sent. -/
def sent (s : UpdateSystem F) : PollId :=
  match s.conn with
  | .replied (.update event) => max s.since event.id
  | _ => s.since

/-- The id of a published poll is above every one the client has been sent. -/
def IdsAhead (s : UpdateSystem F) : UpdateInput F → Prop
  | .publish _ event => s.sent < event.id
  | _ => True

def inDaemon : Conn F → Bool
  | .requested _ _ => true
  | .suspended _ => true
  | _ => false

/-- Every reply carries the newest of the polls published since the reply before it, if there is
one, and such a poll makes the request resolve with it as soon as the daemon gets to it. -/
structure Served [F64 F] (json : SerdeJson F) (s : UpdateSystem F) : Prop where
  answers : ∀ {r es}, (r, es) ∈ s.answers → es = [] ∨ ∃ e, es.getLast? = some e ∧ r = .update e
  serve : ∀ {e}, s.unanswered.getLast? = some e → inDaemon s.conn = true →
    (s.step json .serve).conn = .replied (.update e)
  timeout : s.unanswered ≠ [] → s.step json .timeout = s
  deliver : inDaemon s.conn = false → inDaemon (s.step json .deliver).conn = true

/-- What `await_update` finds on its channels. -/
theorem awaitUpdate_cases (d : Daemon F) (since : PollId) (configGen : Nat) :
    (∃ e, d.watchTx.value = some e ∧ since < e.id ∧
      d.awaitUpdate since configGen = .inl (.update e)) ∨
    ((∀ e, d.watchTx.value = some e → ¬ since < e.id) ∧
      (d.awaitUpdate since configGen = .inl (.config d.state.configState) ∨
        d.awaitUpdate since configGen = .inr {
          since, configGen, seen := d.watchTx.version, configSeen := d.configTx.version })) := by
  unfold Daemon.awaitUpdate
  cases hvalue : d.watchTx.value with
  | none =>
    refine .inr ⟨by simp, ?_⟩
    simp only [Option.filter_none]
    split
    · exact .inl rfl
    · exact .inr rfl
  | some e =>
    by_cases hnew : since < e.id
    · exact .inl ⟨e, rfl, hnew, by simp [Option.filter, hnew]⟩
    · have hfilter : Option.filter (fun e => decide (since < e.id)) (some e) = none := by
        simp [Option.filter, hnew]
      refine .inr ⟨by simpa using hnew, ?_⟩
      simp only [hfilter]
      split
      · exact .inl rfl
      · exact .inr rfl

/-- The request in the daemon carries the client's `since`, and polls published since the last
reply are ones it has yet to look at. -/
structure Inv (s : UpdateSystem F) : Prop where
  requested : ∀ {since gen}, s.conn = .requested since gen → since = s.since
  suspended : ∀ {a}, s.conn = .suspended a → a.since = s.since ∧
    a.seen ≤ s.daemon.watchTx.version ∧
    (s.unanswered ≠ [] → a.seen < s.daemon.watchTx.version)
  replied : ∀ {r}, s.conn = .replied r →
    (∃ e, r = .update e) ∨ (∃ state, r = .config state) ∨ r = .noUpdate
  not_closed : s.conn ≠ .closed
  newest : ∀ {e}, s.unanswered.getLast? = some e →
    s.daemon.watchTx.value = some e ∧ s.sent < e.id
  answers : ∀ {r es}, (r, es) ∈ s.answers → es = [] ∨ ∃ e, es.getLast? = some e ∧ r = .update e

theorem inv_start (d : Daemon F) (since : PollId) (configGen : Nat) :
    Inv (start d since configGen) := by
  refine ⟨?_, ?_, ?_, ?_, ?_, ?_⟩
  · intro since' gen h
    cases h
    rfl
  · intro a h
    cases h
  · intro r h
    cases h
  · intro h
    cases h
  · intro e h
    cases h
  · intro r es h
    cases h

private theorem inv_reply {s : UpdateSystem F} (hs : Inv s) {r : Response F ℚ}
    (hkind : (∃ e, r = .update e) ∨ (∃ state, r = .config state) ∨ r = .noUpdate)
    (hcarry : s.unanswered = [] ∨ ∃ e, s.unanswered.getLast? = some e ∧ r = .update e) :
    Inv (s.reply r) := by
  refine ⟨?_, ?_, ?_, ?_, ?_, ?_⟩
  · intro since gen h
    cases h
  · intro a h
    cases h
  · intro r' h
    cases h
    exact hkind
  · intro h
    cases h
  · intro e h
    cases h
  · intro r' es h
    rcases List.mem_append.mp h with h | h
    · exact hs.answers h
    · cases List.mem_singleton.mp h
      exact hcarry

private theorem inv_check {s : UpdateSystem F} (hs : Inv s) (hsent : s.sent = s.since)
    (configGen : Nat) : Inv (s.check s.since configGen) := by
  have hlast : s.unanswered = [] ∨ ∃ e, s.unanswered.getLast? = some e := by
    cases h : s.unanswered.getLast? with
    | none => exact .inl (List.getLast?_eq_none_iff.mp h)
    | some e => exact .inr ⟨e, rfl⟩
  rcases awaitUpdate_cases s.daemon s.since configGen with
    ⟨e, hvalue, hnew, hres⟩ | ⟨hold, hres⟩
  · rw [check, hres]
    apply inv_reply hs (.inl ⟨e, rfl⟩)
    rcases hlast with hempty | ⟨e', he'⟩
    · exact .inl hempty
    · have hsame := (hs.newest he').1
      rw [hvalue] at hsame
      cases hsame
      exact .inr ⟨e, he', rfl⟩
  · -- nothing newer than `since` is published, so nothing is unanswered
    have hempty : s.unanswered = [] := by
      rcases hlast with hempty | ⟨e', he'⟩
      · exact hempty
      · obtain ⟨hvalue, hlt⟩ := hs.newest he'
        rw [hsent] at hlt
        exact absurd hlt (hold e' hvalue)
    rcases hres with hres | hres
    · rw [check, hres]
      exact inv_reply hs (.inr (.inl ⟨_, rfl⟩)) (.inl hempty)
    · rw [check, hres]
      refine ⟨?_, ?_, ?_, ?_, ?_, hs.answers⟩
      · intro since gen h
        cases h
      · intro a h
        cases h
        exact ⟨rfl, Nat.le_refl _, fun hne => absurd hempty hne⟩
      · intro r h
        cases h
      · intro h
        cases h
      · intro e h
        have h' : s.unanswered.getLast? = some e := h
        rw [hempty] at h'
        cases h'

private theorem inv_deliver [F64 F] {json : SerdeJson F} {s : UpdateSystem F} (hs : Inv s) :
    Inv (s.step json .deliver) := by
  -- the next request carries the `since` that was sent, so nothing published is lost on the way
  have hnext : ∀ s' : UpdateSystem F, (∃ gen, s'.conn = .requested s'.since gen) →
      s'.since = s.sent → s'.daemon = s.daemon → s'.unanswered = s.unanswered →
      s'.answers = s.answers → Inv s' := by
    intro s' ⟨gen, hconn⟩ hsince hdaemon hun hans
    have hsent : s'.sent = s.sent := by rw [sent, hconn, hsince]
    refine ⟨?_, ?_, ?_, ?_, ?_, ?_⟩
    · intro since gen' h
      rw [hconn] at h
      cases h
      rfl
    · intro a h
      rw [hconn] at h
      cases h
    · intro r h
      rw [hconn] at h
      cases h
    · rw [hconn]
      intro h
      cases h
    · rw [hun, hdaemon, hsent]
      exact hs.newest
    · rw [hans]
      exact hs.answers
  cases hconn : s.conn with
  | requested since gen =>
    simp only [step, hconn]
    exact hs
  | suspended a =>
    simp only [step, hconn]
    exact hs
  | closed => exact absurd hconn hs.not_closed
  | replied r =>
    rcases hs.replied hconn with ⟨e, rfl⟩ | ⟨state, rfl⟩ | rfl
    · simp only [step, hconn]
      exact hnext _ ⟨_, rfl⟩ (by simp [sent, hconn]) rfl rfl rfl
    · simp only [step, hconn]
      exact hnext _ ⟨_, rfl⟩ (by simp [sent, hconn]) rfl rfl rfl
    · simp only [step, hconn]
      exact hnext _ ⟨_, rfl⟩ (by simp [sent, hconn]) rfl rfl rfl

private theorem inv_publish [F64 F] {json : SerdeJson F} {s : UpdateSystem F} (hs : Inv s)
    {faults : Storage.Faults} {event : PollEvent F} (hid : s.sent < event.id) :
    Inv (s.step json (.publish faults event)) := by
  refine ⟨hs.requested, ?_, hs.replied, hs.not_closed, ?_, hs.answers⟩
  · intro a h
    obtain ⟨hsince, hseen, -⟩ := hs.suspended h
    have hlt : a.seen < s.daemon.watchTx.version + 1 := by omega
    exact ⟨hsince, Nat.le_of_lt hlt, fun _ => hlt⟩
  · intro e h
    have hlast : (s.unanswered ++ [event]).getLast? = some e := h
    rw [List.getLast?_concat] at hlast
    cases hlast
    exact ⟨rfl, hid⟩

private theorem inv_timeout [F64 F] {json : SerdeJson F} {s : UpdateSystem F} (hs : Inv s) :
    Inv (s.step json .timeout) := by
  cases hconn : s.conn with
  | suspended a =>
    by_cases hwoken : a.woken s.daemon = true
    · simp only [step, hconn, hwoken, if_true]
      exact hs
    · have hempty : s.unanswered = [] := by
        by_contra hne
        have hlt := (hs.suspended hconn).2.2 hne
        exact hwoken (by simp [Daemon.Await.woken, Watch.hasChanged, hlt])
      simp only [step, hconn, hwoken]
      exact inv_reply hs (.inr (.inr rfl)) (.inl hempty)
  | _ =>
    simp only [step, hconn]
    exact hs

private theorem inv_serve [F64 F] {json : SerdeJson F} {s : UpdateSystem F} (hs : Inv s) :
    Inv (s.step json .serve) := by
  cases hconn : s.conn with
  | requested since gen =>
    have hsince := hs.requested hconn
    subst hsince
    simp only [step, hconn]
    exact inv_check hs (by simp [sent, hconn]) gen
  | suspended a =>
    have hsince := (hs.suspended hconn).1
    by_cases hwoken : a.woken s.daemon = true
    · simp only [step, hconn, hwoken, if_true, hsince]
      exact inv_check hs (by simp [sent, hconn]) a.configGen
    · simp only [step, hconn, hwoken]
      exact hs
  | _ =>
    simp only [step, hconn]
    exact hs

theorem inv_step [F64 F] {json : SerdeJson F} (s : UpdateSystem F) (i : UpdateInput F)
    (hs : Inv s) (hok : IdsAhead s i) : Inv (s.step json i) := by
  cases i with
  | publish faults event => exact inv_publish hs hok
  | install loaded error now =>
    exact ⟨hs.requested, hs.suspended, hs.replied, hs.not_closed, hs.newest, hs.answers⟩
  | serve => exact inv_serve hs
  | timeout => exact inv_timeout hs
  | deliver => exact inv_deliver hs
  | handle =>
    simp only [step]
    split
    · exact ⟨hs.requested, hs.suspended, hs.replied, hs.not_closed, hs.newest, hs.answers⟩
    · exact ⟨hs.requested, hs.suspended, hs.replied, hs.not_closed, hs.newest, hs.answers⟩
    · exact hs
  | mark account =>
    exact ⟨hs.requested, hs.suspended, hs.replied, hs.not_closed, hs.newest, hs.answers⟩
  | refused provider account shown =>
    exact ⟨hs.requested, hs.suspended, hs.replied, hs.not_closed, hs.newest, hs.answers⟩

private theorem woken_of_unanswered {s : UpdateSystem F} (hs : Inv s) {a : Daemon.Await}
    (hconn : s.conn = .suspended a) (hne : s.unanswered ≠ []) : a.woken s.daemon = true := by
  have hlt := (hs.suspended hconn).2.2 hne
  simp [Daemon.Await.woken, Watch.hasChanged, hlt]

private theorem check_conn {s : UpdateSystem F} {e : PollEvent F} (configGen : Nat)
    (hvalue : s.daemon.watchTx.value = some e) (hlt : s.since < e.id) :
    (s.check s.since configGen).conn = .replied (.update e) := by
  rcases awaitUpdate_cases s.daemon s.since configGen with
    ⟨e', hvalue', -, hres⟩ | ⟨hold, -⟩
  · rw [hvalue] at hvalue'
    cases hvalue'
    rw [check, hres]
    rfl
  · exact absurd hlt (hold e hvalue)

theorem Inv.served [F64 F] (json : SerdeJson F) {s : UpdateSystem F} (hs : Inv s) :
    Served json s := by
  refine ⟨hs.answers, ?_, ?_, ?_⟩
  · intro e hlast hin
    obtain ⟨hvalue, hlt⟩ := hs.newest hlast
    have hne : s.unanswered ≠ [] := by
      intro h
      rw [h] at hlast
      cases hlast
    cases hconn : s.conn with
    | requested since gen =>
      have hsince := hs.requested hconn
      subst hsince
      simp only [sent, hconn] at hlt
      simp only [step, hconn]
      exact check_conn gen hvalue hlt
    | suspended a =>
      have hsince := (hs.suspended hconn).1
      simp only [sent, hconn] at hlt
      simp only [step, hconn, woken_of_unanswered hs hconn hne, if_true, hsince]
      exact check_conn a.configGen hvalue hlt
    | replied r =>
      rw [hconn] at hin
      cases hin
    | closed => exact absurd hconn hs.not_closed
  · intro hne
    cases hconn : s.conn with
    | suspended a => simp only [step, hconn, woken_of_unanswered hs hconn hne, if_true]
    | _ => simp only [step, hconn]
  · intro hout
    cases hconn : s.conn with
    | requested since gen =>
      rw [hconn] at hout
      cases hout
    | suspended a =>
      rw [hconn] at hout
      cases hout
    | closed => exact absurd hconn hs.not_closed
    | replied r =>
      rcases hs.replied hconn with ⟨e, rfl⟩ | ⟨state, rfl⟩ | rfl
      · simp only [step, hconn]
        rfl
      · simp only [step, hconn]
        rfl
      · simp only [step, hconn]
        rfl

/-- In every run in which the id of each published poll is above those the client has been sent,
no published poll is missed. -/
theorem run_served [F64 F] (json : SerdeJson F) (d : Daemon F) (since : PollId) (configGen : Nat)
    (inputs : List (UpdateInput F))
    (hmeets : StepsMeet (step json) IdsAhead (start d since configGen) inputs) :
    Served json (inputs.foldl (step json) (start d since configGen)) := by
  have hinv := hmeets.invariant (inv_start d since configGen) inv_step
  exact hinv.served json

/-- A completed poll of an account, `random` above the start of millisecond `ms`. -/
def manualPoll (account : String) (ms random : Nat) : PollEvent ℚ where
  id := Fin.ofNat (2 ^ 128) (ms * 2 ^ 80 + random)
  ts := millisToTs ms
  provider := "claude"
  account := ⟨account⟩
  trigger := .manual .tui
  outcome := .success []
  latencyMs := 0

theorem run_served_two_polls :
    Served (.table [] [])
      ([.serve, .publish Storage.noFaults (manualPoll "claude:a" 1 5), .serve, .deliver,
        .publish Storage.noFaults (manualPoll "claude:b" 2 4)].foldl (step (.table [] []))
          (start Daemon.idle 0 0)) := by
  apply run_served
  refine ⟨trivial, ?_, trivial, trivial, ?_, trivial⟩
  · change sent _ < _
    decide
  · change sent _ < _
    decide

/-- Two polls complete in the same millisecond, the second with the smaller id: the client holds
the first one's id, and the request that the second wakes ends in `NoUpdate`. -/
theorem same_millisecond_poll_missed :
    (manualPoll "claude:a" 1 5).id.val / 2 ^ 80 = 1 ∧
      (manualPoll "claude:b" 1 4).id.val / 2 ^ 80 = 1 ∧
      ¬ Served (.table [] [])
        ([.serve, .publish Storage.noFaults (manualPoll "claude:a" 1 5), .serve, .deliver, .serve,
          .publish Storage.noFaults (manualPoll "claude:b" 1 4), .serve, .timeout].foldl
            (step (.table [] [])) (start Daemon.idle 0 0)) := by
  refine ⟨by decide, by decide, ?_⟩
  intro h
  have hmem : (Response.noUpdate, [manualPoll "claude:b" 1 4]) ∈
      ([.serve, .publish Storage.noFaults (manualPoll "claude:a" 1 5), .serve, .deliver, .serve,
        .publish Storage.noFaults (manualPoll "claude:b" 1 4), .serve, .timeout].foldl
          (step (.table [] [])) (start Daemon.idle 0 0)).answers := by decide
  rcases h.answers hmem with hnil | ⟨e, -, hupdate⟩
  · cases hnil
  · cases hupdate

end UpdateSystem
end Teiryo
