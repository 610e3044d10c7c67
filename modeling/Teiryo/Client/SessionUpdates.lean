import Teiryo.Client.SessionRuns

/-!
# The update loop in the event loop

`UpdateSystem` follows one long-poll task together with the daemon that answers it; a session has
the task among all else the TUI does. Whatever the first does, the second does as well on the
TUI's side: it sends the same events on, asks again with the same arguments and stops the same
spinners.
-/

namespace Teiryo

variable {F : Type}

/-- Whether the user does this, and not the daemon, the task or the event loop. -/
def UpdateInput.byUser : UpdateInput F → Bool
  | .mark _ => true
  | .refused _ _ _ => true
  | _ => false

namespace App

private theorem setStatuses_polling (app : App F) (statuses : List (AccountStatus F ℚ)) :
    (app.setStatuses statuses).polling = app.polling := by
  unfold setStatuses
  dsimp only
  split
  · split
    · rfl
    · rfl
  · rfl

private theorem resnapInspect_polling (app : App F) : app.resnapInspect.polling = app.polling := by
  unfold resnapInspect
  split
  · rfl
  · rfl

end App

namespace Session

section Polling

variable {S : Type} {value : S → ℚ} {debug : Response F S → String}

private theorem fetch_polling {r : Request} {install : Response F S → App F → Option (App F)}
    (h : ∀ response app app', install response app = some app' → app'.polling = app.polling)
    (x : Exchange F S) :
    (fetch debug r install x).2.1.app.polling = x.1.app.polling := by
  unfold fetch
  rcases request_cases r x with ⟨response, replies, heq⟩ | ⟨e, replies, heq⟩
  · simp only [heq]
    cases happ : install response x.1.app with
    | some app => exact h _ _ _ happ
    | none => cases response <;> rfl
  · simp only [heq]
    rfl

private theorem fetchHistory_polling {r : Request} {set : HistoryPage F → App F → App F}
    (h : ∀ page app, (set page app).polling = app.polling) (x : Exchange F S) :
    (fetch debug r (installHistory set) x).2.1.app.polling = x.1.app.polling := by
  apply fetch_polling
  intro response app app' happ
  cases response with
  | history page =>
    cases happ
    exact h page app
  | _ => cases happ

private theorem refreshStatus_polling (x : Exchange F S) :
    (refreshStatus value debug x).1.app.polling = x.1.app.polling := by
  have hstatus : (fetch debug (.status none none) (installStatuses value) x).2.1.app.polling =
      x.1.app.polling := by
    apply fetch_polling
    intro response app app' happ
    cases response with
    | status statuses =>
      cases happ
      exact app.setStatuses_polling _
    | _ => cases happ
  unfold refreshStatus
  dsimp only
  split
  · refine (fetch_polling ?_ _).trans hstatus
    intro response app app' happ
    cases response with
    | providers health =>
      cases happ
      rfl
    | _ => cases happ
  · exact hstatus

private theorem refreshAccounts_polling (since : DateTime) (accounts : List AccountId)
    (x : Exchange F S) :
    (refreshAccounts debug since accounts x).1.app.polling = x.1.app.polling := by
  induction accounts generalizing x with
  | nil => rfl
  | cons account accounts ih =>
    unfold refreshAccounts
    dsimp only
    split
    · refine (ih _).trans (fetchHistory_polling ?_ x)
      exact fun page app => rfl
    · refine fetchHistory_polling ?_ x
      exact fun page app => rfl

private theorem reloadExtras_polling (now : DateTime) (extras : List ExtraQuery)
    (x : Exchange F S) : (reloadExtras debug now extras x).1.app.polling = x.1.app.polling := by
  induction extras generalizing x with
  | nil => rfl
  | cons extra extras ih =>
    unfold reloadExtras
    dsimp only
    split
    · refine (ih _).trans (fetchHistory_polling ?_ x)
      exact fun page app => App.resnapInspect_polling _
    · refine fetchHistory_polling ?_ x
      exact fun page app => App.resnapInspect_polling _

private theorem reloadDetail_polling (env : SessionEnv F S) (x : Exchange F S) :
    (reloadDetail debug env x).1.app.polling = x.1.app.polling := by
  unfold reloadDetail
  split
  · rfl
  · dsimp only
    split
    · refine (reloadExtras_polling _ _ _).trans (fetchHistory_polling ?_ x)
      exact fun page app => App.resnapInspect_polling _
    · refine fetchHistory_polling ?_ x
      exact fun page app => App.resnapInspect_polling _
  · apply fetch_polling
    intro response app app' happ
    cases response with
    | recentPolls events =>
      cases happ
      rfl
    | _ => cases happ
  · apply fetch_polling
    intro response app app' happ
    cases response with
    | providers health =>
      cases happ
      rfl
    | _ => cases happ

private theorem loadConfig_polling (x : Exchange F S) :
    (loadConfig debug x).1.app.polling = x.1.app.polling := by
  apply fetch_polling
  intro response app app' happ
  cases response with
  | config state =>
    cases happ
    rfl
  | _ => cases happ

private theorem refreshRows_polling (env : SessionEnv F S) (x : Exchange F S) :
    (refreshRecent debug env (refreshStatus value debug x)).1.app.polling = x.1.app.polling :=
  (refreshAccounts_polling _ _ _).trans (refreshStatus_polling x)

end Polling

/-- The session has the update system's loop as one of its long-poll tasks, with what it sent on
in the queue, and shows its spinners. -/
structure Follows (s : UpdateSystem F) (i : Nat) (x : Session F) : Prop where
  running : x.quit = false
  loop : ∃ l, x.loops[i]? = some l ∧ l.since = s.since ∧ l.configGen = s.configGen ∧
    (s.conn ≠ .closed → l.running = true)
  news : ∀ event ∈ s.net, event.isNews = true
  net : ∃ rest, x.net = s.net ++ rest ∧ (s.conn ≠ .closed → rest = [])
  polling : x.app.polling = s.polling

variable {value : ℚ → ℚ} {debug : Response F ℚ → String}
  {cellMillis : (column width : Nat) → (secs : F) → Int} {clientCommit : String}
  {s s' : UpdateSystem F} {i : Nat} {x : Session F}

/-- The daemon's side of the system is none of the session's. -/
theorem Follows.daemon (h : Follows s i x) (hsince : s'.since = s.since)
    (hgen : s'.configGen = s.configGen) (hconn : s'.conn ≠ .closed → s.conn ≠ .closed)
    (hnet : s'.net = s.net) (hpolling : s'.polling = s.polling) : Follows s' i x := by
  obtain ⟨l, hl, hls, hlg, hrunning⟩ := h.loop
  obtain ⟨rest, hrest, hnone⟩ := h.net
  refine ⟨h.running, ⟨l, hl, ?_, ?_, fun hc => hrunning (hconn hc)⟩, ?_,
    ⟨rest, ?_, fun hc => hnone (hconn hc)⟩, ?_⟩
  · rw [hsince, hls]
  · rw [hgen, hlg]
  · rw [hnet]
    exact h.news
  · rw [hnet, hrest]
  · rw [hpolling, h.polling]

private theorem follows_deliver [F64 F] (json : SerdeJson F) (h : Follows s i x) {r : Response F ℚ}
    (hconn : s.conn = .replied r) :
    Follows (s.step json .deliver) i
      (x.step value debug cellMillis clientCommit (.polled i (.ok r))) := by
  have hopen : s.conn ≠ .closed := by
    simp [hconn]
  obtain ⟨l, hl, hsince, hgen, hrunning⟩ := h.loop
  have hlive := hrunning hopen
  have hset : ∀ l' : UpdateLoop, (x.loops.set i l')[i]? = some l' :=
    fun l' => List.getElem?_set_self (List.getElem?_eq_some_iff.mp hl).1
  have hnet : x.net = s.net := by
    obtain ⟨rest, hrest, hnone⟩ := h.net
    rw [hrest, hnone hopen, List.append_nil]
  have hstep : x.step value debug cellMillis clientCommit (.polled i (.ok r)) =
      polled debug i l (.ok r) x := by
    simp only [step, hl, hlive, if_true]
  have hnews : ∀ event : NetEvent F, event.isNews = true →
      ∀ e ∈ s.net ++ [event], e.isNews = true := by
    intro event hevent e he
    rcases List.mem_append.mp he with he | he
    · exact h.news e he
    · obtain rfl := List.mem_singleton.mp he
      exact hevent
  rw [hstep]
  cases r with
  | update event =>
    simp only [UpdateSystem.step, hconn, polled]
    refine ⟨h.running, ⟨_, hset _, ?_, hgen, fun _ => hlive⟩, hnews _ rfl, ⟨[], ?_, fun _ => rfl⟩,
      h.polling⟩
    · rw [hsince]
    · rw [hnet, List.append_nil]
  | config state =>
    simp only [UpdateSystem.step, hconn, polled]
    refine ⟨h.running, ⟨_, hset _, hsince, ?_, fun _ => hlive⟩, hnews _ rfl, ⟨[], ?_, fun _ => rfl⟩,
      h.polling⟩
    · rw [hgen]
    · rw [hnet, List.append_nil]
  | noUpdate =>
    simp only [UpdateSystem.step, hconn, polled]
    exact h.daemon rfl rfl (fun _ => hopen) rfl rfl
  | _ =>
    simp only [UpdateSystem.step, hconn, polled]
    refine ⟨h.running, ⟨_, hset _, hsince, hgen, fun hc => absurd rfl hc⟩, h.news,
      ⟨[_], congrArg (· ++ _) hnet, fun hc => absurd rfl hc⟩, h.polling⟩

private theorem follows_handle [F64 F] (json : SerdeJson F) (h : Follows s i x) {event : NetEvent F}
    {net : List (NetEvent F)} (hnet : s.net = event :: net) (env : SessionEnv F ℚ) :
    Follows (s.step json .handle) i (x.step value debug cellMillis clientCommit (.net env)) := by
  obtain ⟨rest, hrest, hnone⟩ := h.net
  have hqueue : x.net = event :: (net ++ rest) := by rw [hrest, hnet, List.cons_append]
  have hstep : x.step value debug cellMillis clientCommit (.net env) =
      handleNet value debug clientCommit env event { x with net := net ++ rest } := by
    simp [step, drive, h.running, hqueue]
  have hevent : event.isNews = true := h.news event (hnet ▸ List.mem_cons_self)
  have hnews : ∀ e ∈ net, e.isNews = true :=
    fun e he => h.news e (hnet ▸ List.mem_cons_of_mem _ he)
  rw [hstep]
  cases event with
  | update event =>
    obtain ⟨hserves, -⟩ := @refreshPanes_serves _ _ cellMillis value debug env
      ({ x with
        net := net ++ rest, lastUpdate := some event.ts, disconnected := false
        app := x.app.pollSettled event.account }, env.replies)
    simp only [UpdateSystem.step, hnet, handleNet]
    refine ⟨hserves.quit.trans h.running, ?_, hnews, ⟨rest, hserves.net, hnone⟩, ?_⟩
    · rw [hserves.loops]
      exact h.loop
    · refine ((reloadDetail_polling env _).trans (refreshRows_polling env _)).trans ?_
      exact congrArg (Finset.erase · event.account) h.polling
  | config state =>
    obtain ⟨hserves, -⟩ := @refreshRows_serves _ _ cellMillis value debug env
      ({ x with
        net := net ++ rest, disconnected := false
        app := { x.app with config := some state } }, env.replies)
    simp only [UpdateSystem.step, hnet, handleNet]
    refine ⟨hserves.quit.trans h.running, ?_, hnews, ⟨rest, hserves.net, hnone⟩, ?_⟩
    · rw [hserves.loops]
      exact h.loop
    · exact (refreshRows_polling env _).trans h.polling
  | _ => cases hevent

private theorem follows_serve [F64 F] (json : SerdeJson F) (h : Follows s i x) :
    Follows (s.step json .serve) i x := by
  have hcheck : ∀ since gen, s.conn ≠ .closed → Follows (s.check since gen) i x := by
    intro since gen hopen
    unfold UpdateSystem.check
    split
    · exact h.daemon rfl rfl (fun _ => hopen) rfl rfl
    · exact h.daemon rfl rfl (fun _ => hopen) rfl rfl
  cases hconn : s.conn with
  | requested since gen =>
    simp only [UpdateSystem.step, hconn]
    exact hcheck since gen (by simp [hconn])
  | suspended a =>
    simp only [UpdateSystem.step, hconn]
    split
    · exact hcheck _ _ (by simp [hconn])
    · exact h
  | _ =>
    simp only [UpdateSystem.step, hconn]
    exact h

private theorem follows_timeout [F64 F] (json : SerdeJson F) (h : Follows s i x) :
    Follows (s.step json .timeout) i x := by
  cases hconn : s.conn with
  | suspended a =>
    simp only [UpdateSystem.step, hconn]
    split
    · exact h
    · exact h.daemon rfl rfl (fun _ => by simp [hconn]) rfl rfl
  | _ =>
    simp only [UpdateSystem.step, hconn]
    exact h

/-- What the system does in a step, a session does in at most one. -/
theorem follows_step [F64 F] (json : SerdeJson F) (env : SessionEnv F ℚ) (h : Follows s i x)
    {input : UpdateInput F} (hinput : input.byUser = false) :
    ∃ inputs : List (SessionInput F ℚ), inputs.length ≤ 1 ∧
      Follows (s.step json input) i (x.run value debug cellMillis clientCommit inputs) := by
  cases input with
  | publish faults event => exact ⟨[], by simp, h.daemon rfl rfl id rfl rfl⟩
  | install loaded error now => exact ⟨[], by simp, h.daemon rfl rfl id rfl rfl⟩
  | serve => exact ⟨[], by simp, follows_serve json h⟩
  | timeout => exact ⟨[], by simp, follows_timeout json h⟩
  | deliver =>
    cases hconn : s.conn with
    | replied r =>
      exact ⟨[.polled i (.ok r)], by simp,
        @follows_deliver _ value debug cellMillis clientCommit _ _ _ _ json h _ hconn⟩
    | _ =>
      refine ⟨[], by simp, ?_⟩
      simp only [UpdateSystem.step, hconn]
      exact h
  | handle =>
    cases hnet : s.net with
    | cons event net =>
      exact ⟨[.net env], by simp,
        @follows_handle _ value debug cellMillis clientCommit _ _ _ _ json h _ _ hnet env⟩
    | nil =>
      refine ⟨[], by simp, ?_⟩
      simp only [UpdateSystem.step, hnet]
      exact h
  | mark account => cases hinput
  | refused provider account shown => cases hinput

private theorem follows_boot (d : Daemon F) {target : Target} {daemonCommit commit : String}
    {env : SessionEnv F ℚ} (hconnect : target.connect env.attempt = .ok commit) :
    ∃ since gen, Follows (UpdateSystem.start d since gen) 0
      (boot value debug clientCommit target daemonCommit env) := by
  let first : Session F :=
    { target, buildMismatch := Teiryo.buildMismatch clientCommit daemonCommit }
  obtain ⟨hserves, -⟩ := @refreshAll_serves _ _ (fun _ _ _ => 0) value debug env
    (first, env.replies)
  have hpolling : (refreshAll value debug env (first, env.replies)).1.app.polling = ∅ :=
    (loadConfig_polling _).trans
      ((reloadDetail_polling env _).trans (refreshRows_polling env (first, env.replies)))
  have hloops : (refreshAll value debug env (first, env.replies)).1.loops = [] := hserves.loops
  have hnet : (refreshAll value debug env (first, env.replies)).1.net = [] := hserves.net
  have hquit : (refreshAll value debug env (first, env.replies)).1.quit = false := hserves.quit
  have htarget : (refreshAll value debug env (first, env.replies)).1.target = target :=
    hserves.target
  unfold boot
  change ∃ since gen, Follows (UpdateSystem.start d since gen) 0
    { (startUpdateLoop env.attempt (refreshAll value debug env (first, env.replies)).1).1 with
      firstTask := (startUpdateLoop env.attempt
        (refreshAll value debug env (first, env.replies)).1).2 }
  generalize (refreshAll value debug env (first, env.replies)).1 = x at *
  have hstarted : startUpdateLoop env.attempt x =
      ({ x with loops := x.loops ++ [{
          since := newestPollId x.app.statuses
          configGen := (x.app.config.map (·.generation)).getD 0 }] }, some x.loops.length) := by
    rw [startUpdateLoop, htarget, hconnect]
  rw [hstarted]
  refine ⟨newestPollId x.app.statuses, (x.app.config.map (·.generation)).getD 0, hquit, ?_, ?_,
    ⟨[], ?_, fun _ => rfl⟩, hpolling⟩
  · exact ⟨_, by rw [hloops]; rfl, rfl, rfl, fun _ => rfl⟩
  · intro event hevent
    cases hevent
  · rw [hnet]
    rfl

end Session
end Teiryo
