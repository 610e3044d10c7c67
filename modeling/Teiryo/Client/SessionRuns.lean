import Teiryo.Client.Session
import Teiryo.Framework.Run

/-!
# What the event loop keeps

Whatever the user does, whatever its requests come to and however the tasks beside it interleave:
all the loop does to the dashboard are the inputs a dashboard takes, a lost connection does not go
unnoticed, reconnects back off one at a time, and nothing outlives the loop.
-/

namespace Teiryo

variable {F S : Type}

/-- An event only a long-poll task sends while it runs. -/
def NetEvent.isNews : NetEvent F → Bool
  | .update _ => true
  | .config _ => true
  | _ => false

/-- How a reconnect task reports that it is over. -/
def NetEvent.isFinal : NetEvent F → Bool
  | .reconnected _ => true
  | .incompatible _ => true
  | _ => false

def NetEvent.isFailure : NetEvent F → Bool
  | .reconnectFailed _ => true
  | _ => false

/-! ## What is asked for -/

/-- The requests of an action are for polls. -/
def Action.Polls : Action → Prop
  | .send requests => ∀ r ∈ requests, ∃ provider account, r = .pollNow provider account
  | _ => True

namespace App

variable (app : App F)

private theorem panTrend_polls (secs : Int) : (app.panTrend secs).2.Polls := by
  unfold panTrend
  dsimp only
  split
  · trivial
  · trivial

private theorem focusPane_polls (pane : Pane) : (app.focusPane pane).2.Polls := by
  unfold focusPane
  split
  · trivial
  · trivial

private theorem resetDetailScroll_polls : app.resetDetailScroll.2.Polls := by
  unfold resetDetailScroll
  split
  · trivial
  · trivial

private theorem toggleInspect_polls : app.toggleInspect.2.Polls := by
  unfold toggleInspect
  split
  · trivial
  · split
    · trivial
    · trivial

private theorem stepInspect_polls (delta : Int) : (app.stepInspect delta).2.Polls := by
  unfold stepInspect
  split
  · dsimp only
    split
    · trivial
    · trivial
  · exact app.toggleInspect_polls

private theorem scrollDetail_polls (delta : Int) : (app.scrollDetail delta).2.Polls := by
  unfold scrollDetail
  split
  · exact app.panTrend_polls _
  · trivial
  · trivial

private theorem moveOrScroll_polls (delta : Int) : (app.moveOrScroll delta).2.Polls := by
  unfold moveOrScroll
  split
  · exact app.scrollDetail_polls delta
  · trivial

private theorem moveToStart_polls : app.moveToStart.2.Polls := by
  unfold moveToStart
  split
  · exact resetDetailScroll_polls _
  · trivial

private theorem moveToEnd_polls : app.moveToEnd.2.Polls := by
  unfold moveToEnd
  split
  · split
    · exact app.resetDetailScroll_polls
    · trivial
    · trivial
  · split
    · trivial
    · trivial

private theorem toggleDetailPane_polls : app.toggleDetailPane.2.Polls := by
  unfold toggleDetailPane
  split
  · trivial
  · trivial

private theorem pollSelected_polls : app.pollSelected.2.Polls := by
  unfold pollSelected
  split
  · rename_i status _
    intro r hr
    exact ⟨_, _, List.mem_singleton.mp hr⟩
  · trivial

private theorem pollAll_polls : app.pollAll.2.Polls := by
  intro r hr
  obtain ⟨provider, -, rfl⟩ := List.mem_map.mp hr
  exact ⟨provider, none, rfl⟩

private theorem enter_polls : app.enter.2.Polls := by
  unfold enter
  split
  · split
    · exact app.toggleInspect_polls
    · trivial
    · trivial
  · exact app.pollSelected_polls

private theorem handleDashboardKey_polls (key : KeyEvent) :
    (app.handleDashboardKey key).2.Polls := by
  unfold handleDashboardKey
  split
  all_goals first
    | trivial
    | exact moveOrScroll_polls _ _
    | exact focusPane_polls _ _
    | exact app.moveToStart_polls
    | exact app.moveToEnd_polls
    | exact app.toggleDetailPane_polls
    | exact app.enter_polls
    | exact app.pollSelected_polls
    | exact app.pollAll_polls
    | skip
  · split
    · exact app.stepInspect_polls _
    · trivial
  · split
    · exact app.stepInspect_polls _
    · trivial

private theorem editSettings_polls (delta : Int) : (app.editSettings delta).Polls := by
  unfold editSettings
  split
  · trivial
  · split
    · trivial
    · trivial
  · split
    · trivial
    · trivial
  · trivial

private theorem clearSetting_polls : app.clearSetting.Polls := by
  unfold clearSetting
  split
  · trivial
  · split
    · trivial
    · trivial
  · trivial

private theorem handleSettingsKey_polls (key : KeyEvent) : (app.handleSettingsKey key).2.Polls := by
  unfold handleSettingsKey
  split
  all_goals first
    | trivial
    | exact app.editSettings_polls _
    | exact app.clearSetting_polls
    | skip
  all_goals split
  all_goals first
    | trivial
    | exact app.editSettings_polls _

private theorem handleKey_polls (key : KeyEvent) : (app.handleKey key).2.Polls := by
  unfold handleKey
  split
  · trivial
  split
  · trivial
  split
  · split
    · trivial
    · trivial
  · trivial
  · exact app.handleSettingsKey_polls key
  · exact app.handleDashboardKey_polls key

private theorem click_polls (cellMillis : (column width : Nat) → (secs : F) → Int)
    (pos : Position) : (app.click cellMillis pos).2.Polls := by
  unfold click
  split
  · trivial
  split
  · dsimp only
    split
    · split
      · trivial
      · split
        · trivial
        · trivial
    · unfold clickActivity
      split
      · dsimp only
        split
        · trivial
        · split
          · trivial
          · trivial
      · trivial
    · trivial
  · trivial

private theorem wheel_polls (pos : Position) (rows columns : Int) :
    (app.wheel pos rows columns).2.Polls := by
  unfold wheel
  split
  · unfold wheelDetail
    split
    · exact panTrend_polls _ _
    · split
      · trivial
      · trivial
    · trivial
  · split
    · dsimp only
      split
      · trivial
      · trivial
    · trivial

private theorem handleMouse_polls (cellMillis : (column width : Nat) → (secs : F) → Int)
    (mouse : MouseEvent) : (app.handleMouse cellMillis mouse).2.Polls := by
  unfold handleMouse
  split
  · trivial
  · dsimp only
    split
    · exact app.click_polls cellMillis _
    · trivial
    · split
      · trivial
      · exact app.wheel_polls _ _ _

end App

/-- All that a query of the detail pane asks for. -/
def DetailQuery.requests : DetailQuery → List Request
  | .trend _ _ _ _ _ request extras => request :: extras.map ExtraQuery.request
  | .activity request => [request]
  | .health request => [request]

private theorem App.detailQuery_requests {app : App F} {now : DateTime} {query : DetailQuery}
    (h : app.detailQuery now = some query) : ∀ r ∈ query.requests, r ≠ .shutdown := by
  unfold detailQuery at h
  split at h
  · obtain ⟨target, -, rfl⟩ := Option.map_eq_some_iff.mp h
    intro r hr
    rcases List.mem_cons.mp hr with rfl | hr
    · exact Request.noConfusion
    · obtain ⟨extra, hextra, rfl⟩ := List.mem_map.mp hr
      obtain ⟨purpose, -, hquery⟩ := List.mem_filterMap.mp hextra
      obtain ⟨target, -, rfl⟩ := Option.map_eq_some_iff.mp hquery
      exact Request.noConfusion
  · cases h
    exact List.forall_mem_singleton.mpr Request.noConfusion
  · cases h
    exact List.forall_mem_singleton.mpr Request.noConfusion

namespace Session

/-- A failed request has been noticed. -/
def Sound (s : Session F) : Prop := s.lost = true → s.disconnected = true

/-! ## What a handler does -/

section Serves

variable (cellMillis : (column width : Nat) → (secs : F) → Int)

/-- A dashboard that has taken some inputs. -/
def Reaches (app app' : App F) : Prop :=
  ∃ inputs : List (AppInput F), app' = inputs.foldl (App.step cellMillis) app

/-- Requests were made, and their replies shown. -/
structure Serves (s s' : Session F) : Prop where
  app : Reaches cellMillis s.app s'.app
  asked : ∃ requests, s'.asked = s.asked ++ requests ∧ Request.shutdown ∉ requests
  disconnected : s.disconnected = true → s'.disconnected = true
  sound : s.Sound → s'.Sound
  target : s'.target = s.target
  incompatible : s'.incompatible = s.incompatible
  net : s'.net = s.net
  loops : s'.loops = s.loops
  firstTask : s'.firstTask = s.firstTask
  updateTask : s'.updateTask = s.updateTask
  reconnects : s'.reconnects = s.reconnects
  reconnectTask : s'.reconnectTask = s.reconnectTask
  quit : s'.quit = s.quit

variable {cellMillis} {s s' s'' : Session F} {app app' app'' : App F}

theorem Reaches.refl (app : App F) : Reaches cellMillis app app := ⟨[], rfl⟩

theorem Reaches.trans (h : Reaches cellMillis app app') (h' : Reaches cellMillis app' app'') :
    Reaches cellMillis app app'' := by
  obtain ⟨inputs, rfl⟩ := h
  obtain ⟨inputs', rfl⟩ := h'
  exact ⟨inputs ++ inputs', List.foldl_append.symm⟩

private theorem reaches_step (app : App F) (input : AppInput F) :
    Reaches cellMillis app (app.step cellMillis input) := ⟨[input], rfl⟩

private theorem serves_show {error : Option String} {lastUpdate : Option DateTime}
    {buildMismatch : Option String} (happ : Reaches cellMillis s.app app') :
    Serves cellMillis s { s with app := app', error, lastUpdate, buildMismatch } :=
  ⟨happ, ⟨[], (List.append_nil _).symm, List.not_mem_nil⟩, id, id, rfl, rfl, rfl, rfl, rfl, rfl,
    rfl, rfl, rfl⟩

theorem Serves.refl (s : Session F) : Serves cellMillis s s := serves_show (.refl s.app)

theorem Serves.trans (h : Serves cellMillis s s') (h' : Serves cellMillis s' s'') :
    Serves cellMillis s s'' := by
  obtain ⟨requests, hasked, hrequests⟩ := h.asked
  obtain ⟨requests', hasked', hrequests'⟩ := h'.asked
  refine ⟨h.app.trans h'.app, ⟨requests ++ requests', ?_, ?_⟩,
    fun hd => h'.disconnected (h.disconnected hd), fun hs => h'.sound (h.sound hs),
    h'.target.trans h.target, h'.incompatible.trans h.incompatible, h'.net.trans h.net,
    h'.loops.trans h.loops, h'.firstTask.trans h.firstTask, h'.updateTask.trans h.updateTask,
    h'.reconnects.trans h.reconnects, h'.reconnectTask.trans h.reconnectTask,
    h'.quit.trans h.quit⟩
  · rw [hasked', hasked, List.append_assoc]
  · rw [List.mem_append, not_or]
    exact ⟨hrequests, hrequests'⟩

private theorem serves_asked {r : Request} (hr : r ≠ .shutdown) {lost disconnected : Bool}
    {error : Option String} (happ : Reaches cellMillis s.app app')
    (hdisconnected : s.disconnected = true → disconnected = true)
    (hsound : lost = true → disconnected = true) :
    Serves cellMillis s
      { s with app := app', asked := s.asked ++ [r], lost, disconnected, error } :=
  ⟨happ, ⟨[r], rfl, fun h => hr (List.mem_singleton.mp h).symm⟩, hdisconnected, fun _ => hsound,
    rfl, rfl, rfl, rfl, rfl, rfl, rfl, rfl, rfl⟩

end Serves

section Handlers

variable {cellMillis : (column width : Nat) → (secs : F) → Int} {value : S → ℚ}
  {debug : Response F S → String}

/-- What a request comes to. -/
theorem request_cases (r : Request) (x : Exchange F S) :
    (∃ response replies, request r x =
        (.ok response, { x.1 with asked := x.1.asked ++ [r], lost := false }, replies)) ∨
      ∃ e replies, request r x =
        (.error e, { x.1 with asked := x.1.asked ++ [r], lost := true }, replies) := by
  obtain ⟨s, replies⟩ := x
  rcases replies with _ | ⟨response | e, replies⟩
  · exact .inr ⟨.closed, [], rfl⟩
  · exact .inr ⟨_, replies, rfl⟩
  · exact .inl ⟨_, replies, rfl⟩

private theorem installStatuses_reaches (response : Response F S) (app app' : App F)
    (h : installStatuses value response app = some app') : Reaches cellMillis app app' := by
  cases response with
  | status statuses =>
    cases h
    exact reaches_step app (.setStatuses _)
  | _ => cases h

private theorem installHealth_reaches (response : Response F S) (app app' : App F)
    (h : installHealth response app = some app') : Reaches cellMillis app app' := by
  cases response with
  | providers health =>
    cases h
    exact reaches_step app (.setHealth health)
  | _ => cases h

private theorem installActivity_reaches (response : Response F S) (app app' : App F)
    (h : installActivity response app = some app') : Reaches cellMillis app app' := by
  cases response with
  | recentPolls events =>
    cases h
    exact reaches_step app (.setActivity events)
  | _ => cases h

private theorem installConfig_reaches (response : Response F S) (app app' : App F)
    (h : installConfig response app = some app') : Reaches cellMillis app app' := by
  cases response with
  | config state =>
    cases h
    exact reaches_step app (.setConfig state)
  | _ => cases h

private theorem installHistory_reaches {set : HistoryPage F → App F → App F}
    (hset : ∀ page app, Reaches cellMillis app (set page app)) (response : Response F S)
    (app app' : App F) (h : installHistory set response app = some app') :
    Reaches cellMillis app app' := by
  cases response with
  | history page =>
    cases h
    exact hset page app
  | _ => cases h

private theorem fetch_serves {r : Request} (hr : r ≠ .shutdown)
    {install : Response F S → App F → Option (App F)}
    (hinstall : ∀ response app app', install response app = some app' →
      Reaches cellMillis app app') (x : Exchange F S) :
    Serves cellMillis x.1 (fetch debug r install x).2.1 ∧ (fetch debug r install x).2.1.Sound := by
  unfold fetch
  rcases request_cases r x with ⟨response, replies, heq⟩ | ⟨e, replies, heq⟩
  · simp only [heq]
    cases happ : install response x.1.app with
    | some app =>
      exact ⟨serves_asked hr (hinstall _ _ _ happ) id (fun h => by cases h), fun h => by cases h⟩
    | none =>
      have hnoted : ∀ error : Option String, Serves cellMillis x.1
          { x.1 with asked := x.1.asked ++ [r], lost := false, error } :=
        fun error => serves_asked hr (.refl _) id (fun h => by cases h)
      cases response <;> exact ⟨hnoted _, fun h => by cases h⟩
  · simp only [heq]
    exact ⟨serves_asked hr (.refl _) (fun _ => rfl) (fun _ => rfl), fun _ => rfl⟩

private theorem refreshStatus_serves (x : Exchange F S) :
    Serves cellMillis x.1 (refreshStatus value debug x).1 ∧
      (refreshStatus value debug x).1.Sound := by
  have hstatus := @fetch_serves _ _ cellMillis debug (.status none none) (by simp) _
    (@installStatuses_reaches _ _ cellMillis value) x
  unfold refreshStatus
  dsimp only
  split
  · have hproviders := @fetch_serves _ _ cellMillis debug .providers (by simp) _
      installHealth_reaches (fetch debug (.status none none) (installStatuses value) x).2
    exact ⟨hstatus.1.trans hproviders.1, hproviders.2⟩
  · exact hstatus

private theorem fetchHistory_serves {r : Request} (hr : r ≠ .shutdown)
    {set : HistoryPage F → App F → App F}
    (hset : ∀ page app, Reaches cellMillis app (set page app)) (x : Exchange F S) :
    Serves cellMillis x.1 (fetch debug r (installHistory set) x).2.1 :=
  (fetch_serves hr (installHistory_reaches hset) x).1

private theorem refreshAccounts_serves (since : DateTime) (accounts : List AccountId)
    (x : Exchange F S) : Serves cellMillis x.1 (refreshAccounts debug since accounts x).1 := by
  induction accounts generalizing x with
  | nil => exact .refl x.1
  | cons account accounts ih =>
    have hset : ∀ page app, Reaches cellMillis app
        (app.setRecent account (page : HistoryPage F).snapshots) :=
      fun page app => reaches_step app (.setRecent account page.snapshots)
    unfold refreshAccounts
    dsimp only
    split
    · exact (fetchHistory_serves (by simp) hset x).trans (ih _)
    · exact fetchHistory_serves (by simp) hset x

private theorem reloadExtras_serves (now : DateTime) {extras : List ExtraQuery}
    (hextras : ∀ extra ∈ extras, extra.request ≠ .shutdown) (x : Exchange F S) :
    Serves cellMillis x.1 (reloadExtras debug now extras x).1 := by
  induction extras generalizing x with
  | nil => exact .refl x.1
  | cons extra extras ih =>
    obtain ⟨hextra, hextras⟩ := List.forall_mem_cons.mp hextras
    have hset : ∀ (trend : HistoryPage F → Trend F) page app, Reaches cellMillis app
        (app.setExtra extra.purpose (trend page)) :=
      fun trend page app => reaches_step app (.setExtra extra.purpose (trend page))
    unfold reloadExtras
    dsimp only
    split
    · exact (fetchHistory_serves hextra (hset _) x).trans (ih hextras _)
    · exact fetchHistory_serves hextra (hset _) x

private theorem reloadDetail_serves (env : SessionEnv F S) (x : Exchange F S) :
    Serves cellMillis x.1 (reloadDetail debug env x).1 := by
  unfold reloadDetail
  split
  · exact serves_show (reaches_step x.1.app .dropTrend)
  · rename_i hquery
    obtain ⟨hrequest, hextras⟩ := List.forall_mem_cons.mp (App.detailQuery_requests hquery)
    have hset : ∀ (trend : HistoryPage F → Trend F) page app, Reaches cellMillis app
        (app.setTrend (trend page)) :=
      fun trend page app => reaches_step app (.setTrend (trend page))
    dsimp only
    split
    · refine (fetchHistory_serves hrequest (hset _) x).trans (reloadExtras_serves env.now ?_ _)
      exact fun extra hextra => hextras _ (List.mem_map_of_mem hextra)
    · exact fetchHistory_serves hrequest (hset _) x
  · rename_i hquery
    have hrequest := List.forall_mem_singleton.mp (App.detailQuery_requests hquery)
    exact (fetch_serves hrequest installActivity_reaches x).1
  · rename_i hquery
    have hrequest := List.forall_mem_singleton.mp (App.detailQuery_requests hquery)
    exact (fetch_serves hrequest installHealth_reaches x).1

private theorem loadConfig_serves (x : Exchange F S) :
    Serves cellMillis x.1 (loadConfig debug x).1 :=
  (fetch_serves (by simp) installConfig_reaches x).1

/-- After the rows are refreshed, a failure has been noticed, also one from before. -/
theorem refreshRows_serves (env : SessionEnv F S) (x : Exchange F S) :
    Serves cellMillis x.1 (refreshRecent debug env (refreshStatus value debug x)).1 ∧
      (refreshRecent debug env (refreshStatus value debug x)).1.Sound := by
  obtain ⟨hstatus, hsound⟩ := @refreshStatus_serves _ _ cellMillis value debug x
  have hrecent : Serves cellMillis (refreshStatus value debug x).1
      (refreshRecent debug env (refreshStatus value debug x)).1 := refreshAccounts_serves _ _ _
  exact ⟨hstatus.trans hrecent, hrecent.sound hsound⟩

theorem refreshPanes_serves (env : SessionEnv F S) (x : Exchange F S) :
    Serves cellMillis x.1
        (reloadDetail debug env (refreshRecent debug env (refreshStatus value debug x))).1 ∧
      (reloadDetail debug env (refreshRecent debug env (refreshStatus value debug x))).1.Sound := by
  obtain ⟨hrows, hsound⟩ := @refreshRows_serves _ _ cellMillis value debug env x
  have hdetail : Serves cellMillis (refreshRecent debug env (refreshStatus value debug x)).1
      (reloadDetail debug env (refreshRecent debug env (refreshStatus value debug x))).1 :=
    reloadDetail_serves env _
  exact ⟨hrows.trans hdetail, hdetail.sound hsound⟩

theorem refreshAll_serves (env : SessionEnv F S) (x : Exchange F S) :
    Serves cellMillis x.1 (refreshAll value debug env x).1 ∧
      (refreshAll value debug env x).1.Sound := by
  obtain ⟨hpanes, hsound⟩ := @refreshPanes_serves _ _ cellMillis value debug env x
  have hconfig : Serves cellMillis
      (reloadDetail debug env (refreshRecent debug env (refreshStatus value debug x))).1
      (refreshAll value debug env x).1 := loadConfig_serves _
  exact ⟨hpanes.trans hconfig, hconfig.sound hsound⟩

private theorem editConfig_serves (edit : ConfigEdit) (x : Exchange F S) :
    Serves cellMillis x.1 (editConfig value debug edit x).1 := by
  have hfetched := (@fetch_serves _ _ cellMillis debug (.setConfig edit) (by simp) installConfig
    installConfig_reaches x).1
  unfold editConfig
  dsimp only
  split
  · exact hfetched.trans (refreshStatus_serves _).1
  · exact hfetched

private theorem sendChecked_serves {r : Request} (hr : r ≠ .shutdown) (x : Exchange F S) :
    Serves cellMillis x.1 (sendChecked r x).1 := by
  unfold sendChecked
  rcases request_cases r x with ⟨response, replies, heq⟩ | ⟨e, replies, heq⟩
  · simp only [heq]
    have hanswered : Serves cellMillis x.1
        { x.1 with asked := x.1.asked ++ [r], lost := false } :=
      serves_asked hr (.refl _) id (fun h => by cases h)
    have hrefused : ∀ app : App F, Reaches cellMillis x.1.app app → ∀ error : Option String,
        Serves cellMillis x.1
          { x.1 with app, asked := x.1.asked ++ [r], lost := false, error } :=
      fun app happ error => serves_asked hr happ id (fun h => by cases h)
    cases response with
    | err kind message =>
      cases r with
      | pollNow provider account =>
        exact hrefused _ (reaches_step x.1.app (.pollRefused provider account)) _
      | _ => exact hrefused _ (.refl _) _
    | _ => exact hanswered
  · simp only [heq]
    exact serves_asked hr (.refl _) (fun _ => rfl) (fun _ => rfl)

private theorem sendAll_serves {requests : List Request} (h : ∀ r ∈ requests, r ≠ .shutdown)
    (x : Exchange F S) :
    Serves cellMillis x.1 (requests.foldl (fun x r => sendChecked r x) x).1 := by
  induction requests generalizing x with
  | nil => exact .refl x.1
  | cons r requests ih =>
    obtain ⟨hr, hrequests⟩ := List.forall_mem_cons.mp h
    exact (sendChecked_serves hr x).trans (ih hrequests _)

end Handlers

/-! ## What a step can do -/

section Goes

variable (cellMillis : (column width : Nat) → (secs : F) → Int)

inductive Goes (s : Session F) : Session F → Prop where
  /-- Something is shown, after requests or without. -/
  | serves {s' : Session F} (h : Serves cellMillis s s') : Goes s s'
  | quits {s' : Session F} (h : Serves cellMillis s s') (lost : Bool)
      {last : List Request} (hlast : last = [] ∨ last = [.shutdown]) :
    Goes s ({ s' with lost, asked := s'.asked ++ last }.close)
  | news {event : NetEvent F} {net : List (NetEvent F)} {s' : Session F}
      (hnet : s.net = event :: net) (hnews : event.isNews = true)
      (h : Serves cellMillis { s with net, disconnected := false } s') (hsound : s'.Sound) :
    Goes s s'
  | disconnects {message : String} {net : List (NetEvent F)}
      (hnet : s.net = .disconnected message :: net) :
    Goes s { s with net, disconnected := true, error := some message }
  | fails {message : String} {net : List (NetEvent F)}
      (hnet : s.net = .reconnectFailed message :: net) :
    Goes s { s with net, error := some message }
  | stops {message : String} {net : List (NetEvent F)}
      (hnet : s.net = .incompatible message :: net) :
    Goes s { s with net, disconnected := true, incompatible := some message }
  /-- Both connections are replaced. -/
  | restarts {commit : String} {net : List (NetEvent F)} {s' : Session F} {l : UpdateLoop}
      (hnet : s.net = .reconnected commit :: net)
      (h : Serves cellMillis { s with net, disconnected := false, lost := false } s')
      (hsound : s'.Sound) (hl : l.running = true) :
    Goes s { s' with
      loops := abort s'.loops s'.updateTask ++ [l], updateTask := some s'.loops.length }
  /-- The command connection is replaced, and the other is not. -/
  | severs {commit : String} {net : List (NetEvent F)} {s' : Session F} (message : String)
      (hnet : s.net = .reconnected commit :: net)
      (h : Serves cellMillis { s with net, disconnected := false, lost := false } s')
      (hsound : s'.Sound) :
    Goes s { s' with
      loops := abort s'.loops s'.updateTask, updateTask := none
      net := s'.net ++ [.disconnected message] }
  | spawns (hdisconnected : s.disconnected = true) (hincompatible : s.incompatible = none)
      (hidle : ∀ i ∈ s.reconnectTask, ∀ t ∈ s.reconnects[i]?, t.phase = .ended) :
    Goes s { s with
      reconnects := s.reconnects ++ [{}], reconnectTask := some s.reconnects.length }
  | forwards {i : Nat} {l l' : UpdateLoop} (hl : s.loops[i]? = some l)
      (hrunning : l.running = true) (hl' : l'.running = true)
      {event : NetEvent F} (hnews : event.isNews = true) :
    Goes s { s with loops := s.loops.set i l', net := s.net ++ [event] }
  | ends {i : Nat} {l : UpdateLoop} (hl : s.loops[i]? = some l) (message : String) :
    Goes s { s with
      loops := s.loops.set i { l with running := false }
      net := s.net ++ [.disconnected message] }
  | wakes {i : Nat} {t : Reconnect F} (ht : s.reconnects[i]? = some t)
      (hphase : t.phase = .sleeping) :
    Goes s { s with reconnects := s.reconnects.set i { t with phase := .connecting } }
  | attempts {i : Nat} {t : Reconnect F} (ht : s.reconnects[i]? = some t)
      (hphase : t.phase = .connecting) (attempt : Attempt) :
    Goes s (s.attempted i t attempt)

variable {cellMillis} {value : S → ℚ} {debug : Response F S → String} {clientCommit : String}
  {s : Session F}

private theorem goes_act {s' : Session F} (h : Serves cellMillis s s') (env : SessionEnv F S)
    {action : Action} (hpolls : action.Polls) :
    Goes cellMillis s (act value debug env action s') := by
  have hclose : ∀ (lost : Bool) (last : List Request), last = [] ∨ last = [.shutdown] →
      Goes cellMillis s ({ s' with lost, asked := s'.asked ++ last }.close) :=
    fun lost last hlast => .quits h lost hlast
  cases action with
  | none => exact .serves h
  | quit =>
    have hquit := hclose s'.lost [] (.inl rfl)
    rw [List.append_nil] at hquit
    exact hquit
  | send requests =>
    have hclear : Serves cellMillis s { s' with error := none } :=
      h.trans (serves_show (.refl s'.app))
    have hrequests : ∀ r ∈ requests, r ≠ .shutdown := by
      intro r hr
      obtain ⟨provider, account, rfl⟩ := hpolls r hr
      exact Request.noConfusion
    exact .serves (hclear.trans (sendAll_serves hrequests ({ s' with error := none }, env.replies)))
  | reloadDetail => exact .serves (h.trans (reloadDetail_serves env (s', env.replies)))
  | loadConfig => exact .serves (h.trans (loadConfig_serves (s', env.replies)))
  | editConfig edit =>
    have hclear : Serves cellMillis s { s' with error := none } :=
      h.trans (serves_show (.refl s'.app))
    exact .serves (hclear.trans (editConfig_serves edit ({ s' with error := none }, env.replies)))
  | shutdownDaemon =>
    unfold act
    rcases request_cases .shutdown (s', env.replies) with
      ⟨response, replies, heq⟩ | ⟨e, replies, heq⟩
    · rw [heq]
      exact hclose false [.shutdown] (.inr rfl)
    · rw [heq]
      exact hclose true [.shutdown] (.inr rfl)

private theorem startUpdateLoop_cases (attempt : Attempt) (s : Session F) :
    (∃ l : UpdateLoop, l.running = true ∧
      startUpdateLoop attempt s = ({ s with loops := s.loops ++ [l] }, some s.loops.length)) ∨
    ∃ message, startUpdateLoop attempt s =
      ({ s with net := s.net ++ [.disconnected message] }, none) := by
  unfold startUpdateLoop
  split
  · exact .inl ⟨_, rfl, rfl⟩
  · exact .inr ⟨_, rfl⟩

@[simp] theorem length_abort (loops : List UpdateLoop) (task : Option Nat) :
    (abort loops task).length = loops.length := by
  cases task with
  | none => rfl
  | some i => exact List.length_modify _ _ _

private theorem goes_reconnect {commit : String} {net : List (NetEvent F)}
    (hnet : s.net = .reconnected commit :: net) (env : SessionEnv F S) :
    Goes cellMillis s (reconnect value debug clientCommit env commit { s with net }) := by
  unfold reconnect
  dsimp only
  have hshown : Serves cellMillis { s with net, disconnected := false, lost := false }
      { s with
        net, disconnected := false, lost := false, error := none
        buildMismatch := Teiryo.buildMismatch clientCommit commit } := serves_show (.refl s.app)
  have hserved := @refreshAll_serves _ _ cellMillis value debug env
    ({ s with
      net, disconnected := false, lost := false, error := none
      buildMismatch := Teiryo.buildMismatch clientCommit commit }, env.replies)
  generalize (refreshAll value debug env _).1 = s' at hserved ⊢
  rcases startUpdateLoop_cases env.attempt { s' with loops := abort s'.loops s'.updateTask } with
    ⟨l, hl, heq⟩ | ⟨message, heq⟩
  · rw [heq]
    simp only [length_abort]
    exact .restarts hnet (hshown.trans hserved.1) hserved.2 hl
  · rw [heq]
    exact .severs message hnet (hshown.trans hserved.1) hserved.2

private theorem goes_net {event : NetEvent F} {net : List (NetEvent F)}
    (hnet : s.net = event :: net) (env : SessionEnv F S) :
    Goes cellMillis s (handleNet value debug clientCommit env event { s with net }) := by
  cases event with
  | update event =>
    have hshown : Serves cellMillis { s with net, disconnected := false }
        { s with
          net, lastUpdate := some event.ts, disconnected := false
          app := s.app.pollSettled event.account } :=
      serves_show (reaches_step s.app (.pollSettled event.account))
    obtain ⟨hserved, hsound⟩ := @refreshPanes_serves _ _ cellMillis value debug env
      ({ s with
        net, lastUpdate := some event.ts, disconnected := false
        app := s.app.pollSettled event.account }, env.replies)
    exact .news hnet rfl (hshown.trans hserved) hsound
  | config state =>
    have hshown : Serves cellMillis { s with net, disconnected := false }
        { s with net, disconnected := false, app := { s.app with config := some state } } :=
      serves_show (reaches_step s.app (.setConfig state))
    obtain ⟨hserved, hsound⟩ := @refreshRows_serves _ _ cellMillis value debug env
      ({ s with net, disconnected := false, app := { s.app with config := some state } },
        env.replies)
    exact .news hnet rfl (hshown.trans hserved) hsound
  | disconnected message => exact .disconnects hnet
  | reconnected commit => exact goes_reconnect hnet env
  | reconnectFailed message => exact .fails hnet
  | incompatible message => exact .stops hnet

private theorem goes_drive (s : Session F) (i : SessionInput F S) :
    Goes cellMillis s (s.drive value debug cellMillis clientCommit i) := by
  have hsame : Goes cellMillis s s := .serves (.refl s)
  cases i with
  | key key env =>
    exact goes_act (serves_show (reaches_step s.app (.key key))) env (s.app.handleKey_polls key)
  | mouse mouse env =>
    exact goes_act (serves_show (reaches_step s.app (.mouse mouse))) env
      (s.app.handleMouse_polls cellMillis mouse)
  | terminalClosed =>
    have hquit : Goes cellMillis s
        ({ s with lost := s.lost, asked := s.asked ++ [] }.close) :=
      .quits (.refl s) s.lost (.inl rfl)
    rw [List.append_nil] at hquit
    exact hquit
  | draw frame => exact .serves (serves_show (reaches_step s.app (.draw frame)))
  | net env =>
    dsimp only [drive]
    split
    · exact hsame
    · rename_i event net hnet
      exact goes_net hnet env
  | tick =>
    dsimp only [drive, tick]
    split
    · rename_i hneeded
      simp only [Bool.and_eq_true, Option.isNone_iff_eq_none, Option.all_eq_true,
        decide_eq_true_eq] at hneeded
      exact .spawns hneeded.1.1 hneeded.1.2 hneeded.2
    · exact hsame
  | _ => exact hsame

theorem goes_step (s : Session F) (i : SessionInput F S) :
    Goes cellMillis s (s.step value debug cellMillis clientCommit i) := by
  have hsame : Goes cellMillis s s := .serves (.refl s)
  unfold step
  split
  · split
    · rename_i l hl
      split
      · rename_i hrunning
        unfold polled
        split
        · refine .forwards hl hrunning ?_ ?_
          · exact hrunning
          · rfl
        · refine .forwards hl hrunning ?_ ?_
          · exact hrunning
          · rfl
        · exact hsame
        · exact .ends hl _
        · exact .ends hl _
      · exact hsame
    · exact hsame
  · split
    · rename_i t ht
      split
      · rename_i hphase
        exact .wakes ht hphase
      · exact hsame
    · exact hsame
  · split
    · rename_i t ht
      split
      · rename_i hphase
        exact .attempts ht hphase _
      · exact hsame
    · exact hsame
  · split
    · exact hsame
    · exact goes_drive s _

end Goes

/-! ## No connection is lost unnoticed -/

section Watched

/-- The loop will hear that it has no long-poll task left: one still runs, or the last thing any of
them sent says so, or it has been heard. -/
def Told (s : Session F) : Prop :=
  (∃ l ∈ s.loops, l.running = true) ∨
    (∃ before message after, s.net = before ++ .disconnected message :: after ∧
      ∀ event ∈ after, event.isNews = false) ∨
    s.disconnected = true ∧ ∀ event ∈ s.net, event.isNews = false

structure Watched (s : Session F) : Prop where
  sound : s.Sound
  told : s.Told

variable {s s' : Session F}

private theorem told_taken {event : NetEvent F} {net : List (NetEvent F)} (h : s.Told)
    (hnet : s.net = event :: net) (hloops : s'.loops = s.loops) (hnet' : s'.net = net)
    (hheard : ∀ message, event = .disconnected message → s'.disconnected = true)
    (hkept : s.disconnected = true → event.isNews = false → s'.disconnected = true) : s'.Told := by
  unfold Told
  rw [hloops, hnet']
  rcases h with hrunning | ⟨before, message, after, heq, hafter⟩ | ⟨hdisconnected, hquiet⟩
  · exact .inl hrunning
  · rw [hnet] at heq
    rcases before with _ | ⟨first, before⟩
    · obtain ⟨rfl, rfl⟩ := List.cons.inj heq
      exact .inr (.inr ⟨hheard message rfl, hafter⟩)
    · exact .inr (.inl ⟨before, message, after, (List.cons.inj heq).2, hafter⟩)
  · rw [hnet] at hquiet
    exact .inr (.inr ⟨hkept hdisconnected (hquiet event List.mem_cons_self),
      fun e he => hquiet e (List.mem_cons_of_mem _ he)⟩)

private theorem told_reported {event : NetEvent F} (h : s.Told) (hevent : event.isNews = false)
    (hloops : s'.loops = s.loops) (hnet : s'.net = s.net ++ [event])
    (hdisconnected : s'.disconnected = s.disconnected) : s'.Told := by
  have hquiet : ∀ {events : List (NetEvent F)}, (∀ e ∈ events, e.isNews = false) →
      ∀ e ∈ events ++ [event], e.isNews = false := by
    intro events hevents e he
    rcases List.mem_append.mp he with he | he
    · exact hevents e he
    · obtain rfl := List.mem_singleton.mp he
      exact hevent
  unfold Told
  rw [hloops, hnet, hdisconnected]
  rcases h with hrunning | ⟨before, message, after, heq, hafter⟩ | ⟨hdis, hnews⟩
  · exact .inl hrunning
  · refine .inr (.inl ⟨before, message, after ++ [event], ?_, hquiet hafter⟩)
    rw [heq, List.append_assoc, List.cons_append]
  · exact .inr (.inr ⟨hdis, hquiet hnews⟩)

private theorem report_isNews (target : Target) (result : Except ClientError String) :
    (report target result : NetEvent F × Bool).1.isNews = false := by
  unfold report
  split
  · rfl
  · split
    · rfl
    · rfl

variable {cellMillis : (column width : Nat) → (secs : F) → Int}

private theorem told_serves (h : s.Told) (hserves : Serves cellMillis s s') : s'.Told := by
  unfold Told
  rw [hserves.loops, hserves.net]
  exact h.imp_right (Or.imp_right fun h => ⟨hserves.disconnected h.1, h.2⟩)

private theorem watched_goes (h : s.quit = false → s.Watched) (hgoes : Goes cellMillis s s') :
    s'.quit = false → s'.Watched := by
  cases hgoes with
  | serves hserves =>
    rw [hserves.quit]
    exact fun hq => ⟨hserves.sound (h hq).sound, told_serves (h hq).told hserves⟩
  | quits hserves lost hlast => exact fun hq => absurd hq Bool.noConfusion
  | news hnet hnews hserves hsound =>
    rw [hserves.quit]
    intro hq
    refine ⟨hsound, told_taken (h hq).told hnet hserves.loops hserves.net ?_ ?_⟩
    · rintro message rfl
      cases hnews
    · exact fun _ hquiet => absurd (hnews.symm.trans hquiet) Bool.noConfusion
  | disconnects hnet =>
    exact fun hq => ⟨fun _ => rfl, told_taken (h hq).told hnet rfl rfl (fun _ _ => rfl)
      fun _ _ => rfl⟩
  | fails hnet =>
    exact fun hq => ⟨(h hq).sound, told_taken (h hq).told hnet rfl rfl
      (fun _ heq => by cases heq) fun hd _ => hd⟩
  | stops hnet =>
    exact fun hq => ⟨fun _ => rfl, told_taken (h hq).told hnet rfl rfl (fun _ _ => rfl)
      fun _ _ => rfl⟩
  | restarts hnet hserves hsound hl =>
    exact fun _ => ⟨hsound, .inl ⟨_, List.mem_append_right _ (List.mem_singleton_self _), hl⟩⟩
  | severs message hnet hserves hsound =>
    refine fun _ => ⟨hsound, .inr (.inl ⟨_, message, [], rfl, ?_⟩)⟩
    intro e he
    cases he
  | spawns hdisconnected hincompatible hidle => exact fun hq => ⟨(h hq).sound, (h hq).told⟩
  | @forwards i l l' hl hrunning hl' event hnews =>
    refine fun hq => ⟨(h hq).sound, .inl ⟨l', ?_, hl'⟩⟩
    exact List.mem_set (List.getElem?_eq_some_iff.mp hl).1 _
  | ends hl message =>
    refine fun hq => ⟨(h hq).sound, .inr (.inl ⟨s.net, message, [], rfl, ?_⟩)⟩
    intro e he
    cases he
  | wakes ht hphase => exact fun hq => ⟨(h hq).sound, (h hq).told⟩
  | attempts ht hphase attempt =>
    exact fun hq => ⟨(h hq).sound, told_reported (h hq).told (report_isNews _ _) rfl rfl rfl⟩

end Watched

/-! ## Reconnects -/

section Reconnects

def Reconnect.failures (t : Reconnect F) : List (NetEvent F) := t.reports.filter NetEvent.isFailure

/-- A task waits longer after each failure, up to thirty seconds, and reports every attempt; the
first that does not fail is its last. -/
structure Reconnect.BacksOff (t : Reconnect F) : Prop where
  waits : t.waits = (List.range (t.failures.length + 1)).map fun i =>
    Config.fromSecs (min (2 ^ i) 30)
  attempt : t.attempt.toNat = min t.failures.length (2 ^ 32 - 1)
  reports : t.reports = t.failures ∨ t.phase = .ended ∧
    ∃ verdict : NetEvent F, verdict.isFinal = true ∧ t.reports = t.failures ++ [verdict]

/-- At most one task goes on, and each backs off. -/
structure Reconnecting (s : Session F) : Prop where
  one : ∀ i t, s.reconnects[i]? = some t → t.phase ≠ .ended → s.reconnectTask = some i
  backsOff : ∀ t ∈ s.reconnects, t.BacksOff

private theorem backsOff_spawned : Reconnect.BacksOff ({} : Reconnect F) := by
  refine ⟨?_, rfl, .inl rfl⟩
  change [reconnectDelay 0] = [Config.fromSecs (min (2 ^ 0) 30)]
  rw [reconnectDelay_eq]
  rfl

theorem Reconnect.BacksOff.ended {t : Reconnect F} (h : t.BacksOff) :
    Reconnect.BacksOff { t with phase := .ended } :=
  ⟨h.waits, h.attempt, h.reports.imp_right fun h => ⟨rfl, h.2⟩⟩

private theorem Reconnect.BacksOff.all_failed {t : Reconnect F} (h : t.BacksOff)
    (hphase : t.phase ≠ .ended) : t.reports = t.failures :=
  h.reports.resolve_right fun h => hphase h.1

private theorem report_cases (target : Target) (result : Except ClientError String) :
    ((report target result : NetEvent F × Bool).2 = true ∧
        (report target result : NetEvent F × Bool).1.isFinal = true ∧
        (report target result : NetEvent F × Bool).1.isFailure = false) ∨
      (report target result : NetEvent F × Bool).2 = false ∧
        (report target result : NetEvent F × Bool).1.isFailure = true := by
  unfold report
  split
  · exact .inl ⟨rfl, rfl, rfl⟩
  · split
    · exact .inl ⟨rfl, rfl, rfl⟩
    · exact .inr ⟨rfl, rfl⟩

private theorem reconnectDelay_next {attempt : UInt32} {failed : Nat}
    (h : attempt.toNat = min failed (2 ^ 32 - 1)) :
    (Throttle.saturatingSucc attempt).toNat = min (failed + 1) (2 ^ 32 - 1) ∧
      reconnectDelay (Throttle.saturatingSucc attempt) =
        Config.fromSecs (min (2 ^ (failed + 1)) 30) := by
  have hnext : (Throttle.saturatingSucc attempt).toNat = min (failed + 1) (2 ^ 32 - 1) := by
    rw [Throttle.saturatingSucc_toNat, h]
    omega
  refine ⟨hnext, ?_⟩
  rw [reconnectDelay_eq, hnext]
  rcases Nat.le_total (failed + 1) (2 ^ 32 - 1) with hle | hle
  · rw [min_eq_left hle]
  · -- both are past the ceiling
    have hfar : ∀ n, 5 ≤ n → min (2 ^ n) 30 = 30 := by
      intro n hn
      have hpow : 2 ^ 5 ≤ 2 ^ n := Nat.pow_le_pow_right (by decide) hn
      omega
    rw [min_eq_right hle, hfar _ (by decide), hfar _ (le_trans (by decide) hle)]

variable {s s' : Session F}

private theorem backsOff_attempted {t : Reconnect F} (h : t.BacksOff)
    (hphase : t.phase = .connecting) (target : Target) (result : Except ClientError String) :
    Reconnect.BacksOff (
      if (report target result : NetEvent F × Bool).2 then
        { t with phase := .ended, reports := t.reports ++ [(report target result).1] }
      else {
        attempt := Throttle.saturatingSucc t.attempt, phase := .sleeping
        waits := t.waits ++ [reconnectDelay (Throttle.saturatingSucc t.attempt)]
        reports := t.reports ++ [(report target result).1] }) := by
  have hfailed := h.all_failed (by rw [hphase]; exact ReconnectPhase.noConfusion)
  have hfilter : ∀ event : NetEvent F, (t.reports ++ [event]).filter NetEvent.isFailure =
      t.failures ++ [event].filter NetEvent.isFailure := fun event => List.filter_append _ _
  rcases @report_cases F target result with ⟨hlast, hfinal, hnot⟩ | ⟨hmore, hfailure⟩
  · rw [if_pos hlast]
    generalize (report target result : NetEvent F × Bool).1 = verdict at hfinal hnot
    have hsame : Reconnect.failures { t with
        phase := .ended, reports := t.reports ++ [verdict] } = t.failures := by
      rw [Reconnect.failures, hfilter, List.filter_singleton, hnot]
      exact List.append_nil _
    refine ⟨?_, ?_, .inr ⟨rfl, verdict, hfinal, ?_⟩⟩
    · rw [hsame]
      exact h.waits
    · rw [hsame]
      exact h.attempt
    · rw [hsame, hfailed]
  · rw [if_neg (by rw [hmore]; exact Bool.noConfusion)]
    generalize (report target result : NetEvent F × Bool).1 = failure at hfailure
    have hgrown : Reconnect.failures {
        attempt := Throttle.saturatingSucc t.attempt, phase := .sleeping
        waits := t.waits ++ [reconnectDelay (Throttle.saturatingSucc t.attempt)]
        reports := t.reports ++ [failure] } = t.failures ++ [failure] := by
      rw [Reconnect.failures, hfilter, List.filter_singleton, hfailure]
      rfl
    obtain ⟨hattempt, hwait⟩ := reconnectDelay_next h.attempt
    refine ⟨?_, ?_, .inl ?_⟩
    · rw [hgrown, List.length_append, List.length_singleton, List.range_succ, List.map_append,
        ← h.waits, hwait]
      rfl
    · rw [hgrown, List.length_append, List.length_singleton, hattempt]
    · rw [hgrown, hfailed]

private theorem reconnecting_set (h : s.Reconnecting) {i : Nat} {t t' : Reconnect F}
    (ht : s.reconnects[i]? = some t) (hphase : t.phase ≠ .ended) (hbacksOff : t'.BacksOff)
    (hset : s'.reconnects = s.reconnects.set i t') (htask : s'.reconnectTask = s.reconnectTask) :
    s'.Reconnecting := by
  constructor
  · intro j u hu hlive
    rw [htask]
    rw [hset, List.getElem?_set] at hu
    split at hu
    · rename_i hij
      exact hij ▸ h.one i t ht hphase
    · exact h.one j u hu hlive
  · rw [hset]
    intro u hu
    rcases List.mem_or_eq_of_mem_set hu with hu | rfl
    · exact h.backsOff u hu
    · exact hbacksOff

theorem Reconnecting.congr (h : s.Reconnecting) (hreconnects : s'.reconnects = s.reconnects)
    (htask : s'.reconnectTask = s.reconnectTask) : s'.Reconnecting := by
  constructor
  · rw [hreconnects, htask]
    exact h.one
  · rw [hreconnects]
    exact h.backsOff

private theorem getElem?_abortReconnect {reconnects : List (Reconnect F)} {task : Option Nat}
    {i : Nat} {t : Reconnect F} (h : (abortReconnect reconnects task)[i]? = some t) :
    ∃ u, reconnects[i]? = some u ∧ (t = u ∨ t = { u with phase := .ended }) := by
  cases task with
  | none => exact ⟨t, h, .inl rfl⟩
  | some j =>
    rw [abortReconnect, List.getElem?_modify] at h
    obtain ⟨u, hu, heq⟩ := Option.map_eq_some_iff.mp h
    refine ⟨u, hu, ?_⟩
    split at heq
    · exact .inr heq.symm
    · exact .inl heq.symm

private theorem Reconnecting.all_ended_abort (h : s.Reconnecting) :
    ∀ t ∈ abortReconnect s.reconnects s.reconnectTask, t.phase = .ended := by
  intro t ht
  obtain ⟨i, hi⟩ := List.mem_iff_getElem?.mp ht
  by_contra hlive
  obtain ⟨u, hu, rfl | rfl⟩ := getElem?_abortReconnect hi
  · have hheld := h.one i t hu hlive
    rw [hheld, abortReconnect, List.getElem?_modify_eq, hu] at hi
    exact hlive (congrArg Reconnect.phase (Option.some.inj hi)).symm
  · exact hlive rfl

@[simp] theorem length_abortReconnect (reconnects : List (Reconnect F)) (task : Option Nat) :
    (abortReconnect reconnects task).length = reconnects.length := by
  cases task with
  | none => rfl
  | some i => exact List.length_modify _ _ _

variable {cellMillis : (column width : Nat) → (secs : F) → Int}

private theorem reconnecting_goes (h : s.Reconnecting) (hgoes : Goes cellMillis s s') :
    s'.Reconnecting := by
  cases hgoes with
  | serves hserves => exact h.congr hserves.reconnects hserves.reconnectTask
  | @quits s₁ hserves lost last hlast =>
    have h₁ : s₁.Reconnecting := h.congr hserves.reconnects hserves.reconnectTask
    constructor
    · intro i t ht hlive
      exact absurd (h₁.all_ended_abort t (List.mem_of_getElem? ht)) hlive
    · intro t ht
      obtain ⟨i, hi⟩ := List.mem_iff_getElem?.mp ht
      obtain ⟨u, hu, rfl | rfl⟩ := getElem?_abortReconnect hi
      · exact h₁.backsOff t (List.mem_of_getElem? hu)
      · exact (h₁.backsOff u (List.mem_of_getElem? hu)).ended
  | news hnet hnews hserves hsound => exact h.congr hserves.reconnects hserves.reconnectTask
  | disconnects hnet => exact h.congr rfl rfl
  | fails hnet => exact h.congr rfl rfl
  | stops hnet => exact h.congr rfl rfl
  | restarts hnet hserves hsound hl => exact h.congr hserves.reconnects hserves.reconnectTask
  | severs message hnet hserves hsound => exact h.congr hserves.reconnects hserves.reconnectTask
  | spawns hdisconnected hincompatible hidle =>
    constructor
    · intro i t ht hlive
      change (s.reconnects ++ [({} : Reconnect F)])[i]? = some t at ht
      rw [List.getElem?_append] at ht
      split at ht
      · -- whoever went on would be the task that is idle
        have htask := h.one i t ht hlive
        exact absurd (hidle i htask t ht) hlive
      · rename_i hge
        have hi : i = s.reconnects.length := by
          have hlt := (List.getElem?_eq_some_iff.mp ht).1
          rw [List.length_singleton] at hlt
          omega
        rw [hi]
    · intro t ht
      rcases List.mem_append.mp ht with ht | ht
      · exact h.backsOff t ht
      · obtain rfl := List.mem_singleton.mp ht
        exact backsOff_spawned
  | forwards hl hrunning hl' hnews => exact h.congr rfl rfl
  | ends hl message => exact h.congr rfl rfl
  | @wakes i t ht hphase =>
    have hbacksOff := h.backsOff t (List.mem_of_getElem? ht)
    have hlive : t.phase ≠ .ended := by
      rw [hphase]
      exact ReconnectPhase.noConfusion
    have hwoken : Reconnect.BacksOff { t with phase := .connecting } :=
      ⟨hbacksOff.waits, hbacksOff.attempt, .inl (hbacksOff.all_failed hlive)⟩
    exact reconnecting_set h ht hlive hwoken rfl rfl
  | @attempts i t ht hphase attempt =>
    have hlive : t.phase ≠ .ended := by
      rw [hphase]
      exact ReconnectPhase.noConfusion
    exact reconnecting_set h ht hlive
      (backsOff_attempted (h.backsOff t (List.mem_of_getElem? ht)) hphase s.target _) rfl rfl

private theorem incompatible_goes (hgoes : Goes cellMillis s s')
    (h : s.incompatible.isSome = true) :
    s'.incompatible.isSome = true ∧ s'.reconnects.length = s.reconnects.length := by
  cases hgoes with
  | serves hserves => exact ⟨hserves.incompatible ▸ h, congrArg _ hserves.reconnects⟩
  | quits hserves lost hlast =>
    refine ⟨hserves.incompatible ▸ h, ?_⟩
    exact (length_abortReconnect _ _).trans (congrArg _ hserves.reconnects)
  | news hnet hnews hserves hsound =>
    exact ⟨hserves.incompatible ▸ h, congrArg _ hserves.reconnects⟩
  | disconnects hnet => exact ⟨h, rfl⟩
  | fails hnet => exact ⟨h, rfl⟩
  | stops hnet => exact ⟨rfl, rfl⟩
  | restarts hnet hserves hsound hl =>
    exact ⟨hserves.incompatible ▸ h, congrArg _ hserves.reconnects⟩
  | severs message hnet hserves hsound =>
    exact ⟨hserves.incompatible ▸ h, congrArg _ hserves.reconnects⟩
  | spawns hdisconnected hincompatible hidle =>
    rw [hincompatible] at h
    cases h
  | forwards hl hrunning hl' hnews => exact ⟨h, rfl⟩
  | ends hl message => exact ⟨h, rfl⟩
  | wakes ht hphase => exact ⟨h, List.length_set⟩
  | attempts ht hphase attempt => exact ⟨h, List.length_set⟩

end Reconnects

/-! ## The end of the loop -/

section Ends

/-- Every long-poll task that goes on is held, by `run` or by the event loop. -/
def Held (s : Session F) : Prop :=
  ∀ i l, s.loops[i]? = some l → l.running = true →
    s.firstTask = some i ∨ s.updateTask = some i

/-- Nothing goes on after the loop has ended, and a request to shut the daemon down is the last it
makes. -/
structure Ends (s : Session F) : Prop where
  loops : s.quit = true → ∀ l ∈ s.loops, l.running = false
  reconnects : s.quit = true → ∀ t ∈ s.reconnects, t.phase = .ended
  shutdown : .shutdown ∈ s.asked → s.quit = true ∧
    ∃ earlier, s.asked = earlier ++ [.shutdown] ∧ .shutdown ∉ earlier

variable {cellMillis : (column width : Nat) → (secs : F) → Int} {s s' : Session F}

private theorem running_abort {loops : List UpdateLoop} {task : Option Nat} {i : Nat}
    {l : UpdateLoop} (h : (abort loops task)[i]? = some l) (hrunning : l.running = true) :
    loops[i]? = some l ∧ task ≠ some i := by
  cases task with
  | none => exact ⟨h, by simp⟩
  | some j =>
    rw [abort, List.getElem?_modify] at h
    obtain ⟨u, hu, heq⟩ := Option.map_eq_some_iff.mp h
    split at heq
    · cases heq
      cases hrunning
    · rename_i hne
      cases heq
      exact ⟨hu, fun h => hne (Option.some.inj h)⟩

theorem Held.congr (h : s.Held) (hloops : s'.loops = s.loops) (hfirst : s'.firstTask = s.firstTask)
    (hupdate : s'.updateTask = s.updateTask) : s'.Held := by
  unfold Held
  rw [hloops, hfirst, hupdate]
  exact h

private theorem Held.all_stopped_abort (h : s.Held) :
    ∀ l ∈ abort (abort s.loops s.updateTask) s.firstTask, l.running = false := by
  intro l hl
  by_contra hrunning
  rw [Bool.not_eq_false] at hrunning
  obtain ⟨i, hi⟩ := List.mem_iff_getElem?.mp hl
  obtain ⟨hi, hfirst⟩ := running_abort hi hrunning
  obtain ⟨hi, hupdate⟩ := running_abort hi hrunning
  rcases h i l hi hrunning with hheld | hheld
  · exact hfirst hheld
  · exact hupdate hheld

private theorem Held.replace (h : s.Held) {l : UpdateLoop} {s' : Session F}
    (hloops : s'.loops = abort s.loops s.updateTask ++ [l])
    (hfirst : s'.firstTask = s.firstTask) (hupdate : s'.updateTask = some s.loops.length) :
    s'.Held := by
  intro i l' hi hrunning
  rw [hfirst, hupdate]
  rw [hloops, List.getElem?_append, length_abort] at hi
  split at hi
  · obtain ⟨hi, hne⟩ := running_abort hi hrunning
    exact .inl ((h i l' hi hrunning).resolve_right hne)
  · rename_i hge
    have hlt := (List.getElem?_eq_some_iff.mp hi).1
    rw [List.length_singleton] at hlt
    exact .inr (congrArg some (by omega))

private theorem held_goes (h : s.Held) (hgoes : Goes cellMillis s s') : s'.Held := by
  cases hgoes with
  | serves hserves => exact h.congr hserves.loops hserves.firstTask hserves.updateTask
  | @quits s₁ hserves lost last hlast =>
    have h₁ : s₁.Held := h.congr hserves.loops hserves.firstTask hserves.updateTask
    intro i l hl hrunning
    have hstopped := h₁.all_stopped_abort l (List.mem_of_getElem? hl)
    rw [hrunning] at hstopped
    cases hstopped
  | news hnet hnews hserves hsound =>
    exact h.congr hserves.loops hserves.firstTask hserves.updateTask
  | disconnects hnet => exact h.congr rfl rfl rfl
  | fails hnet => exact h.congr rfl rfl rfl
  | stops hnet => exact h.congr rfl rfl rfl
  | @restarts commit net s₁ l hnet hserves hsound hl =>
    have h₁ : s₁.Held := h.congr hserves.loops hserves.firstTask hserves.updateTask
    exact h₁.replace rfl rfl rfl
  | @severs commit net s₁ message hnet hserves hsound =>
    have h₁ : s₁.Held := h.congr hserves.loops hserves.firstTask hserves.updateTask
    intro i l hl hrunning
    obtain ⟨hi, hne⟩ := running_abort hl hrunning
    exact .inl ((h₁ i l hi hrunning).resolve_right hne)
  | spawns hdisconnected hincompatible hidle => exact h.congr rfl rfl rfl
  | @forwards i l l' hl hrunning hl' event hnews =>
    intro j u hu hlive
    change (s.loops.set i l')[j]? = some u at hu
    rw [List.getElem?_set] at hu
    split at hu
    · rename_i hij
      exact hij ▸ h i l hl hrunning
    · exact h j u hu hlive
  | @ends i l hl message =>
    intro j u hu hlive
    change (s.loops.set i { l with running := false })[j]? = some u at hu
    rw [List.getElem?_set] at hu
    split at hu
    · split at hu
      · cases hu
        cases hlive
      · cases hu
    · exact h j u hu hlive
  | wakes ht hphase => exact h.congr rfl rfl rfl
  | attempts ht hphase attempt => exact h.congr rfl rfl rfl

private theorem ends_running (hrunning : s.quit = false) (hasked : .shutdown ∉ s.asked) :
    s.Ends := by
  refine ⟨?_, ?_, fun h => absurd h hasked⟩
  · rw [hrunning]
    exact fun h => absurd h Bool.noConfusion
  · rw [hrunning]
    exact fun h => absurd h Bool.noConfusion

private theorem ends_served {s₁ : Session F} (hrunning : s.quit = false)
    (hasked : .shutdown ∉ s.asked)
    (hserves : Serves cellMillis s₁ s') (hquit : s₁.quit = s.quit) (hsame : s₁.asked = s.asked) :
    s'.quit = false ∧ .shutdown ∉ s'.asked := by
  obtain ⟨requests, heq, hrequests⟩ := hserves.asked
  refine ⟨(hserves.quit.trans hquit).trans hrunning, ?_⟩
  rw [heq, hsame, List.mem_append, not_or]
  exact ⟨hasked, hrequests⟩

private theorem ends_goes (hrunning : s.quit = false) (hasked : .shutdown ∉ s.asked)
    (hheld : s.Held) (hreconnecting : s.Reconnecting) (hgoes : Goes cellMillis s s') : s'.Ends := by
  have hsame : s'.quit = s.quit → s'.asked = s.asked → s'.Ends := by
    intro hquit hrequests
    exact ends_running (hquit.trans hrunning) (hrequests ▸ hasked)
  cases hgoes with
  | serves hserves =>
    obtain ⟨hquit, hnot⟩ := ends_served hrunning hasked hserves rfl rfl
    exact ends_running hquit hnot
  | @quits s₁ hserves lost last hlast =>
    obtain ⟨-, hnot⟩ := ends_served hrunning hasked hserves rfl rfl
    have hheld₁ : s₁.Held := hheld.congr hserves.loops hserves.firstTask hserves.updateTask
    have hreconnecting₁ : s₁.Reconnecting :=
      hreconnecting.congr hserves.reconnects hserves.reconnectTask
    refine ⟨fun _ => hheld₁.all_stopped_abort, fun _ => hreconnecting₁.all_ended_abort, ?_⟩
    intro hmem
    refine ⟨rfl, s₁.asked, ?_, hnot⟩
    change s₁.asked ++ last = _
    rcases hlast with rfl | rfl
    · exact absurd ((List.mem_append.mp hmem).resolve_right List.not_mem_nil) hnot
    · rfl
  | news hnet hnews hserves hsound =>
    obtain ⟨hquit, hnot⟩ := ends_served hrunning hasked hserves rfl rfl
    exact ends_running hquit hnot
  | restarts hnet hserves hsound hl =>
    obtain ⟨hquit, hnot⟩ := ends_served hrunning hasked hserves rfl rfl
    exact ends_running hquit hnot
  | severs message hnet hserves hsound =>
    obtain ⟨hquit, hnot⟩ := ends_served hrunning hasked hserves rfl rfl
    exact ends_running hquit hnot
  | disconnects hnet => exact hsame rfl rfl
  | fails hnet => exact hsame rfl rfl
  | stops hnet => exact hsame rfl rfl
  | spawns hdisconnected hincompatible hidle => exact hsame rfl rfl
  | forwards hl hrunning' hl' hnews => exact hsame rfl rfl
  | ends hl message => exact hsame rfl rfl
  | wakes ht hphase => exact hsame rfl rfl
  | attempts ht hphase attempt => exact hsame rfl rfl

end Ends

/-! ## Runs -/

section Runs

variable {value : S → ℚ} {debug : Response F S → String}
  {cellMillis : (column width : Nat) → (secs : F) → Int} {clientCommit : String} {s : Session F}

/-- What holds of a dashboard along with its tasks. -/
structure Inv (cellMillis : (column width : Nat) → (secs : F) → Int) (s : Session F) : Prop where
  app : Reaches cellMillis {} s.app
  watched : s.quit = false → s.Watched
  reconnecting : s.Reconnecting
  held : s.Held
  ends : s.Ends

private theorem reaches_goes {s' : Session F} (hgoes : Goes cellMillis s s') :
    Reaches cellMillis s.app s'.app := by
  cases hgoes with
  | serves hserves => exact hserves.app
  | quits hserves lost hlast => exact hserves.app
  | news hnet hnews hserves hsound => exact hserves.app
  | restarts hnet hserves hsound hl => exact hserves.app
  | severs message hnet hserves hsound => exact hserves.app
  | _ => exact .refl s.app

/-- What has ended stays as it is. -/
theorem Ends.step (h : s.Ends) (hquit : s.quit = true) (i : SessionInput F S) :
    s.step value debug cellMillis clientCommit i = s := by
  unfold Session.step
  split
  · split
    · rename_i l hl
      rw [h.loops hquit l (List.mem_of_getElem? hl)]
      rfl
    · rfl
  · split
    · rename_i t ht
      rw [h.reconnects hquit t (List.mem_of_getElem? ht)]
    · rfl
  · split
    · rename_i t ht
      rw [h.reconnects hquit t (List.mem_of_getElem? ht)]
    · rfl
  · exact if_pos hquit

theorem inv_step (h : s.Inv cellMillis) (i : SessionInput F S) :
    (s.step value debug cellMillis clientCommit i).Inv cellMillis := by
  cases hquit : s.quit with
  | true =>
    rw [h.ends.step hquit]
    exact h
  | false =>
    have hgoes := @goes_step _ _ cellMillis value debug clientCommit s i
    have hasked : .shutdown ∉ s.asked := by
      intro hmem
      have hended := (h.ends.shutdown hmem).1
      rw [hquit] at hended
      cases hended
    exact ⟨h.app.trans (reaches_goes hgoes), watched_goes h.watched hgoes,
      reconnecting_goes h.reconnecting hgoes, held_goes h.held hgoes,
      ends_goes hquit hasked h.held h.reconnecting hgoes⟩

theorem inv_boot (target : Target) (daemonCommit : String) (env : SessionEnv F S) :
    (boot value debug clientCommit target daemonCommit env).Inv cellMillis := by
  unfold boot
  dsimp only
  obtain ⟨hserves, hsound⟩ := @refreshAll_serves _ _ cellMillis value debug env
    ({ target, buildMismatch := Teiryo.buildMismatch clientCommit daemonCommit }, env.replies)
  generalize (refreshAll value debug env _).1 = s₁ at hserves hsound ⊢
  obtain ⟨hquit, hnot⟩ := @ends_served _ cellMillis
    { target, buildMismatch := Teiryo.buildMismatch clientCommit daemonCommit } _ _ rfl
    List.not_mem_nil hserves rfl rfl
  have hreconnects : ∀ s₂ : Session F, s₂.reconnects = s₁.reconnects →
      s₂.reconnectTask = s₁.reconnectTask → s₂.Reconnecting := by
    intro s₂ heq htask
    have hnone : s₂.reconnects = [] := heq.trans hserves.reconnects
    refine ⟨?_, ?_⟩
    · intro i t ht
      rw [hnone] at ht
      cases ht
    · rw [hnone]
      intro t ht
      cases ht
  have hloops : s₁.loops = [] := hserves.loops
  rcases startUpdateLoop_cases env.attempt s₁ with ⟨l, hl, heq⟩ | ⟨message, heq⟩
  · rw [heq]
    refine ⟨hserves.app, fun _ => ⟨hsound, .inl ⟨l, List.mem_append_right _
      (List.mem_singleton_self l), hl⟩⟩, hreconnects _ rfl rfl, ?_, ends_running hquit hnot⟩
    intro i u hu _
    change (s₁.loops ++ [l])[i]? = some u at hu
    have hlt := (List.getElem?_eq_some_iff.mp hu).1
    rw [hloops, List.nil_append, List.length_singleton] at hlt
    refine .inl ?_
    change some s₁.loops.length = some i
    rw [hloops, List.length_nil, Nat.lt_one_iff.mp hlt]
  · rw [heq]
    refine ⟨hserves.app, fun _ => ⟨hsound, .inr (.inl ⟨_, message, [], rfl, ?_⟩)⟩,
      hreconnects _ rfl rfl, ?_, ends_running hquit hnot⟩
    · intro e he
      cases he
    · intro i u hu
      change s₁.loops[i]? = some u at hu
      rw [hloops] at hu
      cases hu

theorem inv_run (target : Target) (daemonCommit : String) (env : SessionEnv F S)
    (inputs : List (SessionInput F S)) :
    ((boot value debug clientCommit target daemonCommit env).run value debug cellMillis
      clientCommit inputs).Inv cellMillis :=
  foldl_invariant inputs (inv_boot target daemonCommit env) fun _ i h => inv_step h i

/-- Whatever reaches the event loop, all it does to the dashboard are a run of the dashboard's own
inputs. -/
theorem session_refines_app (target : Target) (daemonCommit : String) (env : SessionEnv F S)
    (inputs : List (SessionInput F S)) : ∃ appInputs : List (AppInput F),
      ((boot value debug clientCommit target daemonCommit env).run value debug cellMillis
        clientCommit inputs).app = App.run cellMillis appInputs :=
  (inv_run target daemonCommit env inputs).app

/-- A lost connection has been noticed or is about to be, and what is noticed is acted on: there
is a reconnect task after the next tick, unless it cannot help. -/
structure Noticed (value : S → ℚ) (debug : Response F S → String)
    (cellMillis : (column width : Nat) → (secs : F) → Int) (clientCommit : String)
    (s : Session F) : Prop where
  command : s.lost = true → s.disconnected = true
  updates : (∀ l ∈ s.loops, l.running = false) →
    s.disconnected = true ∨ ∃ message, .disconnected message ∈ s.net
  tick : s.disconnected = true → s.incompatible = none →
    ∃ t ∈ (s.step value debug cellMillis clientCommit .tick).reconnects, t.phase ≠ .ended

private theorem tick_reconnects (hrunning : s.quit = false) (hdisconnected : s.disconnected = true)
    (hincompatible : s.incompatible = none) :
    ∃ t ∈ (s.step value debug cellMillis clientCommit .tick).reconnects, t.phase ≠ .ended := by
  have hstep : s.step value debug cellMillis clientCommit .tick = s.tick := by
    simp [step, hrunning, drive]
  rw [hstep, tick]
  split
  · exact ⟨{}, List.mem_append_right _ (List.mem_singleton_self _), ReconnectPhase.noConfusion⟩
  · rename_i hbusy
    rw [hdisconnected, hincompatible, Option.isNone_none, Bool.true_and, Bool.true_and,
      Option.all_eq_true] at hbusy
    -- the task there is goes on
    obtain ⟨i, hi⟩ := not_forall.mp hbusy
    obtain ⟨-, hgoes⟩ := Classical.not_imp.mp hi
    rw [Option.all_eq_true] at hgoes
    obtain ⟨t, ht⟩ := not_forall.mp hgoes
    obtain ⟨ht, hlive⟩ := Classical.not_imp.mp ht
    exact ⟨t, List.mem_of_getElem? ht, fun h => hlive (decide_eq_true h)⟩

/-- However keys, replies and the tasks interleave, a running TUI notices that it lost one of its
connections and gets a reconnect under way. -/
theorem losses_noticed (target : Target) (daemonCommit : String) (env : SessionEnv F S)
    (inputs : List (SessionInput F S))
    (hrunning : ((boot value debug clientCommit target daemonCommit env).run value debug
      cellMillis clientCommit inputs).quit = false) :
    Noticed value debug cellMillis clientCommit
      ((boot value debug clientCommit target daemonCommit env).run value debug cellMillis
        clientCommit inputs) := by
  obtain ⟨hsound, htold⟩ := (inv_run target daemonCommit env inputs).watched hrunning
  refine ⟨hsound, ?_, tick_reconnects hrunning⟩
  intro hnone
  rcases htold with ⟨l, hl, hruns⟩ | ⟨before, message, after, heq, -⟩ | ⟨hdisconnected, -⟩
  · have hstopped := hnone l hl
    rw [hruns] at hstopped
    cases hstopped
  · refine .inr ⟨message, ?_⟩
    rw [heq]
    exact List.mem_append_right _ List.mem_cons_self
  · exact .inl hdisconnected

/-- A daemon that hangs up before its first reply, and is there again later. -/
def hungUp : SessionEnv ℚ ℚ where
  recentNow := 0
  now := 0
  attempt := { exchange := .ok "0123abc" }

theorem losses_noticed_hungUp :
    Noticed id (fun _ => "") (fun _ _ _ => 0) "0123abc"
      ((boot id (fun _ => "") "0123abc" .local "0123abc" hungUp).run id (fun _ => "")
        (fun _ _ _ => 0) "0123abc" [.polled 0 (.error .closed), .net hungUp, .tick, .slept 0,
          .connected 0 hungUp.attempt, .net hungUp]) :=
  losses_noticed .local "0123abc" hungUp _ rfl

/-- Reconnects go on one at a time and back off, and there are no more of them once a daemon was
found incompatible. -/
structure Disciplined (s later : Session F) : Prop where
  one : ∀ i t, s.reconnects[i]? = some t → t.phase ≠ .ended → s.reconnectTask = some i
  backsOff : ∀ t ∈ s.reconnects, t.BacksOff
  incompatible : s.incompatible.isSome = true →
    later.incompatible.isSome = true ∧ later.reconnects.length = s.reconnects.length

private theorem incompatible_run (h : s.incompatible.isSome = true)
    (inputs : List (SessionInput F S)) :
    (s.run value debug cellMillis clientCommit inputs).incompatible.isSome = true ∧
      (s.run value debug cellMillis clientCommit inputs).reconnects.length =
        s.reconnects.length := by
  refine @foldl_invariant _ _ (step value debug cellMillis clientCommit)
    (fun later : Session F => later.incompatible.isSome = true ∧
      later.reconnects.length = s.reconnects.length) s inputs ⟨h, rfl⟩ ?_
  intro later i hlater
  obtain ⟨hsome, hlength⟩ :=
    incompatible_goes (@goes_step _ _ cellMillis value debug clientCommit later i) hlater.1
  exact ⟨hsome, hlength.trans hlater.2⟩

theorem reconnects_disciplined (target : Target) (daemonCommit : String) (env : SessionEnv F S)
    (inputs more : List (SessionInput F S)) :
    Disciplined
      ((boot value debug clientCommit target daemonCommit env).run value debug cellMillis
        clientCommit inputs)
      (((boot value debug clientCommit target daemonCommit env).run value debug cellMillis
        clientCommit inputs).run value debug cellMillis clientCommit more) := by
  have h := (@inv_run _ _ value debug cellMillis clientCommit target daemonCommit env
    inputs).reconnecting
  exact ⟨h.one, h.backsOff, fun hsome => incompatible_run hsome more⟩

end Runs
end Session
end Teiryo
