import Teiryo.Client.AppInput
import Teiryo.Client.Connecting
import Teiryo.Client.Holes
import Teiryo.Client.Updates

/-!
# The event loop

`drive` in `teiryo/src/main.rs`: one loop handles keys, the mouse, what the network tasks report
and a tick, while long-poll tasks and reconnect tasks run beside it. A handler waits for its
requests, and the tasks go on meanwhile; they only append to the queue of events and to their own
state, so a handler is one step here.
-/

namespace Teiryo

variable {F S : Type}

namespace Session

/-- A long-poll task. -/
structure UpdateLoop where
  since : PollId
  configGen : Nat
  running : Bool := true
  deriving DecidableEq, Repr

inductive ReconnectPhase where
  | sleeping
  | connecting
  | ended
  deriving DecidableEq, Repr

/-- A reconnect task. The last two fields record history: how long it slept before each attempt,
and what it reported. -/
structure Reconnect (F : Type) where
  attempt : UInt32 := 0
  phase : ReconnectPhase := .sleeping
  waits : List StdDuration := [reconnectDelay 0]
  reports : List (NetEvent F) := []
  deriving DecidableEq, Repr

end Session

/-- The TUI: what it shows, the queue of events, and every task it ever spawned. `lost` tells
whether the last request on the command connection failed, and `asked` records all requests. -/
structure Session (F : Type) where
  target : Target
  app : App F := {}
  disconnected : Bool := false
  incompatible : Option String := none
  error : Option String := none
  lastUpdate : Option DateTime := none
  buildMismatch : Option String := none
  net : List (NetEvent F) := []
  loops : List Session.UpdateLoop := []
  /-- The long-poll task that `run` holds, and the one that the event loop does. -/
  firstTask : Option Nat := none
  updateTask : Option Nat := none
  reconnects : List (Session.Reconnect F) := []
  reconnectTask : Option Nat := none
  lost : Bool := false
  asked : List Request := []
  quit : Bool := false

/-- What a handler finds outside: the clock, as the rows' history and as the detail pane read it,
and what its requests come to. Once there are no more replies the daemon has hung up. -/
structure SessionEnv (F S : Type) where
  recentNow : DateTime
  now : DateTime
  replies : List (Except ClientError (Response F S)) := []
  attempt : Attempt

inductive SessionInput (F S : Type) where
  | key (key : KeyEvent) (env : SessionEnv F S)
  | mouse (mouse : MouseEvent) (env : SessionEnv F S)
  | terminalClosed
  | draw (frame : Frame F)
  /-- The event loop takes the next event off the queue. -/
  | net (env : SessionEnv F S)
  | tick
  /-- The request of a long-poll task comes to something. -/
  | polled (loop : Nat) (reply : Except ClientError (Response F S))
  /-- A reconnect task's sleep is over. -/
  | slept (task : Nat)
  | connected (task : Nat) (attempt : Attempt)

def errorKindText : ErrorKind → String
  | .unknownProvider => "unknown provider"
  | .unknownAccount => "unknown account"
  | .badRequest => "bad request"
  | .storage => "storage error"
  | .internal => "daemon error"

/-- The newest poll id visible in a status snapshot. -/
def newestPollId (statuses : List (AccountStatus F ℚ)) : PollId :=
  (statuses.filterMap fun s => s.lastPoll.map (·.id)).foldl max 0

namespace Session

/-- A handler's state: the session, and the replies still to come. -/
abbrev Exchange (F S : Type) := Session F × List (Except ClientError (Response F S))

def reply : Except ClientError (Response F S) → Session F → Session F
  | .ok _, s => { s with lost := false }
  | .error _, s => { s with lost := true }

/-- Send one request on the command connection and await its response. -/
def request (r : Request) (x : Exchange F S) :
    Except ClientError (Response F S) × Exchange F S :=
  match x with
  | (s, []) => (.error .closed, reply (.error .closed : Except ClientError (Response F S))
      { s with asked := s.asked ++ [r] }, [])
  | (s, response :: replies) =>
    (response, reply response { s with asked := s.asked ++ [r] }, replies)

def setApp (s : Session F) (app : App F) : Session F := { s with app }

section Handlers

variable (value : S → ℚ) (debug : Response F S → String)

def noteUnexpected (response : Except ClientError (Response F S)) (s : Session F) :
    Session F :=
  match response with
  | .ok (.err kind message) => { s with error := some (errorKindText kind ++ ": " ++ message) }
  | .ok other => { s with error := some ("unexpected daemon reply: " ++ debug other) }
  | .error e => { s with disconnected := true, error := some e.display }

/-- Ask for something, install the reply if it is one to that, and note it if it is not. -/
def fetch (r : Request) (install : Response F S → App F → Option (App F))
    (x : Exchange F S) : Bool × Exchange F S :=
  let asked := request r x
  match asked.1 with
  | .ok response =>
    match install response asked.2.1.app with
    | some app => (true, asked.2.1.setApp app, asked.2.2)
    | none => (false, noteUnexpected debug asked.1 asked.2.1, asked.2.2)
  | .error _ => (false, noteUnexpected debug asked.1 asked.2.1, asked.2.2)

/-- The thresholds of a status are shown as the numbers their `f32` are. -/
def installStatuses : Response F S → App F → Option (App F)
  | .status statuses, app => some (app.setStatuses (statuses.map (·.map value)))
  | _, _ => none

def installHealth : Response F S → App F → Option (App F)
  | .providers health, app => some { app with health }
  | _, _ => none

def installActivity : Response F S → App F → Option (App F)
  | .recentPolls events, app => some { app with activity := events }
  | _, _ => none

def installConfig : Response F S → App F → Option (App F)
  | .config state, app => some { app with config := some state }
  | _, _ => none

def installHistory (set : HistoryPage F → App F → App F) :
    Response F S → App F → Option (App F)
  | .history page, app => some (set page app)
  | _, _ => none

/-- Fetch a full `Status`; an empty dashboard also needs a reason, which `Providers` carries. -/
def refreshStatus (x : Exchange F S) : Exchange F S :=
  let fetched := fetch debug (.status none none) (installStatuses value) x
  if fetched.1 && fetched.2.1.app.statuses.isEmpty then
    (fetch debug .providers installHealth fetched.2).2
  else fetched.2

/-- The accounts whose history is still to be fetched; a failure stops it. -/
def refreshAccounts (since : DateTime) : List AccountId → Exchange F S → Exchange F S
  | [], x => x
  | account :: accounts, x =>
    let fetched := fetch debug (.history account none since none (some recentMaxPoints))
      (installHistory fun page app => app.setRecent account page.snapshots) x
    if fetched.1 then refreshAccounts since accounts fetched.2 else fetched.2

def refreshRecent (env : SessionEnv F S) (x : Exchange F S) : Exchange F S :=
  refreshAccounts debug (env.recentNow - recentSpan)
    (x.1.app.statuses.map (·.account.id)) x

def reloadExtras (now : DateTime) : List ExtraQuery → Exchange F S → Exchange F S
  | [], x => x
  | extra :: extras, x =>
    let fetched := fetch debug extra.request (installHistory fun page app =>
      app.setExtra extra.purpose {
        account := extra.account, window := extra.window, title := extra.title
        snapshots := page.snapshots, rollovers := page.rollovers, range := extra.range
        «until» := extra.until, earliest := page.earliest, fetchedAt := now }) x
    if fetched.1 then reloadExtras now extras fetched.2 else fetched.2

/-- Fetch whatever the detail pane's current tab needs. -/
def reloadDetail (env : SessionEnv F S) (x : Exchange F S) : Exchange F S :=
  match x.1.app.detailQuery env.now with
  | none => (x.1.setApp { x.1.app with trend := none }, x.2)
  | some (.trend account window title range upTo request extras) =>
    let fetched := fetch debug request (installHistory fun page app =>
      app.setTrend {
        account, window, title, snapshots := page.snapshots, rollovers := page.rollovers, range
        «until» := upTo, earliest := page.earliest, fetchedAt := env.now }) x
    if fetched.1 then reloadExtras debug env.now extras fetched.2 else fetched.2
  | some (.activity request) => (fetch debug request installActivity x).2
  | some (.health request) => (fetch debug request installHealth x).2

def loadConfig (x : Exchange F S) : Exchange F S := (fetch debug .getConfig installConfig x).2

/-- All that a new connection is asked for. -/
def refreshAll (env : SessionEnv F S) (x : Exchange F S) : Exchange F S :=
  loadConfig debug (reloadDetail debug env (refreshRecent debug env (refreshStatus value debug x)))

def editConfig (edit : ConfigEdit) (x : Exchange F S) : Exchange F S :=
  let fetched := fetch debug (.setConfig edit) installConfig x
  if fetched.1 then refreshStatus value debug fetched.2 else fetched.2

/-- Send a request where only errors are interesting. A refused poll never lands, so its spinner
is stopped here. -/
def sendChecked (r : Request) (x : Exchange F S) : Exchange F S :=
  let asked := request r x
  match asked.1 with
  | .ok (.err kind message) =>
    let s := { asked.2.1 with error := some (errorKindText kind ++ ": " ++ message) }
    match r with
    | .pollNow provider account => (s.setApp (s.app.pollRefused provider account), asked.2.2)
    | _ => (s, asked.2.2)
  | .ok _ => asked.2
  | .error e => ({ asked.2.1 with disconnected := true, error := some e.display }, asked.2.2)

def abort (loops : List UpdateLoop) : Option Nat → List UpdateLoop
  | none => loops
  | some i => loops.modify i fun l => { l with running := false }

def abortReconnect (reconnects : List (Reconnect F)) : Option Nat → List (Reconnect F)
  | none => reconnects
  | some i => reconnects.modify i fun t => { t with phase := .ended }

/-- The loop is left: it aborts the two tasks it holds, and then `run` aborts the one it holds. -/
def close (s : Session F) : Session F :=
  { s with
    quit := true
    loops := abort (abort s.loops s.updateTask) s.firstTask
    reconnects := abortReconnect s.reconnects s.reconnectTask }

/-- Open the dedicated update connection and start the long-poll loop. -/
def startUpdateLoop (attempt : Attempt) (s : Session F) : Session F × Option Nat :=
  match s.target.connect attempt with
  | .ok _ =>
    ({ s with
        loops := s.loops ++ [{
          since := newestPollId s.app.statuses
          configGen := (s.app.config.map (·.generation)).getD 0 }] },
      some s.loops.length)
  | .error e => ({ s with net := s.net ++ [.disconnected e.display] }, none)

/-- Do what a key or the mouse asks for. -/
def act (env : SessionEnv F S) (action : Action) (s : Session F) : Session F :=
  match action with
  | .none => s
  | .quit => s.close
  | .send requests =>
    (requests.foldl (fun x r => sendChecked r x)
      ({ s with error := none }, env.replies)).1
  | .reloadDetail => (reloadDetail debug env (s, env.replies)).1
  | .loadConfig => (loadConfig debug (s, env.replies)).1
  | .editConfig edit => (editConfig value debug edit ({ s with error := none }, env.replies)).1
  | .shutdownDaemon => (request .shutdown (s, env.replies)).2.1.close

/-- The new connection replaces the old one, and a new long-poll task the one the loop holds. -/
def reconnect (clientCommit : String) (env : SessionEnv F S) (daemonCommit : String)
    (s : Session F) : Session F :=
  let x : Exchange F S :=
    ({ s with
        buildMismatch := Teiryo.buildMismatch clientCommit daemonCommit
        disconnected := false, error := none, lost := false }, env.replies)
  let s := (refreshAll value debug env x).1
  let started := startUpdateLoop env.attempt { s with loops := abort s.loops s.updateTask }
  { started.1 with updateTask := started.2 }

/-- Handle an event that was taken off the queue. -/
def handleNet (clientCommit : String) (env : SessionEnv F S) (event : NetEvent F)
    (s : Session F) : Session F :=
  match event with
  | .update event =>
    (reloadDetail debug env (refreshRecent debug env (refreshStatus value debug
      ({ s with
        lastUpdate := some event.ts, disconnected := false
        app := s.app.pollSettled event.account }, env.replies)))).1
  | .config state =>
    (refreshRecent debug env (refreshStatus value debug
      ({ s with disconnected := false, app := { s.app with config := some state } },
        env.replies))).1
  | .disconnected message => { s with disconnected := true, error := some message }
  | .reconnectFailed message => { s with error := some message }
  | .incompatible message => { s with disconnected := true, incompatible := some message }
  | .reconnected daemonCommit => s.reconnect value debug clientCommit env daemonCommit

/-- A tick notices that a reconnect is needed and none is under way. -/
def tick (s : Session F) : Session F :=
  let idle := s.reconnectTask.all fun i => s.reconnects[i]?.all fun t => decide (t.phase = .ended)
  if s.disconnected && s.incompatible.isNone && idle then
    { s with reconnects := s.reconnects ++ [{}], reconnectTask := some s.reconnects.length }
  else s

/-- A long-poll task has its reply: it forwards it and asks again, or ends. -/
def polled (i : Nat) (l : UpdateLoop) (reply : Except ClientError (Response F S))
    (s : Session F) : Session F :=
  match reply with
  | .ok (.update event) =>
    { s with
      loops := s.loops.set i { l with since := max l.since event.id }
      net := s.net ++ [.update event] }
  | .ok (.config state) =>
    { s with
      loops := s.loops.set i { l with configGen := max l.configGen state.generation }
      net := s.net ++ [.config state] }
  | .ok .noUpdate => s
  | .ok other =>
    { s with
      loops := s.loops.set i { l with running := false }
      net := s.net ++ [.disconnected ("unexpected reply to AwaitUpdate: " ++ debug other)] }
  | .error e =>
    { s with
      loops := s.loops.set i { l with running := false }
      net := s.net ++ [.disconnected e.display] }

/-- What a reconnect task reports of an attempt, and whether that is its last. -/
def report (target : Target) (result : Except ClientError String) : NetEvent F × Bool :=
  match result with
  | .ok daemonCommit => (.reconnected daemonCommit, true)
  | .error e =>
    match incompatibleMessage e target with
    | some message => (.incompatible message, true)
    | none => (.reconnectFailed e.display, false)

/-- An attempt of a reconnect task has come to something. -/
def attempted (i : Nat) (t : Reconnect F) (attempt : Attempt) (s : Session F) : Session F :=
  let reported := report s.target (s.target.connect attempt)
  let next := Throttle.saturatingSucc t.attempt
  { s with
    net := s.net ++ [reported.1]
    reconnects := s.reconnects.set i (
      if reported.2 then { t with phase := .ended, reports := t.reports ++ [reported.1] }
      else {
        attempt := next, phase := .sleeping, waits := t.waits ++ [reconnectDelay next]
        reports := t.reports ++ [reported.1] }) }

variable (cellMillis : (column width : Nat) → (secs : F) → Int) (clientCommit : String)

/-- One turn of the event loop. -/
def drive (s : Session F) : SessionInput F S → Session F
  | .key key env =>
    let handled := s.app.handleKey key
    act value debug env handled.2 (s.setApp handled.1)
  | .mouse mouse env =>
    let handled := s.app.handleMouse cellMillis mouse
    act value debug env handled.2 (s.setApp handled.1)
  | .terminalClosed => s.close
  | .draw frame => s.setApp (s.app.draw frame)
  | .net env =>
    match s.net with
    | [] => s
    | event :: net => handleNet value debug clientCommit env event { s with net }
  | .tick => s.tick
  | _ => s

/-- A task goes on until it ends or is aborted, whether or not the event loop still does. -/
def step (s : Session F) (i : SessionInput F S) : Session F :=
  match i with
  | .polled loop reply =>
    match s.loops[loop]? with
    | some l => if l.running then polled debug loop l reply s else s
    | none => s
  | .slept task =>
    match s.reconnects[task]? with
    | some t =>
      match t.phase with
      | .sleeping =>
        { s with reconnects := s.reconnects.set task { t with phase := .connecting } }
      | _ => s
    | none => s
  | .connected task attempt =>
    match s.reconnects[task]? with
    | some t =>
      match t.phase with
      | .connecting => s.attempted task t attempt
      | _ => s
    | none => s
  | i => if s.quit then s else s.drive value debug cellMillis clientCommit i

def run (s : Session F) (inputs : List (SessionInput F S)) : Session F :=
  inputs.foldl (step value debug cellMillis clientCommit) s

/-- What `run` does once its first connection is up, before the event loop. It keeps the update
task it starts to itself. -/
def boot (target : Target) (daemonCommit : String) (env : SessionEnv F S) : Session F :=
  let x : Exchange F S :=
    ({ target, buildMismatch := Teiryo.buildMismatch clientCommit daemonCommit }, env.replies)
  let started := startUpdateLoop env.attempt (refreshAll value debug env x).1
  { started.1 with firstTask := started.2 }

end Handlers
end Session
end Teiryo
