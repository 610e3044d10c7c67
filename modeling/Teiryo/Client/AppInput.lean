import Teiryo.Client.App
import Mathlib.Data.Finset.Basic

/-!
# Keys, the mouse and everything else that reaches the TUI

Each input as a step of the TUI's state, following the second half of `teiryo/src/app.rs` and what
the event loop of `teiryo/src/main.rs` and the renderer write into the state.
-/

namespace Teiryo

inductive KeyCode where
  | esc
  | enter
  | tab
  | backTab
  | backspace
  | delete
  | up
  | down
  | left
  | right
  | home
  | «end»
  | pageUp
  | pageDown
  | char (c : Char)
  | other
  deriving DecidableEq, Repr

structure KeyEvent where
  code : KeyCode
  control : Bool := false
  /-- Pressed, rather than repeated or released. -/
  press : Bool := true
  deriving DecidableEq, Repr

inductive MouseEventKind where
  | downLeft
  | downRight
  | scrollDown
  | scrollUp
  | scrollLeft
  | scrollRight
  | other
  deriving DecidableEq, Repr

structure MouseEvent where
  kind : MouseEventKind
  column : Nat
  row : Nat
  deriving DecidableEq, Repr

/-- Intervals a key press moves between, in seconds. -/
def intervalRungs : List UInt32 := [10, 15, 30, 60, 120, 300, 600, 900, 1800, 3600]

/-- The rung `delta` steps from `current`, clamped at both ends. A value between rungs moves to
the neighbouring rung in the requested direction. -/
def stepInterval (current : UInt32) (delta : Int) : UInt32 :=
  let index : Int :=
    match intervalRungs.findIdx? fun rung => decide (current ≤ rung) with
    | some i =>
      if intervalRungs[i]? = some current then i + delta
      else if 0 < delta then i
      else i - 1
    | none => intervalRungs.length - 1
  intervalRungs.getD (clamp index 0 (intervalRungs.length - 1)).toNat 0

namespace App

variable {F : Type}

def detailPage : Int := 5

def detailHscrollStep : Int := 6

/-- Whether the cursor is in a detail pane that is on screen. -/
def detailFocused (app : App F) : Bool := decide (app.focus = .detail) && app.detailVisible

def setTab (app : App F) (tab : DetailTab) : App F × Action :=
  ({ app with
    detail := tab, detailScroll := 0, detailHscroll := 0, detailHscrollMax := 0
    detailScrollMax := 0, detailVisible := true }, .reloadDetail)

/-- Show `view` on the Trend tab, switching to the tab if need be. -/
def setTrendView (app : App F) (view : TrendView) : App F × Action :=
  let app := if view ≠ app.trendView then { app with inspect := none } else app
  { app with trendView := view }.setTab .trend

/-- Pan the chart by `secs`, positive being later, clipped at both ends. -/
def panTrend (app : App F) (secs : Int) : App F × Action :=
  let panned := clamp (app.trendPanSecs - secs) 0 app.maxTrendPanSecs
  if panned = app.trendPanSecs then (app, .none)
  else ({ app with trendPanSecs := panned, inspect := none }, .reloadDetail)

/-- Move the cursor to `pane`, revealing the detail pane if that is where it is going. -/
def focusPane (app : App F) (pane : Pane) : App F × Action :=
  if pane = .detail ∧ app.detailVisible = false then
    ({ app with detailVisible := true, focus := pane }, .reloadDetail)
  else ({ app with focus := pane }, .none)

def scrollDetailColumns (app : App F) (delta : Int) : App F :=
  { app with detailHscroll := (clamp (app.detailHscroll + delta) 0 app.detailHscrollMax).toNat }

def scrollDetailRows (app : App F) (delta : Int) : App F :=
  { app with detailScroll := (clamp (app.detailScroll + delta) 0 app.detailScrollMax).toNat }

/-- Put the detail pane's horizontal view back at its origin. Back to the present is a pan, and a
pan puts the cursor away. -/
def resetDetailScroll (app : App F) : App F × Action :=
  if 0 < app.trendPanSecs then
    ({ app with inspect := none, trendPanSecs := 0, detailHscroll := 0 }, .reloadDetail)
  else ({ app with trendPanSecs := 0, detailHscroll := 0 }, .none)

/-- How far the detail pane's content overruns its viewport. -/
def setDetailBounds (app : App F) (columns rows : Nat) : App F :=
  { app with
    detailHscrollMax := columns, detailScrollMax := rows
    detailHscroll := min app.detailHscroll columns, detailScroll := min app.detailScroll rows }

/-- Put the chart cursor out on the newest reading, or away. -/
def toggleInspect (app : App F) : App F × Action :=
  if app.inspect.isSome then ({ app with inspect := none }, .none)
  else
    match app.selectedWindow with
    | none => (app, .none)
    | some (_, view) =>
      ({ app with
        inspect := (app.readingTimes view.window.id).getLast?.map (.reading view.window.id) },
        .none)

/-- Step the chart cursor `delta` readings along its series. -/
def stepInspect (app : App F) (delta : Int) : App F × Action :=
  match app.inspect with
  | some (.reading window ts) =>
    let times := app.readingTimes window
    match times.findIdx? (· = ts) with
    | none => (app, .none)
    | some i =>
      ({ app with
        inspect := (times[(clamp (i + delta) 0 (times.length - 1)).toNat]?).map
          (.reading window) }, .none)
  | _ => app.toggleInspect

/-- The Activity row the cursor is on, if it has been put on one. -/
def activityIndex (app : App F) : Option Nat :=
  app.activityCursor.bind fun id =>
    if app.activity = [] then none
    else some ((app.activity.findIdx? (·.id == id)).getD
      (min app.activityCursorIndex (app.activity.length - 1)))

/-- Put the Activity cursor on row `index`, clamped to the log. -/
def selectActivity (app : App F) (index : Nat) : App F :=
  let index := min index (app.activity.length - 1)
  match app.activity[index]? with
  | none => app
  | some event =>
    { app with
      detailsScroll := if some index ≠ app.activityIndex then 0 else app.detailsScroll
      activityCursor := some event.id, activityCursorIndex := index, activityFollow := true }

/-- Move the Activity cursor `delta` rows; the first press puts it on the newest poll. -/
def moveActivityCursor (app : App F) (delta : Int) : App F :=
  match app.activityIndex with
  | some i => app.selectActivity (max (i + delta) 0).toNat
  | none => app.selectActivity 0

/-- Open or shut the Details pane. -/
def toggleDetails (app : App F) : App F × Action :=
  let app := if app.activityIndex = none then app.selectActivity 0 else app
  ({ app with
    activityDetails := !app.activityDetails && app.activityIndex.isSome, detailsScroll := 0 },
    .none)

/-- How far the Details pane overruns its viewport. -/
def setDetailsBounds (app : App F) (rows : Nat) : App F :=
  { app with detailsScrollMax := rows, detailsScroll := min app.detailsScroll rows }

/-- A click on the Activity tab: a row selects it, and the selected row again opens or shuts its
details. -/
def clickActivity (app : App F) (pos : Position) : App F × Action :=
  if app.activityListArea.contains pos then
    let index := app.detailScroll + (pos.y - app.activityListArea.y)
    if app.activity.length ≤ index then (app, .none)
    else if some index = app.activityIndex then app.toggleDetails
    else ({ app.selectActivity index with activityFollow := false }, .none)
  else (app, .none)

/-- Scroll the detail pane along its own axis in response to `j`/`k`. -/
def scrollDetail (app : App F) (delta : Int) : App F × Action :=
  match app.detail with
  | .trend => app.panTrend (delta * app.trendKeyStepSecs)
  | .activity => (app.moveActivityCursor delta, .none)
  | .health => (app.scrollDetailColumns (delta * detailHscrollStep), .none)

/-- Wheel handling for the detail pane, where each tab has its own axes. -/
def wheelDetail (app : App F) (pos : Position) (rows columns : Int) : App F × Action :=
  match app.detail with
  | .trend => app.panTrend ((if columns ≠ 0 then columns else rows) * app.trendWheelStepSecs)
  | .activity =>
    if app.activityDetailsArea.contains pos then
      ({ app with
        detailsScroll := (clamp (app.detailsScroll + rows) 0 app.detailsScrollMax).toNat }, .none)
    else ((app.scrollDetailRows rows).scrollDetailColumns columns, .none)
  | .health => ((app.scrollDetailRows rows).scrollDetailColumns columns, .none)

section Mouse

variable (cellMillis : (column width : Nat) → (secs : F) → Int)

/-- What a click on a chart puts the cursor on. -/
def clickTarget (app : App F) (hit : ChartHit F) (pos : Position) : Option Inspect :=
  match hit.axis with
  | .time _ _ window =>
    (hit.instantAt cellMillis pos.x).bind fun ts =>
      (app.nearestReading window ts).map (.reading window)
  | .bars _ _ _ => (hit.barAt pos.x).map (.bar hit.plot)

/-- A left click: on the detail pane it picks a view, or reads the chart under the pointer;
anywhere it moves the cursor to the pane clicked. -/
def click (app : App F) (pos : Position) : App F × Action :=
  if app.quotasArea.contains pos then ({ app with focus := .list }, .none)
  else if app.detailArea.contains pos then
    let app := { app with focus := .detail }
    match app.detail with
    | .trend =>
      match app.viewTabs.find? fun tab => tab.1.contains pos with
      | some tab => app.setTrendView tab.2
      | none =>
        match app.chartHits.find? fun hit => hit.plot.contains pos with
        | none => (app, .none)
        | some hit =>
          let target := app.clickTarget cellMillis hit pos
          ({ app with inspect := if target = app.inspect then none else target }, .none)
    | .activity => app.clickActivity pos
    | .health => (app, .none)
  else (app, .none)

/-- One notch, one line: along the rows, along the columns. -/
def wheelDelta : MouseEventKind → Option (Int × Int)
  | .scrollDown => some (1, 0)
  | .scrollUp => some (-1, 0)
  | .scrollRight => some (0, 1)
  | .scrollLeft => some (0, -1)
  | _ => none

/-- Route a wheel event by the pane the pointer is over, which also moves the cursor there. -/
def wheel (app : App F) (pos : Position) (rows columns : Int) : App F × Action :=
  if app.detailArea.contains pos then { app with focus := .detail }.wheelDetail pos rows columns
  else if app.quotasArea.contains pos then
    let app := { app with focus := .list }
    if rows = 0 then (app, .none) else (app.moveSelection rows, .reloadDetail)
  else (app, .none)

def handleMouse (app : App F) (mouse : MouseEvent) : App F × Action :=
  if app.overlay.isSome then (app, .none)
  else
    let pos : Position := { x := mouse.column, y := mouse.row }
    match mouse.kind with
    | .downLeft => app.click cellMillis pos
    | .downRight =>
      (if app.detailArea.contains pos then { app with inspect := none } else app, .none)
    | kind =>
      match wheelDelta kind with
      | none => (app, .none)
      | some (rows, columns) => app.wheel pos rows columns

end Mouse

/-- The settings overlay's editable lines, in display order. -/
def settingsRows (app : App F) : List SettingsRow :=
  match app.config with
  | none => []
  | some config =>
    .globalInterval :: (List.range config.effective.providers.length).flatMap fun i =>
      [.providerEnabled i, .providerInterval i]

/-- The row under the cursor, if any. -/
def settingsRow (app : App F) : Option SettingsRow :=
  app.settingsRows[min app.settingsCursor (app.settingsRows.length - 1)]?

def moveSettingsCursor (app : App F) (delta : Int) : App F :=
  if app.settingsRows.length = 0 then app
  else
    { app with
      settingsCursor :=
        (clamp (app.settingsCursor + delta) 0 (app.settingsRows.length - 1)).toNat }

/-- Step the interval under the cursor by one rung, or toggle the boolean. -/
def editSettings (app : App F) (delta : Int) : Action :=
  match app.config, app.settingsRow with
  | some config, some .globalInterval =>
    let current := config.effective.pollIntervalSecs.getD config.effective.defaultPollIntervalSecs
    .editConfig (.globalPollInterval (some (stepInterval current delta)))
  | some config, some (.providerEnabled i) =>
    match config.effective.providers[i]? with
    | some provider => .editConfig (.providerEnabled provider.provider (!provider.enabled))
    | none => .none
  | some config, some (.providerInterval i) =>
    match config.effective.providers[i]? with
    | some provider => .editConfig (.providerPollInterval provider.provider
        (some (stepInterval provider.effectivePollIntervalSecs delta)))
    | none => .none
  | _, _ => .none

/-- Drop the override under the cursor. -/
def clearSetting (app : App F) : Action :=
  match app.config, app.settingsRow with
  | some _, some .globalInterval => .editConfig (.globalPollInterval none)
  | some config, some (.providerInterval i) =>
    match config.effective.providers[i]? with
    | some provider => .editConfig (.providerPollInterval provider.provider none)
    | none => .none
  | _, _ => .none

def handleSettingsKey (app : App F) (key : KeyEvent) : App F × Action :=
  match key.code with
  | .esc | .char 'q' | .char 's' => ({ app with overlay := none }, .none)
  | .char 'j' | .down => (app.moveSettingsCursor 1, .none)
  | .char 'k' | .up => (app.moveSettingsCursor (-1), .none)
  | .char '+' | .char '=' | .char 'l' | .right => (app, app.editSettings 1)
  | .char '-' | .char '_' | .char 'h' | .left => (app, app.editSettings (-1))
  | .enter | .char ' ' =>
    match app.settingsRow with
    | some (.providerEnabled _) => (app, app.editSettings 1)
    | _ => (app, .none)
  | .backspace | .delete => (app, app.clearSetting)
  | .char 'r' => (app, .loadConfig)
  | _ => (app, .none)

/-- Distinct providers currently displayed. -/
def providers (app : App F) : List ProviderId :=
  ((app.statuses.map fun s => s.account.provider).mergeSort
    fun a b => decide (a ≤ b)).destutter (· ≠ ·)

def pollSettled (app : App F) (account : AccountId) : App F :=
  { app with polling := app.polling.erase account }

/-- Clear the spinner for every account a refused poll targeted. -/
def pollRefused (app : App F) (provider : ProviderId) (account : Option AccountId) : App F :=
  { app with
    polling := app.polling \ ((app.statuses.filter fun s =>
      s.account.provider == provider && account.all (· == s.account.id)).map
        (·.account.id)).toFinset }

/-- Poll the account of the selected row. -/
def pollSelected (app : App F) : App F × Action :=
  match app.selectedRow.bind fun row => app.statuses[row.account]? with
  | some status =>
    ({ app with polling := insert status.account.id app.polling },
      .send [.pollNow status.account.provider (some status.account.id)])
  | none => (app, .none)

/-- Poll every provider. -/
def pollAll (app : App F) : App F × Action :=
  ({ app with polling := app.polling ∪ (app.statuses.map (·.account.id)).toFinset },
    .send (app.providers.map fun provider => .pollNow provider none))

/-- Esc puts the chart cursor away, then shuts the details, then steps back out of the detail
pane, and from the list hides it. -/
def escape (app : App F) : App F :=
  if app.inspect.isSome ∧ app.detail = .trend ∧ app.detailVisible = true then
    { app with inspect := none }
  else if app.activityDetails = true ∧ app.detail = .activity then
    { app with activityDetails := false }
  else if app.focus = .detail then { app with focus := .list }
  else { app with detailVisible := false }

/-- `j` and `k`: along the detail pane, or down and up the list. -/
def moveOrScroll (app : App F) (delta : Int) : App F × Action :=
  if app.detailFocused then app.scrollDetail delta
  else (app.moveSelection delta, .reloadDetail)

/-- `g`: the origin of the detail pane, or the first row. -/
def moveToStart (app : App F) : App F × Action :=
  if app.detailFocused then
    (if app.detail = .activity then app.selectActivity 0 else app).resetDetailScroll
  else (app.select 0, .reloadDetail)

/-- `G`: the far end of the detail pane, which for the chart is the present, or the last row. -/
def moveToEnd (app : App F) : App F × Action :=
  if app.detailFocused then
    match app.detail with
    | .trend => app.resetDetailScroll
    | .activity => (app.selectActivity (app.activity.length - 1), .none)
    | .health => ({ app with detailHscroll := app.detailHscrollMax }, .none)
  else if 0 < app.rows.length then (app.select (app.rows.length - 1), .reloadDetail)
  else (app, .reloadDetail)

def page (app : App F) (delta : Int) : App F :=
  if app.detail = .activity then app.moveActivityCursor delta else app.scrollDetailRows delta

/-- A pan is measured in fractions of the range; a zoom starts from the present. -/
def zoom (app : App F) (delta : Int) : App F × Action :=
  ({ app with inspect := none, range := app.range.shift delta, trendPanSecs := 0 }, .reloadDetail)

def toggleSplit (app : App F) : App F × Action :=
  { app with familySplit := !app.familySplit, inspect := none }.setTab .trend

def toggleDetailPane (app : App F) : App F × Action :=
  if app.detailVisible then ({ app with detailVisible := false, focus := .list }, .none)
  else ({ app with detailVisible := true }, .reloadDetail)

/-- Enter opens what the focused pane has to open, and polls from the list. -/
def enter (app : App F) : App F × Action :=
  if app.detailFocused then
    match app.detail with
    | .trend => app.toggleInspect
    | .activity => app.toggleDetails
    | .health => (app, .none)
  else app.pollSelected

def handleDashboardKey (app : App F) (key : KeyEvent) : App F × Action :=
  match key.code with
  | .char 'q' => (app, .quit)
  | .char 'Q' => ({ app with overlay := some .confirmShutdown }, .none)
  | .char '?' => ({ app with overlay := some .help }, .none)
  | .char 's' => ({ app with overlay := some .settings, settingsCursor := 0 }, .loadConfig)
  | .esc => (app.escape, .none)
  | .char 'j' | .down => app.moveOrScroll 1
  | .char 'k' | .up => app.moveOrScroll (-1)
  | .char 'h' | .left => app.focusPane .list
  | .char 'l' | .right => app.focusPane .detail
  | .char 'g' | .home => app.moveToStart
  | .char 'G' | .end => app.moveToEnd
  | .pageDown => (app.page detailPage, .none)
  | .pageUp => (app.page (-detailPage), .none)
  | .tab => app.setTab (app.detail.shift 1)
  | .backTab => app.setTab (app.detail.shift (-1))
  | .char '1' => app.setTab .trend
  | .char '2' => app.setTab .activity
  | .char '3' => app.setTab .health
  | .char '[' => app.zoom (-1)
  | .char ']' => app.zoom 1
  | .char 'v' => app.setTrendView (app.trendView.shift 1)
  | .char 'V' => app.setTrendView (app.trendView.shift (-1))
  | .char 'f' => app.toggleSplit
  | .char 'd' => app.toggleDetailPane
  | .enter => app.enter
  | .char '<' =>
    (if app.detailFocused then app.scrollDetailColumns (-detailHscrollStep) else app, .none)
  | .char '>' =>
    (if app.detailFocused then app.scrollDetailColumns detailHscrollStep else app, .none)
  | .char ',' =>
    if app.detailVisible = true ∧ app.detail = .trend then app.stepInspect (-1) else (app, .none)
  | .char '.' =>
    if app.detailVisible = true ∧ app.detail = .trend then app.stepInspect 1 else (app, .none)
  | .char 'r' => app.pollSelected
  | .char 'R' => app.pollAll
  | _ => (app, .none)

/-- Translate a key press into an action, changing the view's state. -/
def handleKey (app : App F) (key : KeyEvent) : App F × Action :=
  if key.press = false then (app, .none)
  else if key.control = true ∧ key.code = .char 'c' then (app, .quit)
  else
    match app.overlay with
    | some .confirmShutdown =>
      if key.code = .char 'y' ∨ key.code = .char 'Y' then (app, .shutdownDaemon)
      else ({ app with overlay := none }, .none)
    | some .help => ({ app with overlay := none }, .none)
    | some .settings => app.handleSettingsKey key
    | none => app.handleDashboardKey key

end App

/-- What one frame records in the state: where things were drawn, and how far they overrun. -/
structure Frame (F : Type) where
  quotasArea : Rect
  detailArea : Rect
  chartHits : List (ChartHit F)
  viewTabs : List (Rect × TrendView)
  activityListArea : Rect
  activityDetailsArea : Rect
  detailBounds : Option (Nat × Nat)
  detailsBounds : Option Nat
  /-- Where the log was scrolled to bring its cursor into view. -/
  detailScroll : Nat
  activityFollow : Bool
  deriving DecidableEq, Repr

inductive AppInput (F : Type) where
  | key (key : KeyEvent)
  | mouse (mouse : MouseEvent)
  | setStatuses (statuses : List (AccountStatus F ℚ))
  | setTrend (trend : Trend F)
  /-- Nothing is selected to chart. -/
  | dropTrend
  | setExtra (purpose : Purpose) (trend : Trend F)
  | setRecent (account : AccountId) (snapshots : List (QuotaSnapshot F))
  | setActivity (events : List (PollEvent F))
  | setHealth (health : List ProviderHealth)
  | setConfig (state : ConfigState)
  | pollSettled (account : AccountId)
  | pollRefused (provider : ProviderId) (account : Option AccountId)
  | draw (frame : Frame F)

namespace App

variable {F : Type}

/-- A pane the terminal is too short to show cannot hold the cursor. -/
def draw (app : App F) (frame : Frame F) : App F :=
  let app :=
    { app with
      focus := if frame.detailArea = Rect.zero then .list else app.focus
      quotasArea := frame.quotasArea, detailArea := frame.detailArea
      chartHits := frame.chartHits, viewTabs := frame.viewTabs
      activityListArea := frame.activityListArea
      activityDetailsArea := frame.activityDetailsArea
      detailScroll := frame.detailScroll, activityFollow := frame.activityFollow }
  let app := match frame.detailBounds with
    | some (columns, rows) => app.setDetailBounds columns rows
    | none => app
  match frame.detailsBounds with
  | some rows => app.setDetailsBounds rows
  | none => app

def step (cellMillis : (column width : Nat) → (secs : F) → Int) (app : App F) :
    AppInput F → App F
  | .key key => (app.handleKey key).1
  | .mouse mouse => (app.handleMouse cellMillis mouse).1
  | .setStatuses statuses => app.setStatuses statuses
  | .setTrend trend => app.setTrend trend
  | .dropTrend => { app with trend := none }
  | .setExtra purpose trend => app.setExtra purpose trend
  | .setRecent account snapshots => app.setRecent account snapshots
  | .setActivity events => { app with activity := events }
  | .setHealth health => { app with health := health }
  | .setConfig state => { app with config := some state }
  | .pollSettled account => app.pollSettled account
  | .pollRefused provider account => app.pollRefused provider account
  | .draw frame => app.draw frame

def run (cellMillis : (column width : Nat) → (secs : F) → Int) (inputs : List (AppInput F)) :
    App F :=
  inputs.foldl (step cellMillis) {}

end App
end Teiryo
