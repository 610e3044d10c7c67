import Teiryo.Core.Wire
import Mathlib.Data.Finset.Insert
import Mathlib.Data.List.Destutter

/-!
# The TUI's state

What the dashboard holds, the rows it lists, the series it charts and what a refresh does to them,
following `teiryo/src/app.rs`. Keys and the mouse come after.
-/

namespace Teiryo

/-- The variant `delta` places on, around the end. -/
def shiftAround {α : Type} [DecidableEq α] (all : List α) (x : α) (delta : Int) : α :=
  all.getD (((all.findIdx? (· = x)).getD 0 + delta) % all.length).toNat x

/-- The variant `delta` places on, no further than the ends. -/
def shiftWithin {α : Type} [DecidableEq α] (all : List α) (x : α) (delta : Int) : α :=
  all.getD (max 0 (min ((all.findIdx? (· = x)).getD 0 + delta) (all.length - 1))).toNat x

/-- `isize::clamp`. -/
def clamp (x lo hi : Int) : Int := max lo (min x hi)

inductive DetailTab where
  | trend
  | activity
  | health
  deriving DecidableEq, Repr

namespace DetailTab

def all : List DetailTab := [trend, activity, health]

def shift (tab : DetailTab) (delta : Int) : DetailTab := shiftAround all tab delta

end DetailTab

/-- Which pane the cursor is in. -/
inductive Pane where
  | list
  | detail
  deriving DecidableEq, Repr

/-- How far back the trend chart looks. -/
inductive TimeRange where
  | h1
  | h6
  | h24
  | d7
  deriving DecidableEq, Repr

namespace TimeRange

def all : List TimeRange := [h1, h6, h24, d7]

def duration : TimeRange → Duration
  | h1 => Duration.seconds 3600
  | h6 => Duration.seconds (6 * 3600)
  | h24 => Duration.seconds (24 * 3600)
  | d7 => Duration.days 7

def maxPoints (_ : TimeRange) : UInt32 := 480

def shift (range : TimeRange) (delta : Int) : TimeRange := shiftWithin all range delta

end TimeRange

inductive TrendView where
  | usagePace
  | forecast
  | allWindows
  | history
  deriving DecidableEq, Repr

namespace TrendView

def all : List TrendView := [usagePace, forecast, allWindows, history]

def shift (view : TrendView) (delta : Int) : TrendView := shiftAround all view delta

end TrendView

/-- What a series beyond the selected window's own is fetched for. -/
inductive Purpose where
  | sibling
  | allWindows
  | outcomes
  | burn
  deriving DecidableEq, Repr

def outcomesSpanDays : Int := 30

def burnSpanDays : Int := 7

def slowExtraTtl : Duration := Duration.seconds (10 * 60)

def burnMaxPoints : UInt32 := 1008

def recentPollLimit : UInt32 := 100

/-- Whether a window is a session-length one rather than a weekly one. -/
def isSession {F : Type} (view : WindowView F ℚ) : Bool :=
  view.window.span.any fun span => decide (span ≤ Duration.days 1)

/-- A cell of the terminal. -/
structure Position where
  x : Nat
  y : Nat
  deriving DecidableEq, Repr

structure Rect where
  x : Nat
  y : Nat
  width : Nat
  height : Nat
  deriving DecidableEq, Repr

namespace Rect

def zero : Rect := { x := 0, y := 0, width := 0, height := 0 }

/-- One past the last column; `u16` addition saturates. -/
def right (r : Rect) : Nat := min (r.x + r.width) 65535

def bottom (r : Rect) : Nat := min (r.y + r.height) 65535

def contains (r : Rect) (at_ : Position) : Bool :=
  decide (r.x ≤ at_.x) && decide (at_.x < r.right) && decide (r.y ≤ at_.y) &&
    decide (at_.y < r.bottom)

end Rect

/-- The x axis of a recorded chart. -/
inductive HitAxis (F : Type) where
  | time (left : DateTime) (secs : F) (window : WindowId)
  | bars (width gap : Nat) (readouts : List String)
  deriving DecidableEq, Repr

/-- Where a chart was drawn and what its columns mean. -/
structure ChartHit (F : Type) where
  plot : Rect
  axis : HitAxis F
  deriving DecidableEq, Repr

namespace ChartHit

variable {F : Type}

/-- The instant under `column`, for a time axis. `cellMillis` is the `f64` arithmetic for the
middle of a cell, as milliseconds from the left edge. -/
def instantAt (cellMillis : (column width : Nat) → (secs : F) → Int) (hit : ChartHit F)
    (column : Nat) : Option DateTime :=
  match hit.axis with
  | .time left secs _ =>
    if hit.plot.width = 0 ∨ column < hit.plot.x ∨ hit.plot.right ≤ column then none
    else some (left + Duration.milliseconds (cellMillis (column - hit.plot.x) hit.plot.width secs))
  | .bars _ _ _ => none

/-- The bar under `column`, for a bar chart. -/
def barAt (hit : ChartHit F) (column : Nat) : Option Nat :=
  match hit.axis with
  | .bars width gap readouts =>
    if column < hit.plot.x then none
    else
      let offset := column - hit.plot.x
      let stride := width + gap
      if stride = 0 ∨ width ≤ offset % stride then none
      else if offset / stride < readouts.length then some (offset / stride) else none
  | .time _ _ _ => none

end ChartHit

/-- What the chart cursor is on. -/
inductive Inspect where
  | reading (window : WindowId) (ts : DateTime)
  | bar (plot : Rect) (index : Nat)
  deriving DecidableEq, Repr

inductive Overlay where
  | help
  | confirmShutdown
  | settings
  deriving DecidableEq, Repr

/-- One editable line in the settings overlay. -/
inductive SettingsRow where
  | globalInterval
  | providerEnabled (i : Nat)
  | providerInterval (i : Nat)
  deriving DecidableEq, Repr

/-- One selectable dashboard row: an account header or one of its windows. -/
structure RowRef where
  account : Nat
  window : Option Nat
  deriving DecidableEq, Repr

/-- What is selected, by stable identity rather than row index. -/
structure Selection where
  account : AccountId
  window : Option WindowId
  deriving DecidableEq, Repr

/-- Loaded history for one window. -/
structure Trend (F : Type) where
  account : AccountId
  window : WindowId
  title : String
  snapshots : List (QuotaSnapshot F)
  rollovers : List (WindowRollover F)
  range : TimeRange
  «until» : DateTime
  earliest : Option DateTime
  fetchedAt : DateTime
  deriving DecidableEq, Repr

/-- One auxiliary series the Trend tab needs fetched. -/
structure ExtraQuery where
  purpose : Purpose
  account : AccountId
  window : WindowId
  title : String
  range : TimeRange
  «until» : DateTime
  request : Request
  deriving DecidableEq, Repr

/-- What the detail pane needs fetched for its current tab. -/
inductive DetailQuery where
  | trend (account : AccountId) (window : WindowId) (title : String) (range : TimeRange)
      («until» : DateTime) (request : Request) (extras : List ExtraQuery)
  | activity (request : Request)
  | health (request : Request)
  deriving DecidableEq, Repr

/-- What the event loop should do after a key press. -/
inductive Action where
  | none
  | quit
  | send (requests : List Request)
  | reloadDetail
  | loadConfig
  | editConfig (edit : ConfigEdit)
  | shutdownDaemon
  deriving DecidableEq, Repr

structure App (F : Type) where
  statuses : List (AccountStatus F ℚ) := []
  selection : Option Selection := none
  userMoved : Bool := false
  /-- The highlighted row of the quota list. -/
  listSelected : Option Nat := none
  focus : Pane := .list
  detail : DetailTab := .trend
  detailVisible : Bool := true
  range : TimeRange := .h24
  detailScroll : Nat := 0
  detailHscroll : Nat := 0
  detailHscrollMax : Nat := 0
  detailScrollMax : Nat := 0
  /-- How far the trend chart is panned into the past. -/
  trendPanSecs : Int := 0
  quotasArea : Rect := Rect.zero
  detailArea : Rect := Rect.zero
  trend : Option (Trend F) := none
  trendView : TrendView := .usagePace
  familySplit : Bool := false
  extras : Dict Purpose (Trend F) := Dict.empty
  chartHits : List (ChartHit F) := []
  viewTabs : List (Rect × TrendView) := []
  inspect : Option Inspect := none
  recent : Dict (AccountId × WindowId) (List (QuotaSnapshot F)) := Dict.empty
  activity : List (PollEvent F) := []
  activityCursor : Option PollId := none
  activityCursorIndex : Nat := 0
  activityFollow : Bool := false
  activityDetails : Bool := false
  activityListArea : Rect := Rect.zero
  activityDetailsArea : Rect := Rect.zero
  detailsScroll : Nat := 0
  detailsScrollMax : Nat := 0
  health : List ProviderHealth := []
  overlay : Option Overlay := none
  config : Option ConfigState := none
  settingsCursor : Nat := 0
  polling : Finset AccountId := ∅

namespace App

variable {F : Type}

/-- The order statuses are shown in: by provider, then by label. -/
def statusLe (a b : AccountStatus F ℚ) : Bool :=
  decide (a.account.provider < b.account.provider ∨
    a.account.provider = b.account.provider ∧ a.account.label ≤ b.account.label)

/-- The rows of one account: its header, then its windows. -/
def accountRows (ai : Nat) (status : AccountStatus F ℚ) : List RowRef :=
  { account := ai, window := none } ::
    (List.range status.windows.length).map fun wi => { account := ai, window := some wi }

def rowsOf (statuses : List (AccountStatus F ℚ)) : List RowRef :=
  statuses.zipIdx.flatMap fun entry => accountRows entry.2 entry.1

/-- Flattened selectable rows: each account header followed by its windows. -/
def rows (app : App F) : List RowRef := rowsOf app.statuses

/-- What a row stands for. -/
def rowSelection (statuses : List (AccountStatus F ℚ)) (row : RowRef) : Option Selection :=
  (statuses[row.account]?).bind fun status =>
    match row.window with
    | none => some { account := status.account.id, window := none }
    | some wi => (status.windows[wi]?).map fun view =>
      { account := status.account.id, window := some view.window.id }

def indexOf (statuses : List (AccountStatus F ℚ)) (selection : Option Selection) : Option Nat :=
  selection.bind fun selection =>
    (rowsOf statuses).findIdx? fun row => rowSelection statuses row == some selection

/-- Row index of the current selection, if it still resolves. -/
def selectedIndex (app : App F) : Option Nat := indexOf app.statuses app.selection

def selectedRow (app : App F) : Option RowRef :=
  app.selectedIndex.bind fun index => app.rows[index]?

/-- The selected window and its owning account, when a window row is selected. -/
def selectedWindow (app : App F) : Option (AccountStatus F ℚ × WindowView F ℚ) :=
  app.selectedRow.bind fun row =>
    (app.statuses[row.account]?).bind fun status =>
      row.window.bind fun wi => (status.windows[wi]?).map fun view => (status, view)

def selectionOf (statuses : List (AccountStatus F ℚ)) (index : Nat) : Option Selection :=
  ((rowsOf statuses)[index]?).bind (rowSelection statuses)

def selectionAt (app : App F) (index : Nat) : Option Selection := selectionOf app.statuses index

def firstWindowRowOf (statuses : List (AccountStatus F ℚ)) : Option Nat :=
  (rowsOf statuses).findIdx? fun row => row.window.isSome

def firstWindowRow (app : App F) : Option Nat := firstWindowRowOf app.statuses

def syncListState (app : App F) : App F := { app with listSelected := app.selectedIndex }

/-- Replace statuses (sorted for stable display), keeping the selection pinned to the same
account and window where it still exists. -/
def setStatuses (app : App F) (statuses : List (AccountStatus F ℚ)) : App F :=
  let statuses := statuses.mergeSort statusLe
  let previousIndex := app.selectedIndex
  let app := { app with statuses }
  let app :=
    if app.userMoved then
      if app.selectedIndex = none then
        let len := app.rows.length
        { app with
          selection :=
            if 0 < len then app.selectionAt (min (previousIndex.getD 0) (len - 1)) else none }
      else app
    else { app with selection := app.selectionAt (app.firstWindowRow.getD 0) }
  app.syncListState

/-- Move the selection, which also stops `setStatuses` from re-deriving its default. A pan and the
chart cursor belong to the series they were made on. -/
def select (app : App F) (index : Nat) : App F :=
  let target := app.selectionAt index
  let app := if target ≠ app.selection then { app with trendPanSecs := 0, inspect := none } else app
  { app with selection := target, userMoved := true }.syncListState

/-- Move the selection by `delta` rows, clamped to the list. -/
def moveSelection (app : App F) (delta : Int) : App F :=
  let len := app.rows.length
  if len = 0 then app
  else
    let current : Nat := app.selectedIndex.getD 0
    app.select (clamp (current + delta) 0 (len - 1)).toNat

/-- Right edge of the charted interval. -/
def trendUntil (app : App F) (now : DateTime) : DateTime :=
  now - Duration.seconds app.trendPanSecs

def trendKeyStepsPerRange : Int := 8

def trendAxisColumns : Int := 8

/-- Seconds one key press moves the chart. -/
def trendKeyStepSecs (app : App F) : Int :=
  max (Int.tdiv app.range.duration.numSeconds trendKeyStepsPerRange) 1

/-- Seconds one wheel notch moves the chart: one column of the plot. -/
def trendWheelStepSecs (app : App F) : Int :=
  let columns := max ((app.detailArea.width : Int) - trendAxisColumns) 1
  max (Int.tdiv app.range.duration.numSeconds columns) 1

/-- Whether a series is about a window. -/
def describes (trend : Trend F) (target : AccountStatus F ℚ × WindowView F ℚ) : Bool :=
  trend.account == target.1.account.id && trend.window == target.2.window.id

/-- The loaded series, but only when it belongs to the row the cursor is on. -/
def chartedTrend (app : App F) : Option (Trend F) :=
  app.selectedWindow.bind fun target => app.trend.filter (describes · target)

/-- The first window of the other family on the same account. -/
def siblingWindow (app : App F) : Option (AccountStatus F ℚ × WindowView F ℚ) :=
  app.selectedWindow.bind fun (status, view) =>
    (status.windows.find? fun w => w.window.resetAt.isSome && isSession w != isSession view).map
      fun w => (status, w)

/-- The window an auxiliary series must describe to be charted now. -/
def extraTarget (app : App F) : Purpose → Option (AccountStatus F ℚ × WindowView F ℚ)
  | .sibling => app.siblingWindow
  | _ => app.selectedWindow

/-- An auxiliary series, only while it still describes what the view is about. -/
def extra (app : App F) (purpose : Purpose) : Option (Trend F) :=
  (app.extraTarget purpose).bind fun target => (app.extras.get purpose).filter (describes · target)

/-- The series the current view draws `window`'s readings from. -/
def chartedSeries (app : App F) (window : WindowId) : Option (Trend F) :=
  match app.trendView with
  | .allWindows => app.extra .allWindows
  | .usagePace | .forecast =>
    (app.chartedTrend.toList ++ (app.extra .sibling).toList).find? fun t => t.window == window
  | .history => none

/-- When `window` was read, oldest first, in the series the current view draws it from. -/
def readingTimes (app : App F) (window : WindowId) : List DateTime :=
  let times := (app.chartedSeries window).toList.flatMap fun t =>
    (t.snapshots.filter fun s => s.window == window).map QuotaSnapshot.ts
  (times.mergeSort fun a b => decide (a ≤ b)).destutter (· ≠ ·)

/-- `Iterator::min_by_key`: the first of the least. -/
def minByKey {α : Type} (key : α → Nat) : List α → Option α
  | [] => none
  | x :: xs =>
    match minByKey key xs with
    | none => some x
    | some y => if key y < key x then some y else some x

/-- The reading of `window` nearest `ts`. -/
def nearestReading (app : App F) (window : WindowId) (ts : DateTime) : Option DateTime :=
  minByKey (fun t => (Duration.numMilliseconds (t - ts)).natAbs) (app.readingTimes window)

/-- Keep the chart cursor on a reading the charts still draw, the nearest one, or put it away
once its instant has scrolled off the series. -/
def resnapInspect (app : App F) : App F :=
  match app.inspect with
  | some (.reading window ts) =>
    { app with
      inspect := match (app.readingTimes window).head?, app.nearestReading window ts with
        | some first, some nearest => if first ≤ ts then some (.reading window nearest) else none
        | _, _ => none }
  | _ => app

/-- Install an auxiliary series. -/
def setExtra (app : App F) (purpose : Purpose) (trend : Trend F) : App F :=
  { app with extras := app.extras.insert purpose trend }.resnapInspect

/-- Furthest the chart may pan back, in seconds: far enough to bring the oldest stored point to
the left edge of the plot, and no further. -/
def maxTrendPanSecs (app : App F) : Int :=
  match app.chartedTrend with
  | none => 0
  | some trend =>
    match trend.earliest with
    | none => 0
    | some earliest =>
      max (Duration.numSeconds (trend.fetchedAt - earliest) - app.range.duration.numSeconds) 0

/-- Whether the chart is showing the oldest history there is. -/
def trendAtOldest (app : App F) : Bool :=
  decide (0 < app.maxTrendPanSecs) && decide (app.maxTrendPanSecs ≤ app.trendPanSecs)

/-- Install a freshly fetched series, re-clamping the pan to the history it reports. A view at the
left stop stays there. -/
def setTrend (app : App F) (trend : Trend F) : App F :=
  let pinned := app.trendAtOldest
  let app := { app with trend := some trend }
  let max := app.maxTrendPanSecs
  { app with
    trendPanSecs := if pinned then max else clamp app.trendPanSecs 0 max }.resnapInspect

/-- Install one account's recent history, bucketed per window. -/
def setRecent (app : App F) (account : AccountId) (snapshots : List (QuotaSnapshot F)) : App F :=
  let kept := app.recent.retain fun key _ => key.1 != account
  { app with
    recent := snapshots.foldl (fun recent snapshot =>
      recent.insert (account, snapshot.window)
        ((recent.get (account, snapshot.window)).getD [] ++ [snapshot])) kept }

/-- The auxiliary series a view charts. -/
def wantedExtras (app : App F) : List Purpose :=
  match app.trendView with
  | .usagePace | .forecast => if app.familySplit then [.sibling] else []
  | .allWindows => [.allWindows]
  | .history => [.outcomes, .burn]

/-- Whether a series is to be fetched again: a month of rollovers and a week of readings barely
move between polls. -/
def extraDue (app : App F) (now : DateTime) (purpose : Purpose) : Bool :=
  match purpose with
  | .outcomes | .burn =>
    (app.extra purpose).all fun t => decide (slowExtraTtl ≤ now - t.fetchedAt)
  | _ => true

def extraQuery (app : App F) («until» now : DateTime) (purpose : Purpose) : Option ExtraQuery :=
  (app.extraTarget purpose).map fun (status, view) =>
    let account := status.account.id
    let window := view.window.id
    let (since, upTo, windowFilter, maxPoints) :=
      match purpose with
      | .sibling => («until» - app.range.duration, «until», some window, app.range.maxPoints)
      | .allWindows => («until» - app.range.duration, «until», none, app.range.maxPoints)
      | .outcomes => (now - Duration.days outcomesSpanDays, now, some window, 1)
      | .burn => (now - Duration.days burnSpanDays, now, some window, burnMaxPoints)
    let pinned := (purpose = .sibling ∨ purpose = .allWindows) ∧ 0 < app.trendPanSecs
    { purpose, account, window, title := status.account.label ++ " — " ++ view.window.label
      range := app.range, «until» := upTo
      request := .history account windowFilter since (if pinned then some upTo else none)
        (some maxPoints) }

def extraQueries (app : App F) («until» now : DateTime) : List ExtraQuery :=
  (app.wantedExtras.filter (app.extraDue now)).filterMap (app.extraQuery «until» now)

/-- What the detail pane needs fetched right now, if anything. -/
def detailQuery (app : App F) (now : DateTime) : Option DetailQuery :=
  match app.detail with
  | .trend => app.selectedWindow.map fun (status, view) =>
    let upTo := app.trendUntil now
    .trend status.account.id view.window.id (status.account.label ++ " — " ++ view.window.label)
      app.range upTo
      (.history status.account.id (some view.window.id) (upTo - app.range.duration)
        (if 0 < app.trendPanSecs then some upTo else none) (some app.range.maxPoints))
      (app.extraQueries upTo now)
  | .activity => some (.activity (.recentPolls recentPollLimit))
  | .health => some (.health .providers)

end App
end Teiryo
