import Mathlib.Data.List.Destutter
import Teiryo.Client.Pan

/-!
# The chart cursor rests on a drawn reading

The chart cursor is an instant, and the series under it is replaced by refetches and chosen by the
selection and the view. A key or the mouse leaves it on the same chart, puts it away or puts it on a
reading; a refetch puts it on the nearest reading left, or away.
-/

namespace Teiryo

/-- The part of the state that says which readings are drawn. -/
structure ChartState (F : Type) where
  statuses : List (AccountStatus F ℚ)
  selection : Option Selection
  trendView : TrendView
  trend : Option (Trend F)
  extras : Dict Purpose (Trend F)

namespace App

variable {F : Type} {app app' : App F}

def chartState (app : App F) : ChartState F where
  statuses := app.statuses
  selection := app.selection
  trendView := app.trendView
  trend := app.trend
  extras := app.extras

private theorem readingTimes_congr (h : app'.chartState = app.chartState) :
    app'.readingTimes = app.readingTimes := by
  simp only [chartState, ChartState.mk.injEq] at h
  obtain ⟨hstatuses, hselection, hview, htrend, hextras⟩ := h
  funext window
  simp only [readingTimes, chartedSeries, chartedTrend, extra, extraTarget, siblingWindow,
    selectedWindow, selectedRow, selectedIndex, rows, hstatuses, hselection, hview, htrend, hextras]

/-- A bar, or a reading the current view draws. -/
def Draws (app : App F) : Inspect → Prop
  | .bar _ _ => True
  | .reading window ts => ts ∈ app.readingTimes window

/-- The chart cursor is away, on a bar, or on a reading the current view draws. -/
def Rests (app : App F) : Prop := ∀ inspect ∈ app.inspect, app.Draws inspect

private theorem rests_of_none (h : app.inspect = none) : app.Rests := by
  intro inspect hinspect
  rw [h] at hinspect
  cases hinspect

private theorem rests_of_some {inspect : Inspect} (h : app.inspect = some inspect)
    (hdraws : app.Draws inspect) : app.Rests := by
  intro inspect' hinspect
  rw [h] at hinspect
  cases hinspect
  exact hdraws

private theorem draws_congr (h : app'.chartState = app.chartState) (inspect : Inspect) :
    app'.Draws inspect ↔ app.Draws inspect := by
  cases inspect with
  | bar plot index => rfl
  | reading window ts => rw [Draws, Draws, readingTimes_congr h]

/-! ## The nearest reading -/

variable {α : Type} {key : α → Nat} {x y : α} {xs : List α}

private theorem minByKey_mem (h : minByKey key xs = some y) : y ∈ xs := by
  induction xs generalizing y with
  | nil => cases h
  | cons x xs ih =>
    rw [minByKey] at h
    cases hrest : minByKey key xs with
    | none =>
      rw [hrest] at h
      cases h
      exact List.mem_cons_self
    | some z =>
      rw [hrest] at h
      simp only at h
      split at h
      · cases h
        exact List.mem_cons_of_mem _ (ih hrest)
      · cases h
        exact List.mem_cons_self

private theorem minByKey_eq_none (h : minByKey key xs = none) : xs = [] := by
  cases xs with
  | nil => rfl
  | cons x xs =>
    rw [minByKey] at h
    split at h
    · cases h
    · split at h <;> cases h

private theorem minByKey_le (h : minByKey key xs = some y) : ∀ x ∈ xs, key y ≤ key x := by
  induction xs generalizing y with
  | nil => cases h
  | cons first xs ih =>
    rw [minByKey] at h
    cases hrest : minByKey key xs with
    | none =>
      rw [hrest] at h
      cases h
      rw [minByKey_eq_none hrest]
      simp
    | some z =>
      rw [hrest] at h
      simp only at h
      rw [List.forall_mem_cons]
      split at h
      · rename_i hless
        cases h
        exact ⟨hless.le, ih hrest⟩
      · rename_i hless
        cases h
        refine ⟨le_rfl, ?_⟩
        intro x hx
        exact (not_lt.mp hless).trans (ih hrest x hx)

private theorem nearestReading_mem {window : WindowId} {ts nearest : DateTime}
    (h : app.nearestReading window ts = some nearest) : nearest ∈ app.readingTimes window :=
  minByKey_mem h

private theorem readingTimes_sorted (app : App F) (window : WindowId) :
    (app.readingTimes window).Pairwise (· ≤ ·) := by
  apply List.Pairwise.sublist (List.destutter_sublist _ _)
  generalize (app.chartedSeries window).toList.flatMap (fun t =>
    (t.snapshots.filter fun s => s.window == window).map QuotaSnapshot.ts) = times
  have hsorted : (times.mergeSort fun a b => decide (a ≤ b)).Pairwise
      fun a b => decide (a ≤ b) = true :=
    List.pairwise_mergeSort (by simpa using fun a b c => Int.le_trans)
      (by simpa using Int.le_total) times
  simpa using hsorted

/-- An instant is older than the first reading when it is older than all of them. -/
theorem lt_head_iff {window : WindowId} {ts first : DateTime}
    (hfirst : (app.readingTimes window).head? = some first) :
    ts < first ↔ ∀ t ∈ app.readingTimes window, ts < t := by
  have hsorted := app.readingTimes_sorted window
  cases htimes : app.readingTimes window with
  | nil =>
    rw [htimes] at hfirst
    cases hfirst
  | cons head rest =>
    rw [htimes] at hfirst hsorted
    cases hfirst
    rw [List.forall_mem_cons]
    constructor
    · intro hlt
      exact ⟨hlt, fun t ht => hlt.trans_le ((List.pairwise_cons.mp hsorted).1 t ht)⟩
    · exact And.left

/-! ## Refetches -/

private theorem resnapInspect_chartState (app : App F) :
    app.resnapInspect.chartState = app.chartState := by
  unfold resnapInspect
  split
  · rfl
  · rfl

private theorem resnapInspect_other (h : ∀ window ts, app.inspect ≠ some (.reading window ts)) :
    app.resnapInspect = app := by
  unfold resnapInspect
  split
  · rename_i window ts hreading
    exact absurd hreading (h window ts)
  · rfl

/-- What becomes of a cursor on an instant: it is put away when every reading is newer, and on the
nearest reading otherwise. -/
theorem resnapInspect_reading {window : WindowId} {ts : DateTime}
    (h : app.inspect = some (.reading window ts)) :
    (∀ t ∈ app.readingTimes window, ts < t) ∧ app.resnapInspect.inspect = none ∨
      ¬ (∀ t ∈ app.readingTimes window, ts < t) ∧
        ∃ nearest, app.nearestReading window ts = some nearest ∧
          app.resnapInspect.inspect = some (.reading window nearest) := by
  unfold resnapInspect
  rw [h]
  simp only
  cases hfirst : (app.readingTimes window).head? with
  | none =>
    left
    rw [List.head?_eq_none_iff.mp hfirst]
    exact ⟨by simp, rfl⟩
  | some first =>
    cases hnearest : app.nearestReading window ts with
    | none =>
      rw [minByKey_eq_none hnearest] at hfirst
      cases hfirst
    | some nearest =>
      simp only
      split
      · rename_i hle
        right
        rw [← lt_head_iff hfirst]
        exact ⟨hle.not_gt, nearest, rfl, rfl⟩
      · rename_i hlt
        left
        rw [← lt_head_iff hfirst]
        exact ⟨not_le.mp hlt, rfl⟩

/-- A cursor kept on a reading is at the least of the distances from where it was. -/
def Nearest (distance : Duration → Nat) (app app' : App F) : Prop :=
  ∀ window ts ts', app.inspect = some (.reading window ts) →
    app'.inspect = some (.reading window ts') →
    ∀ t ∈ app'.readingTimes window, distance (ts' - ts) ≤ distance (t - ts)

/-- What a refetch makes of the chart cursor. -/
structure Refetched (app app' : App F) : Prop where
  rests : app'.Rests
  away : ∀ window ts, app.inspect = some (.reading window ts) →
    (app'.inspect = none ↔ ∀ t ∈ app'.readingTimes window, ts < t)
  kept : ∀ window ts inspect, app.inspect = some (.reading window ts) →
    app'.inspect = some inspect → ∃ ts', inspect = .reading window ts'
  nearest : Nearest (fun d => (Duration.numMilliseconds d).natAbs) app app'
  other : (∀ window ts, app.inspect ≠ some (.reading window ts)) → app'.inspect = app.inspect

private theorem refetched_resnapInspect {start : App F} (hinspect : start.inspect = app.inspect) :
    Refetched app start.resnapInspect := by
  have htimes := readingTimes_congr start.resnapInspect_chartState
  constructor
  case rests =>
    by_cases hreading : ∃ window ts, start.inspect = some (.reading window ts)
    · obtain ⟨window, ts, hreading⟩ := hreading
      rcases resnapInspect_reading hreading with ⟨-, hnone⟩ | ⟨-, nearest, hnearest, hsome⟩
      · exact rests_of_none hnone
      · apply rests_of_some hsome
        rw [draws_congr start.resnapInspect_chartState]
        exact nearestReading_mem hnearest
    · have hother : ∀ window ts, start.inspect ≠ some (.reading window ts) :=
        fun window ts h => hreading ⟨window, ts, h⟩
      rw [resnapInspect_other hother]
      intro inspect hinspect
      cases inspect with
      | bar plot index => trivial
      | reading window ts => exact absurd hinspect (hother window ts)
  case away =>
    intro window ts hreading
    rw [htimes]
    rcases resnapInspect_reading (hinspect.trans hreading) with
      ⟨hall, hnone⟩ | ⟨hnot, nearest, -, hsome⟩
    · exact iff_of_true hnone hall
    · exact iff_of_false (by simp [hsome]) hnot
  case kept =>
    intro window ts inspect hreading hsome
    rcases resnapInspect_reading (hinspect.trans hreading) with
      ⟨-, hnone⟩ | ⟨-, nearest, -, hnearest⟩
    · rw [hnone] at hsome
      cases hsome
    · rw [hnearest] at hsome
      cases hsome
      exact ⟨nearest, rfl⟩
  case nearest =>
    intro window ts ts' hreading hsome
    rw [htimes]
    rcases resnapInspect_reading (hinspect.trans hreading) with
      ⟨-, hnone⟩ | ⟨-, nearest, hleast, hnearest⟩
    · rw [hnone] at hsome
      cases hsome
    · rw [hnearest] at hsome
      cases hsome
      exact minByKey_le hleast
  case other =>
    intro hother
    rw [resnapInspect_other fun window ts h => hother window ts (hinspect.symm.trans h)]
    exact hinspect

private theorem refetched_setTrend (app : App F) (trend : Trend F) :
    Refetched app (app.setTrend trend) := refetched_resnapInspect rfl

private theorem refetched_setExtra (app : App F) (purpose : Purpose) (trend : Trend F) :
    Refetched app (app.setExtra purpose trend) := refetched_resnapInspect rfl

/-! ## Keys and the mouse -/

/-- A step that leaves the loaded series alone, and the cursor where it is on the same chart or
on what the charts draw. -/
structure CursorStep (app app' : App F) : Prop where
  trend : app'.trend = app.trend
  extras : app'.extras = app.extras
  cursor : (app'.inspect = app.inspect ∧ app'.chartState = app.chartState) ∨ app'.Rests

private theorem cursorStep_of_same (hchart : app'.chartState = app.chartState)
    (hinspect : app'.inspect = app.inspect) : CursorStep app app' where
  trend := congrArg ChartState.trend hchart
  extras := congrArg ChartState.extras hchart
  cursor := .inl ⟨hinspect, hchart⟩

private theorem cursorStep_of_none (htrend : app'.trend = app.trend)
    (hextras : app'.extras = app.extras) (hinspect : app'.inspect = none) : CursorStep app app' :=
  ⟨htrend, hextras, .inr (rests_of_none hinspect)⟩

private theorem cursorStep_of_put {target : Option Inspect}
    (htarget : ∀ inspect ∈ target, app.Draws inspect) :
    CursorStep app { app with inspect := target } where
  trend := rfl
  extras := rfl
  cursor := by
    right
    intro inspect hinspect
    have hchart : ({ app with inspect := target } : App F).chartState = app.chartState := rfl
    exact (draws_congr hchart inspect).mpr (htarget inspect hinspect)

/-- A step after something that neither moves the cursor nor changes the chart. -/
theorem CursorStep.of_start {start : App F} (h : CursorStep start app')
    (hchart : start.chartState = app.chartState) (hinspect : start.inspect = app.inspect) :
    CursorStep app app' := by
  refine ⟨h.trend.trans (congrArg ChartState.trend hchart),
    h.extras.trans (congrArg ChartState.extras hchart), ?_⟩
  rw [← hinspect, ← hchart]
  exact h.cursor

theorem CursorStep.rests (h : CursorStep app app') (hrests : app.Rests) : app'.Rests := by
  rcases h.cursor with ⟨hsame, hchart⟩ | hput
  · intro inspect hinspect
    rw [draws_congr hchart]
    exact hrests inspect (hsame ▸ hinspect)
  · exact hput

private theorem cursorStep_panTrend (app : App F) (secs : Int) :
    CursorStep app (app.panTrend secs).1 := by
  unfold panTrend
  dsimp only
  split
  · exact cursorStep_of_same rfl rfl
  · exact cursorStep_of_none rfl rfl rfl

private theorem cursorStep_setTab (app : App F) (tab : DetailTab) :
    CursorStep app (app.setTab tab).1 :=
  cursorStep_of_same rfl rfl

private theorem cursorStep_setTrendView (app : App F) (view : TrendView) :
    CursorStep app (app.setTrendView view).1 := by
  unfold setTrendView
  by_cases hview : view = app.trendView
  · rw [if_neg (not_not.mpr hview), hview]
    exact cursorStep_of_same rfl rfl
  · rw [if_pos hview]
    exact cursorStep_of_none rfl rfl rfl

private theorem cursorStep_focusPane (app : App F) (pane : Pane) :
    CursorStep app (app.focusPane pane).1 := by
  unfold focusPane
  split
  · exact cursorStep_of_same rfl rfl
  · exact cursorStep_of_same rfl rfl

private theorem cursorStep_resetDetailScroll (app : App F) :
    CursorStep app app.resetDetailScroll.1 := by
  unfold resetDetailScroll
  split
  · exact cursorStep_of_none rfl rfl rfl
  · exact cursorStep_of_same rfl rfl

private theorem cursorStep_toggleInspect (app : App F) : CursorStep app app.toggleInspect.1 := by
  unfold toggleInspect
  split
  · exact cursorStep_of_none rfl rfl rfl
  · split
    · exact cursorStep_of_same rfl rfl
    · apply cursorStep_of_put
      intro inspect hinspect
      obtain ⟨ts, hlast, rfl⟩ := Option.map_eq_some_iff.mp hinspect
      exact List.mem_of_getLast? hlast

private theorem cursorStep_stepInspect (app : App F) (delta : Int) :
    CursorStep app (app.stepInspect delta).1 := by
  unfold stepInspect
  split
  · dsimp only
    split
    · exact cursorStep_of_same rfl rfl
    · apply cursorStep_of_put
      intro inspect hinspect
      obtain ⟨ts, hts, rfl⟩ := Option.map_eq_some_iff.mp hinspect
      exact List.mem_of_getElem? hts
  · exact cursorStep_toggleInspect app

private theorem selectActivity_chart (app : App F) (index : Nat) :
    (app.selectActivity index).chartState = app.chartState ∧
      (app.selectActivity index).inspect = app.inspect := by
  unfold selectActivity
  dsimp only
  split
  · exact ⟨rfl, rfl⟩
  · exact ⟨rfl, rfl⟩

private theorem cursorStep_selectActivity (app : App F) (index : Nat) :
    CursorStep app (app.selectActivity index) :=
  cursorStep_of_same (selectActivity_chart app index).1 (selectActivity_chart app index).2

private theorem cursorStep_moveActivityCursor (app : App F) (delta : Int) :
    CursorStep app (app.moveActivityCursor delta) := by
  unfold moveActivityCursor
  split
  · exact cursorStep_selectActivity _ _
  · exact cursorStep_selectActivity _ _

private theorem cursorStep_toggleDetails (app : App F) : CursorStep app app.toggleDetails.1 := by
  unfold toggleDetails
  split
  · exact cursorStep_of_same (selectActivity_chart app 0).1 (selectActivity_chart app 0).2
  · exact cursorStep_of_same rfl rfl

private theorem cursorStep_clickActivity (app : App F) (pos : Position) :
    CursorStep app (app.clickActivity pos).1 := by
  unfold clickActivity
  split
  · dsimp only
    split
    · exact cursorStep_of_same rfl rfl
    · split
      · exact cursorStep_toggleDetails app
      · exact cursorStep_of_same (selectActivity_chart app _).1 (selectActivity_chart app _).2
  · exact cursorStep_of_same rfl rfl

private theorem cursorStep_scrollDetail (app : App F) (delta : Int) :
    CursorStep app (app.scrollDetail delta).1 := by
  unfold scrollDetail
  split
  · exact cursorStep_panTrend _ _
  · exact cursorStep_moveActivityCursor _ _
  · exact cursorStep_of_same rfl rfl

private theorem cursorStep_wheelDetail (app : App F) (pos : Position) (rows columns : Int) :
    CursorStep app (app.wheelDetail pos rows columns).1 := by
  unfold wheelDetail
  split
  · exact cursorStep_panTrend _ _
  · split
    · exact cursorStep_of_same rfl rfl
    · exact cursorStep_of_same rfl rfl
  · exact cursorStep_of_same rfl rfl

private theorem cursorStep_select (app : App F) (index : Nat) :
    CursorStep app (app.select index) := by
  unfold select
  dsimp only
  by_cases hsame : app.selectionAt index = app.selection
  · rw [if_neg (not_not.mpr hsame), hsame]
    exact cursorStep_of_same rfl rfl
  · rw [if_pos hsame]
    exact cursorStep_of_none rfl rfl rfl

private theorem cursorStep_moveSelection (app : App F) (delta : Int) :
    CursorStep app (app.moveSelection delta) := by
  unfold moveSelection
  dsimp only
  split
  · exact cursorStep_of_same rfl rfl
  · exact cursorStep_select _ _

section Mouse

variable (cellMillis : (column width : Nat) → (secs : F) → Int)

private theorem clickTarget_draws (app : App F) (hit : ChartHit F) (pos : Position) :
    ∀ inspect ∈ app.clickTarget cellMillis hit pos, app.Draws inspect := by
  intro inspect hinspect
  unfold clickTarget at hinspect
  split at hinspect
  · obtain ⟨ts, -, hnearest⟩ := Option.bind_eq_some_iff.mp hinspect
    obtain ⟨nearest, hmem, rfl⟩ := Option.map_eq_some_iff.mp hnearest
    exact nearestReading_mem hmem
  · obtain ⟨index, -, rfl⟩ := Option.map_eq_some_iff.mp hinspect
    trivial

private theorem cursorStep_pick (app : App F) (hit : ChartHit F) (pos : Position) :
    CursorStep app { app with
      inspect :=
        if app.clickTarget cellMillis hit pos = app.inspect then none
        else app.clickTarget cellMillis hit pos } := by
  apply cursorStep_of_put
  intro inspect hinspect
  split at hinspect
  · cases hinspect
  · exact clickTarget_draws cellMillis app hit pos inspect hinspect

private theorem cursorStep_click (app : App F) (pos : Position) :
    CursorStep app (app.click cellMillis pos).1 := by
  unfold click
  split
  · exact cursorStep_of_same rfl rfl
  · split
    · dsimp only
      split
      · split
        · exact (cursorStep_setTrendView { app with focus := .detail } _).of_start rfl rfl
        · split
          · exact cursorStep_of_same rfl rfl
          · exact (cursorStep_pick cellMillis { app with focus := .detail } _ pos).of_start rfl rfl
      · exact (cursorStep_clickActivity { app with focus := .detail } pos).of_start rfl rfl
      · exact cursorStep_of_same rfl rfl
    · exact cursorStep_of_same rfl rfl

private theorem cursorStep_wheel (app : App F) (pos : Position) (rows columns : Int) :
    CursorStep app (app.wheel pos rows columns).1 := by
  unfold wheel
  split
  · exact (cursorStep_wheelDetail { app with focus := .detail } pos rows columns).of_start rfl rfl
  · split
    · dsimp only
      split
      · exact cursorStep_of_same rfl rfl
      · exact (cursorStep_moveSelection { app with focus := .list } rows).of_start rfl rfl
    · exact cursorStep_of_same rfl rfl

private theorem cursorStep_handleMouse (app : App F) (mouse : MouseEvent) :
    CursorStep app (app.handleMouse cellMillis mouse).1 := by
  unfold handleMouse
  split
  · exact cursorStep_of_same rfl rfl
  · dsimp only
    split
    · exact cursorStep_click cellMillis app _
    · split
      · exact cursorStep_of_none rfl rfl rfl
      · exact cursorStep_of_same rfl rfl
    · split
      · exact cursorStep_of_same rfl rfl
      · exact cursorStep_wheel app _ _ _

end Mouse

private theorem cursorStep_moveSettingsCursor (app : App F) (delta : Int) :
    CursorStep app (app.moveSettingsCursor delta) := by
  unfold moveSettingsCursor
  split
  · exact cursorStep_of_same rfl rfl
  · exact cursorStep_of_same rfl rfl

private theorem cursorStep_handleSettingsKey (app : App F) (key : KeyEvent) :
    CursorStep app (app.handleSettingsKey key).1 := by
  unfold handleSettingsKey
  split
  all_goals first
    | exact cursorStep_of_same rfl rfl
    | exact cursorStep_moveSettingsCursor _ _
    | (split <;> exact cursorStep_of_same rfl rfl)

private theorem cursorStep_pollSelected (app : App F) : CursorStep app app.pollSelected.1 := by
  unfold pollSelected
  split
  · exact cursorStep_of_same rfl rfl
  · exact cursorStep_of_same rfl rfl

private theorem cursorStep_escape (app : App F) : CursorStep app app.escape := by
  unfold escape
  split
  · exact cursorStep_of_none rfl rfl rfl
  · split
    · exact cursorStep_of_same rfl rfl
    · split
      · exact cursorStep_of_same rfl rfl
      · exact cursorStep_of_same rfl rfl

private theorem cursorStep_moveOrScroll (app : App F) (delta : Int) :
    CursorStep app (app.moveOrScroll delta).1 := by
  unfold moveOrScroll
  split
  · exact cursorStep_scrollDetail _ _
  · exact cursorStep_moveSelection _ _

private theorem cursorStep_moveToStart (app : App F) : CursorStep app app.moveToStart.1 := by
  unfold moveToStart
  split
  · split
    · exact (cursorStep_resetDetailScroll (app.selectActivity 0)).of_start
        (selectActivity_chart app 0).1 (selectActivity_chart app 0).2
    · exact cursorStep_resetDetailScroll app
  · exact cursorStep_select _ _

private theorem cursorStep_moveToEnd (app : App F) : CursorStep app app.moveToEnd.1 := by
  unfold moveToEnd
  split
  · split
    · exact cursorStep_resetDetailScroll app
    · exact cursorStep_selectActivity _ _
    · exact cursorStep_of_same rfl rfl
  · split
    · exact cursorStep_select _ _
    · exact cursorStep_of_same rfl rfl

private theorem cursorStep_page (app : App F) (delta : Int) : CursorStep app (app.page delta) := by
  unfold page
  split
  · exact cursorStep_moveActivityCursor _ _
  · exact cursorStep_of_same rfl rfl

private theorem cursorStep_zoom (app : App F) (delta : Int) : CursorStep app (app.zoom delta).1 :=
  cursorStep_of_none rfl rfl rfl

private theorem cursorStep_toggleSplit (app : App F) : CursorStep app app.toggleSplit.1 :=
  cursorStep_of_none rfl rfl rfl

private theorem cursorStep_toggleDetailPane (app : App F) :
    CursorStep app app.toggleDetailPane.1 := by
  unfold toggleDetailPane
  split
  · exact cursorStep_of_same rfl rfl
  · exact cursorStep_of_same rfl rfl

private theorem cursorStep_enter (app : App F) : CursorStep app app.enter.1 := by
  unfold enter
  split
  · split
    · exact cursorStep_toggleInspect app
    · exact cursorStep_toggleDetails app
    · exact cursorStep_of_same rfl rfl
  · exact cursorStep_pollSelected app

private theorem cursorStep_handleDashboardKey (app : App F) (key : KeyEvent) :
    CursorStep app (app.handleDashboardKey key).1 := by
  unfold handleDashboardKey
  split
  · exact cursorStep_of_same rfl rfl
  · exact cursorStep_of_same rfl rfl
  · exact cursorStep_of_same rfl rfl
  · exact cursorStep_of_same rfl rfl
  · exact cursorStep_escape app
  · exact cursorStep_moveOrScroll app 1
  · exact cursorStep_moveOrScroll app 1
  · exact cursorStep_moveOrScroll app (-1)
  · exact cursorStep_moveOrScroll app (-1)
  · exact cursorStep_focusPane app .list
  · exact cursorStep_focusPane app .list
  · exact cursorStep_focusPane app .detail
  · exact cursorStep_focusPane app .detail
  · exact cursorStep_moveToStart app
  · exact cursorStep_moveToStart app
  · exact cursorStep_moveToEnd app
  · exact cursorStep_moveToEnd app
  · exact cursorStep_page app _
  · exact cursorStep_page app _
  · exact cursorStep_setTab app _
  · exact cursorStep_setTab app _
  · exact cursorStep_setTab app _
  · exact cursorStep_setTab app _
  · exact cursorStep_setTab app _
  · exact cursorStep_zoom app _
  · exact cursorStep_zoom app _
  · exact cursorStep_setTrendView app _
  · exact cursorStep_setTrendView app _
  · exact cursorStep_toggleSplit app
  · exact cursorStep_toggleDetailPane app
  · exact cursorStep_enter app
  · split
    · exact cursorStep_of_same rfl rfl
    · exact cursorStep_of_same rfl rfl
  · split
    · exact cursorStep_of_same rfl rfl
    · exact cursorStep_of_same rfl rfl
  · split
    · exact cursorStep_stepInspect app _
    · exact cursorStep_of_same rfl rfl
  · split
    · exact cursorStep_stepInspect app _
    · exact cursorStep_of_same rfl rfl
  · exact cursorStep_pollSelected app
  · exact cursorStep_of_same rfl rfl
  · exact cursorStep_of_same rfl rfl

private theorem cursorStep_handleKey (app : App F) (key : KeyEvent) :
    CursorStep app (app.handleKey key).1 := by
  unfold handleKey
  split
  · exact cursorStep_of_same rfl rfl
  · split
    · exact cursorStep_of_same rfl rfl
    · split
      · split
        · exact cursorStep_of_same rfl rfl
        · exact cursorStep_of_same rfl rfl
      · exact cursorStep_of_same rfl rfl
      · exact cursorStep_handleSettingsKey app key
      · exact cursorStep_handleDashboardKey app key

/-! ## Readings kept by the millisecond -/

end App

/-- A whole millisecond, as the database keeps instants. -/
def DateTime.OnMillis (t : DateTime) : Prop := ∃ n : Int, t = Duration.milliseconds n

/-- A series of readings of whole milliseconds. -/
def Trend.OnMillis {F : Type} (trend : Trend F) : Prop :=
  ∀ s ∈ trend.snapshots, DateTime.OnMillis s.ts

/-- An input whose series, if it brings one, was kept by the millisecond. -/
def AppInput.OnMillis {F : Type} : AppInput F → Prop
  | setTrend trend => trend.OnMillis
  | setExtra _ trend => trend.OnMillis
  | _ => True

private theorem DateTime.OnMillis.natAbs_sub {a b : DateTime} (ha : a.OnMillis) (hb : b.OnMillis) :
    (a - b).natAbs = (Duration.numMilliseconds (a - b)).natAbs * 1000000 := by
  obtain ⟨m, rfl⟩ := ha
  obtain ⟨n, rfl⟩ := hb
  have hsub : Duration.milliseconds m - Duration.milliseconds n = (m - n) * 1000000 :=
    (Int.sub_mul m n 1000000).symm
  have hmillis : Duration.numMilliseconds ((m - n) * 1000000) = m - n :=
    Int.mul_tdiv_cancel _ (by decide)
  rw [hsub, hmillis]
  exact Int.natAbs_mul _ _

namespace App

variable {F : Type} {app app' : App F}

/-- The loaded series were kept by the millisecond. -/
structure LoadedOnMillis (app : App F) : Prop where
  trend : ∀ trend ∈ app.trend, trend.OnMillis
  extras : ∀ purpose, ∀ trend ∈ app.extras.get purpose, trend.OnMillis

/-- So was what the cursor is on. -/
structure OnMillis (app : App F) : Prop where
  loaded : app.LoadedOnMillis
  cursor : ∀ window ts, app.inspect = some (.reading window ts) → ts.OnMillis

private theorem mem_readingTimes {window : WindowId} {ts : DateTime}
    (h : ts ∈ app.readingTimes window) :
    ∃ trend ∈ app.chartedSeries window, ∃ s ∈ trend.snapshots, s.ts = ts := by
  have hmem := (List.destutter_sublist _ _).subset h
  simp only [List.mem_mergeSort, List.mem_flatMap, Option.mem_toList, List.mem_map,
    List.mem_filter] at hmem
  obtain ⟨trend, htrend, s, ⟨hs, -⟩, hts⟩ := hmem
  exact ⟨trend, htrend, s, hs, hts⟩

private theorem mem_trend {trend : Trend F} (h : trend ∈ app.chartedTrend) : trend ∈ app.trend := by
  obtain ⟨target, -, hfilter⟩ := Option.bind_eq_some_iff.mp h
  exact (Option.filter_eq_some_iff.mp hfilter).1

private theorem mem_extras {purpose : Purpose} {trend : Trend F} (h : trend ∈ app.extra purpose) :
    trend ∈ app.extras.get purpose := by
  obtain ⟨target, -, hfilter⟩ := Option.bind_eq_some_iff.mp h
  exact (Option.filter_eq_some_iff.mp hfilter).1

private theorem chartedSeries_loaded {window : WindowId} {trend : Trend F}
    (h : trend ∈ app.chartedSeries window) :
    trend ∈ app.trend ∨ ∃ purpose, trend ∈ app.extras.get purpose := by
  have hfound : ((app.chartedTrend.toList ++ (app.extra .sibling).toList).find?
      fun t => t.window == window) = some trend →
        trend ∈ app.trend ∨ ∃ purpose, trend ∈ app.extras.get purpose := by
    intro hfind
    rcases List.mem_append.mp (List.mem_of_find?_eq_some hfind) with hmem | hmem
    · exact .inl (mem_trend (Option.mem_toList.mp hmem))
    · exact .inr ⟨.sibling, mem_extras (Option.mem_toList.mp hmem)⟩
  unfold chartedSeries at h
  cases hview : app.trendView with
  | allWindows =>
    rw [hview] at h
    exact .inr ⟨.allWindows, mem_extras h⟩
  | usagePace =>
    rw [hview] at h
    exact hfound h
  | forecast =>
    rw [hview] at h
    exact hfound h
  | history =>
    rw [hview] at h
    cases h

theorem LoadedOnMillis.readingTimes (h : app.LoadedOnMillis) {window : WindowId} {ts : DateTime}
    (hts : ts ∈ app.readingTimes window) : ts.OnMillis := by
  obtain ⟨trend, htrend, s, hs, rfl⟩ := mem_readingTimes hts
  rcases chartedSeries_loaded htrend with htrend | ⟨purpose, htrend⟩
  · exact h.trend trend htrend s hs
  · exact h.extras purpose trend htrend s hs

theorem LoadedOnMillis.rests (h : app.LoadedOnMillis) (hrests : app.Rests) : app.OnMillis :=
  ⟨h, fun _ _ hreading => h.readingTimes (hrests _ hreading)⟩

private theorem LoadedOnMillis.of_same (h : app.LoadedOnMillis) (htrend : app'.trend = app.trend)
    (hextras : app'.extras = app.extras) : app'.LoadedOnMillis :=
  ⟨htrend ▸ h.trend, hextras ▸ h.extras⟩

private theorem OnMillis.of_same (h : app.OnMillis) (htrend : app'.trend = app.trend)
    (hextras : app'.extras = app.extras) (hinspect : app'.inspect = app.inspect) : app'.OnMillis :=
  ⟨h.loaded.of_same htrend hextras, hinspect ▸ h.cursor⟩

private theorem OnMillis.cursorStep (h : app.OnMillis) (hstep : CursorStep app app') :
    app'.OnMillis := by
  rcases hstep.cursor with ⟨hsame, -⟩ | hrests
  · exact h.of_same hstep.trend hstep.extras hsame
  · exact (h.loaded.of_same hstep.trend hstep.extras).rests hrests

private theorem resnapInspect_loaded (app : App F) :
    app.resnapInspect.trend = app.trend ∧ app.resnapInspect.extras = app.extras := by
  have hchart := app.resnapInspect_chartState
  exact ⟨congrArg ChartState.trend hchart, congrArg ChartState.extras hchart⟩

theorem OnMillis.setTrend (h : app.OnMillis) {trend : Trend F} (htrend : trend.OnMillis) :
    (app.setTrend trend).OnMillis := by
  apply LoadedOnMillis.rests _ (refetched_setTrend app trend).rests
  unfold App.setTrend
  apply LoadedOnMillis.of_same _ (resnapInspect_loaded _).1 (resnapInspect_loaded _).2
  constructor
  · intro trend' hmem
    cases hmem
    exact htrend
  · exact h.loaded.extras

theorem OnMillis.setExtra (h : app.OnMillis) (purpose : Purpose) {trend : Trend F}
    (htrend : trend.OnMillis) : (app.setExtra purpose trend).OnMillis := by
  apply LoadedOnMillis.rests _ (refetched_setExtra app purpose trend).rests
  unfold App.setExtra
  apply LoadedOnMillis.of_same _ (resnapInspect_loaded _).1 (resnapInspect_loaded _).2
  constructor
  · exact h.loaded.trend
  · intro purpose' trend' hmem
    rw [Dict.get_insert] at hmem
    split at hmem
    · cases hmem
      exact htrend
    · exact h.loaded.extras purpose' trend' hmem

private theorem setStatuses_chart (app : App F) (statuses : List (AccountStatus F ℚ)) :
    (app.setStatuses statuses).trend = app.trend ∧
      (app.setStatuses statuses).extras = app.extras ∧
      (app.setStatuses statuses).inspect = app.inspect := by
  unfold setStatuses
  dsimp only
  split
  · split
    · exact ⟨rfl, rfl, rfl⟩
    · exact ⟨rfl, rfl, rfl⟩
  · exact ⟨rfl, rfl, rfl⟩

private theorem draw_chart (app : App F) (frame : Frame F) :
    (app.draw frame).trend = app.trend ∧ (app.draw frame).extras = app.extras ∧
      (app.draw frame).inspect = app.inspect := by
  unfold draw
  dsimp only
  split
  · split
    · exact ⟨rfl, rfl, rfl⟩
    · exact ⟨rfl, rfl, rfl⟩
  · split
    · exact ⟨rfl, rfl, rfl⟩
    · exact ⟨rfl, rfl, rfl⟩

variable (cellMillis : (column width : Nat) → (secs : F) → Int)

theorem OnMillis.step (h : app.OnMillis) (input : AppInput F) (hinput : input.OnMillis) :
    (app.step cellMillis input).OnMillis := by
  cases input with
  | key key => exact h.cursorStep (cursorStep_handleKey app key)
  | mouse mouse => exact h.cursorStep (cursorStep_handleMouse cellMillis app mouse)
  | setStatuses statuses =>
    obtain ⟨htrend, hextras, hinspect⟩ := setStatuses_chart app statuses
    exact h.of_same htrend hextras hinspect
  | setTrend trend => exact h.setTrend hinput
  | dropTrend => exact ⟨⟨nofun, h.loaded.extras⟩, h.cursor⟩
  | setExtra purpose trend => exact h.setExtra purpose hinput
  | setRecent account snapshots => exact h.of_same rfl rfl rfl
  | setActivity events => exact h.of_same rfl rfl rfl
  | setHealth health => exact h.of_same rfl rfl rfl
  | setConfig state => exact h.of_same rfl rfl rfl
  | pollSettled account => exact h.of_same rfl rfl rfl
  | pollRefused provider account => exact h.of_same rfl rfl rfl
  | draw frame =>
    obtain ⟨htrend, hextras, hinspect⟩ := draw_chart app frame
    exact h.of_same htrend hextras hinspect

private theorem onMillis_run (inputs : List (AppInput F)) (h : ∀ input ∈ inputs, input.OnMillis) :
    (run cellMillis inputs).OnMillis := by
  have hstart : ({} : App F).OnMillis := ⟨⟨nofun, nofun⟩, nofun⟩
  exact (stepsMeet_of_inputs ({} : App F) h).invariant hstart
    fun app input (hmillis : app.OnMillis) hinput => hmillis.step cellMillis input hinput

private theorem Refetched.nearest_exact (h : Refetched app app') (hbefore : app.OnMillis)
    (hafter : app'.OnMillis) : Nearest Int.natAbs app app' := by
  intro window ts ts' hreading hkept t ht
  have hts := hbefore.cursor window ts hreading
  have hleast : (Duration.numMilliseconds (ts' - ts)).natAbs ≤
      (Duration.numMilliseconds (t - ts)).natAbs := h.nearest window ts ts' hreading hkept t ht
  rw [(hafter.cursor window ts' hkept).natAbs_sub hts,
    (hafter.loaded.readingTimes ht).natAbs_sub hts]
  exact Nat.mul_le_mul_right _ hleast

/-- After any inputs, a refetch leaves the chart cursor at rest on the nearest reading left, or puts
it away once every reading left is newer, and a key or the mouse leaves a cursor at rest that was.
Where readings are of whole milliseconds, as the database keeps them, the nearest is exact. -/
theorem inspect_rests (inputs : List (AppInput F)) :
    (∀ trend, Refetched (run cellMillis inputs) ((run cellMillis inputs).setTrend trend)) ∧
    (∀ purpose trend, Refetched (run cellMillis inputs)
      ((run cellMillis inputs).setExtra purpose trend)) ∧
    (∀ key, (run cellMillis inputs).Rests → ((run cellMillis inputs).handleKey key).1.Rests) ∧
    (∀ mouse, (run cellMillis inputs).Rests →
      ((run cellMillis inputs).handleMouse cellMillis mouse).1.Rests) ∧
    ((∀ input ∈ inputs, input.OnMillis) → ∀ trend : Trend F, trend.OnMillis →
      Nearest Int.natAbs (run cellMillis inputs) ((run cellMillis inputs).setTrend trend) ∧
      ∀ purpose, Nearest Int.natAbs (run cellMillis inputs)
        ((run cellMillis inputs).setExtra purpose trend)) := by
  refine ⟨refetched_setTrend _, refetched_setExtra _, ?key, ?mouse, ?exact⟩
  case key =>
    intro key hrests
    exact (cursorStep_handleKey _ key).rests hrests
  case mouse =>
    intro mouse hrests
    exact (cursorStep_handleMouse cellMillis _ mouse).rests hrests
  case exact =>
    intro hinputs trend htrend
    have hbefore := onMillis_run cellMillis inputs hinputs
    constructor
    · exact (refetched_setTrend _ trend).nearest_exact hbefore (hbefore.setTrend htrend)
    · intro purpose
      exact (refetched_setExtra _ purpose trend).nearest_exact hbefore
        (hbefore.setExtra purpose htrend)

/-- The chart cursor is put out on the newest reading of a window. -/
def cursorOut : List (AppInput ℚ) :=
  [.setStatuses [oneAccount ["session_5h", "weekly"]], .setTrend (tenDays "session_5h"),
    .key { code := .char '.' }]

/-- Another reading of the same bucket is left, a minute earlier. -/
def anotherReading : Trend ℚ :=
  { tenDays "session_5h" with
    snapshots := (tenDays "session_5h").snapshots.map fun s =>
      { s with ts := Duration.days 10 - Duration.seconds 60 } }

private theorem tenDays_onMillis (window : String) : (tenDays window).OnMillis := by
  intro s hs
  rw [List.mem_singleton.mp hs]
  exact ⟨864000000, rfl⟩

private theorem anotherReading_onMillis : anotherReading.OnMillis := by
  intro s hs
  rw [List.mem_singleton.mp hs]
  exact ⟨863940000, rfl⟩

private theorem cursorOut_onMillis : ∀ input ∈ cursorOut, input.OnMillis := by
  simp only [cursorOut, List.forall_mem_cons]
  exact ⟨trivial, tenDays_onMillis _, trivial, nofun⟩

/-- The cursor moves to the reading a minute earlier, and another key leaves it at rest. -/
theorem inspect_rests_minute_earlier :
    ((run (fun _ _ _ => 0) cursorOut).setTrend anotherReading).inspect =
        some (.reading ⟨"session_5h"⟩ (Duration.days 10 - Duration.seconds 60)) ∧
      (∀ t ∈ ((run (fun _ _ _ => 0) cursorOut).setTrend anotherReading).readingTimes
          ⟨"session_5h"⟩,
        (Duration.days 10 - Duration.seconds 60 - Duration.days 10).natAbs ≤
          (t - Duration.days 10).natAbs) ∧
      (((run (fun _ _ _ => 0) cursorOut).setTrend anotherReading).handleKey
        { code := .char ',' }).1.Rests := by
  have hkept : ((run (fun _ _ _ => 0) cursorOut).setTrend anotherReading).inspect =
      some (.reading ⟨"session_5h"⟩ (Duration.days 10 - Duration.seconds 60)) := by
    decide +kernel
  refine ⟨hkept, ?_, ?_⟩
  · have hexact := (inspect_rests (fun _ _ _ => 0) cursorOut).2.2.2.2 cursorOut_onMillis
      anotherReading anotherReading_onMillis
    exact hexact.1 ⟨"session_5h"⟩ (Duration.days 10) _ (by decide +kernel) hkept
  · have hrests : (run (fun _ _ _ => 0) (cursorOut ++ [.setTrend anotherReading])).Rests :=
      ((inspect_rests (fun _ _ _ => 0) cursorOut).1 anotherReading).rests
    exact (inspect_rests (fun _ _ _ => 0) (cursorOut ++ [.setTrend anotherReading])).2.2.1
      { code := .char ',' } hrests

end App
end Teiryo
