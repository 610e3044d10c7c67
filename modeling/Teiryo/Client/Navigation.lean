import Teiryo.Client.AppInput

/-!
# Which inputs navigate

What each input does to the selection and to the pan of the chart. The keys of the quota list and
the wheel over it select a row, a status refresh replaces the rows, and nothing else touches the
selection.
-/

namespace Teiryo

/-- The part of the state that says what is selected. -/
structure SelectionState (F : Type) where
  statuses : List (AccountStatus F ℚ)
  selection : Option Selection
  userMoved : Bool
  listSelected : Option Nat

namespace App

variable {F : Type} {app app' : App F}

def selectionState (app : App F) : SelectionState F where
  statuses := app.statuses
  selection := app.selection
  userMoved := app.userMoved
  listSelected := app.listSelected

/-- A step that leaves what is selected alone, and the pan in the past or at the present. -/
structure Steady (app app' : App F) : Prop where
  state : app'.selectionState = app.selectionState
  nonneg : 0 ≤ app.trendPanSecs → 0 ≤ app'.trendPanSecs

private theorem steady_of_same (hstate : app'.selectionState = app.selectionState)
    (hpan : app'.trendPanSecs = app.trendPanSecs) : Steady app app' := by
  constructor
  · exact hstate
  · intro h
    rw [hpan]
    exact h

private theorem steady_of_present (hstate : app'.selectionState = app.selectionState)
    (hpan : app'.trendPanSecs = 0) : Steady app app' := by
  constructor
  · exact hstate
  · intro _
    rw [hpan]

/-- A step that first does something else that is steady. -/
theorem Steady.of_start {start : App F} (h : Steady start app') (hstart : Steady app start) :
    Steady app app' :=
  ⟨h.state.trans hstart.state, fun hpan => h.nonneg (hstart.nonneg hpan)⟩

private theorem maxTrendPanSecs_nonneg (app : App F) : 0 ≤ app.maxTrendPanSecs := by
  unfold maxTrendPanSecs
  split
  · exact le_refl _
  · split
    · exact le_refl _
    · exact le_max_right _ _

private theorem clamp_nonneg {x hi : Int} : 0 ≤ clamp x 0 hi := le_max_left _ _

private theorem clamp_le {x hi : Int} (h : 0 ≤ hi) : clamp x 0 hi ≤ hi :=
  max_le h (min_le_right _ _)

private theorem steady_panTrend (app : App F) (secs : Int) : Steady app (app.panTrend secs).1 := by
  unfold panTrend
  dsimp only
  split
  · exact steady_of_same rfl rfl
  · exact ⟨rfl, fun _ => clamp_nonneg⟩

private theorem steady_setTab (app : App F) (tab : DetailTab) : Steady app (app.setTab tab).1 :=
  steady_of_same rfl rfl

private theorem steady_setTrendView (app : App F) (view : TrendView) :
    Steady app (app.setTrendView view).1 := by
  unfold setTrendView
  split
  · exact steady_of_same rfl rfl
  · exact steady_of_same rfl rfl

private theorem steady_focusPane (app : App F) (pane : Pane) :
    Steady app (app.focusPane pane).1 := by
  unfold focusPane
  split
  · exact steady_of_same rfl rfl
  · exact steady_of_same rfl rfl

private theorem steady_resetDetailScroll (app : App F) : Steady app app.resetDetailScroll.1 := by
  unfold resetDetailScroll
  split
  · exact steady_of_present rfl rfl
  · exact steady_of_present rfl rfl

private theorem steady_toggleInspect (app : App F) : Steady app app.toggleInspect.1 := by
  unfold toggleInspect
  split
  · exact steady_of_same rfl rfl
  · split
    · exact steady_of_same rfl rfl
    · exact steady_of_same rfl rfl

private theorem steady_stepInspect (app : App F) (delta : Int) :
    Steady app (app.stepInspect delta).1 := by
  unfold stepInspect
  split
  · dsimp only
    split
    · exact steady_of_same rfl rfl
    · exact steady_of_same rfl rfl
  · exact steady_toggleInspect app

private theorem selectActivity_same (app : App F) (index : Nat) :
    (app.selectActivity index).selectionState = app.selectionState ∧
      (app.selectActivity index).trendPanSecs = app.trendPanSecs := by
  unfold selectActivity
  dsimp only
  split
  · exact ⟨rfl, rfl⟩
  · exact ⟨rfl, rfl⟩

private theorem steady_selectActivity (app : App F) (index : Nat) :
    Steady app (app.selectActivity index) :=
  steady_of_same (selectActivity_same app index).1 (selectActivity_same app index).2

private theorem steady_moveActivityCursor (app : App F) (delta : Int) :
    Steady app (app.moveActivityCursor delta) := by
  unfold moveActivityCursor
  split
  · exact steady_selectActivity _ _
  · exact steady_selectActivity _ _

private theorem steady_toggleDetails (app : App F) : Steady app app.toggleDetails.1 := by
  unfold toggleDetails
  split
  · exact steady_of_same (selectActivity_same app 0).1 (selectActivity_same app 0).2
  · exact steady_of_same rfl rfl

private theorem steady_clickActivity (app : App F) (pos : Position) :
    Steady app (app.clickActivity pos).1 := by
  unfold clickActivity
  split
  · dsimp only
    split
    · exact steady_of_same rfl rfl
    · split
      · exact steady_toggleDetails app
      · exact steady_of_same (selectActivity_same app _).1 (selectActivity_same app _).2
  · exact steady_of_same rfl rfl

private theorem steady_scrollDetail (app : App F) (delta : Int) :
    Steady app (app.scrollDetail delta).1 := by
  unfold scrollDetail
  split
  · exact steady_panTrend _ _
  · exact steady_moveActivityCursor _ _
  · exact steady_of_same rfl rfl

private theorem steady_wheelDetail (app : App F) (pos : Position) (rows columns : Int) :
    Steady app (app.wheelDetail pos rows columns).1 := by
  unfold wheelDetail
  split
  · exact steady_panTrend _ _
  · split
    · exact steady_of_same rfl rfl
    · exact steady_of_same rfl rfl
  · exact steady_of_same rfl rfl

variable (cellMillis : (column width : Nat) → (secs : F) → Int)

private theorem steady_click (app : App F) (pos : Position) :
    Steady app (app.click cellMillis pos).1 := by
  unfold click
  split
  · exact steady_of_same rfl rfl
  · split
    · dsimp only
      split
      · split
        · exact (steady_setTrendView { app with focus := .detail } _).of_start
            (steady_of_same rfl rfl)
        · split
          · exact steady_of_same rfl rfl
          · exact steady_of_same rfl rfl
      · exact (steady_clickActivity { app with focus := .detail } pos).of_start
          (steady_of_same rfl rfl)
      · exact steady_of_same rfl rfl
    · exact steady_of_same rfl rfl

private theorem steady_moveSettingsCursor (app : App F) (delta : Int) :
    Steady app (app.moveSettingsCursor delta) := by
  unfold moveSettingsCursor
  split
  · exact steady_of_same rfl rfl
  · exact steady_of_same rfl rfl

private theorem steady_handleSettingsKey (app : App F) (key : KeyEvent) :
    Steady app (app.handleSettingsKey key).1 := by
  unfold handleSettingsKey
  split
  all_goals first
    | exact steady_of_same rfl rfl
    | exact steady_moveSettingsCursor _ _
    | (split <;> exact steady_of_same rfl rfl)

private theorem steady_pollSelected (app : App F) : Steady app app.pollSelected.1 := by
  unfold pollSelected
  split
  · exact steady_of_same rfl rfl
  · exact steady_of_same rfl rfl

private theorem steady_escape (app : App F) : Steady app app.escape := by
  unfold escape
  split
  · exact steady_of_same rfl rfl
  · split
    · exact steady_of_same rfl rfl
    · split
      · exact steady_of_same rfl rfl
      · exact steady_of_same rfl rfl

private theorem steady_page (app : App F) (delta : Int) : Steady app (app.page delta) := by
  unfold page
  split
  · exact steady_moveActivityCursor _ _
  · exact steady_of_same rfl rfl

private theorem steady_zoom (app : App F) (delta : Int) : Steady app (app.zoom delta).1 :=
  steady_of_present rfl rfl

private theorem steady_toggleDetailPane (app : App F) : Steady app app.toggleDetailPane.1 := by
  unfold toggleDetailPane
  split
  · exact steady_of_same rfl rfl
  · exact steady_of_same rfl rfl

private theorem steady_enter (app : App F) : Steady app app.enter.1 := by
  unfold enter
  split
  · split
    · exact steady_toggleInspect app
    · exact steady_toggleDetails app
    · exact steady_of_same rfl rfl
  · exact steady_pollSelected app

private theorem resnapInspect_same (app : App F) :
    app.resnapInspect.selectionState = app.selectionState ∧
      app.resnapInspect.trendPanSecs = app.trendPanSecs ∧
      app.resnapInspect.maxTrendPanSecs = app.maxTrendPanSecs := by
  unfold resnapInspect
  split
  · exact ⟨rfl, rfl, rfl⟩
  · exact ⟨rfl, rfl, rfl⟩

private theorem steady_setExtra (app : App F) (purpose : Purpose) (trend : Trend F) :
    Steady app (app.setExtra purpose trend) := by
  have hsame := resnapInspect_same { app with extras := app.extras.insert purpose trend }
  exact steady_of_same hsame.1 hsame.2.1

/-- The state a series is installed in, before the chart cursor is put back on a reading. -/
theorem setTrend_spec (app : App F) (trend : Trend F) :
    ∃ panned : App F, app.setTrend trend = panned.resnapInspect ∧
      panned.selectionState = app.selectionState ∧ 0 ≤ panned.trendPanSecs ∧
      panned.trendPanSecs ≤ panned.maxTrendPanSecs := by
  have hmax := maxTrendPanSecs_nonneg { app with trend := some trend }
  refine ⟨_, rfl, rfl, ?_, ?_⟩
  · change 0 ≤ if app.trendAtOldest then _ else _
    split
    · exact hmax
    · exact clamp_nonneg
  · change (if app.trendAtOldest then _ else _) ≤
      ({ app with trend := some trend } : App F).maxTrendPanSecs
    split
    · exact le_refl _
    · exact clamp_le hmax

private theorem steady_setTrend (app : App F) (trend : Trend F) :
    Steady app (app.setTrend trend) := by
  obtain ⟨panned, heq, hstate, hnonneg, -⟩ := setTrend_spec app trend
  have hsame := resnapInspect_same panned
  rw [heq]
  constructor
  · exact hsame.1.trans hstate
  · intro _
    rw [hsame.2.1]
    exact hnonneg

theorem setTrend_pan_le (app : App F) (trend : Trend F) :
    (app.setTrend trend).trendPanSecs ≤ (app.setTrend trend).maxTrendPanSecs := by
  obtain ⟨panned, heq, -, -, hle⟩ := setTrend_spec app trend
  have hsame := resnapInspect_same panned
  rw [heq, hsame.2.1, hsame.2.2]
  exact hle

private theorem steady_draw (app : App F) (frame : Frame F) : Steady app (app.draw frame) := by
  unfold draw
  dsimp only
  split
  · split
    · exact steady_of_same rfl rfl
    · exact steady_of_same rfl rfl
  · split
    · exact steady_of_same rfl rfl
    · exact steady_of_same rfl rfl

/-- A step that selects a row of the list if it navigates, and is steady otherwise. -/
structure Moves (navigates : Prop) (app app' : App F) : Prop where
  moves : navigates → ∃ start index, Steady app start ∧
    (start.rows ≠ [] → index < start.rows.length) ∧ app' = start.select index
  steady : ¬ navigates → Steady app app'

theorem Steady.moves {navigates : Prop} (h : Steady app app') (hnot : ¬ navigates) :
    Moves navigates app app' :=
  ⟨fun hnav => absurd hnav hnot, fun _ => h⟩

/-- A step that first does something steady. -/
theorem Moves.of_start {navigates : Prop} {start : App F} (h : Moves navigates start app')
    (hstart : Steady app start) : Moves navigates app app' := by
  constructor
  · intro hnav
    obtain ⟨start', index, hsteady, hindex, heq⟩ := h.moves hnav
    exact ⟨start', index, hsteady.of_start hstart, hindex, heq⟩
  · intro hnot
    exact (h.steady hnot).of_start hstart

private theorem moves_of_same {navigates : Prop} (hnot : ¬ navigates)
    (hstate : app'.selectionState = app.selectionState)
    (hpan : app'.trendPanSecs = app.trendPanSecs) : Moves navigates app app' :=
  (steady_of_same hstate hpan).moves hnot

theorem Moves.congr {navigates navigates' : Prop} (h : Moves navigates app app')
    (hiff : navigates' ↔ navigates) : Moves navigates' app app' :=
  ⟨fun hnav => h.moves (hiff.mp hnav), fun hnot => h.steady (mt hiff.mpr hnot)⟩

private theorem moves_select {index : Nat} (h : app.rows ≠ [] → index < app.rows.length) :
    Moves True app (app.select index) :=
  ⟨fun _ => ⟨app, index, steady_of_same rfl rfl, h, rfl⟩, fun hnot => absurd trivial hnot⟩

private theorem moves_moveSelection (app : App F) (delta : Int) :
    Moves (app.rows ≠ []) app (app.moveSelection delta) := by
  unfold moveSelection
  dsimp only
  split
  · rename_i hlen
    apply (steady_of_same rfl rfl).moves
    intro hne
    exact hne (List.length_eq_zero_iff.mp hlen)
  · rename_i hlen
    refine (moves_select fun _ => ?_).congr (iff_of_true ?_ trivial)
    · have hle : clamp ((app.selectedIndex.getD 0 : Nat) + delta) 0 (app.rows.length - 1) ≤
          app.rows.length - 1 := clamp_le (by omega)
      have hnonneg : 0 ≤ clamp ((app.selectedIndex.getD 0 : Nat) + delta) 0
          (app.rows.length - 1) := clamp_nonneg
      omega
    · intro hnil
      exact hlen (List.length_eq_zero_iff.mpr hnil)

private theorem moves_moveOrScroll (app : App F) (delta : Int) :
    Moves (app.detailFocused = false ∧ app.rows ≠ []) app (app.moveOrScroll delta).1 := by
  unfold moveOrScroll
  split
  · rename_i hfocused
    apply (steady_scrollDetail _ _).moves
    simp [hfocused]
  · rename_i hfocused
    apply (moves_moveSelection app delta).congr
    simp [hfocused]

private theorem moves_moveToStart (app : App F) :
    Moves (app.detailFocused = false) app app.moveToStart.1 := by
  unfold moveToStart
  split
  · rename_i hfocused
    have hnot : ¬ app.detailFocused = false := by simp [hfocused]
    split
    · have hsame := selectActivity_same app 0
      exact ((steady_resetDetailScroll (app.selectActivity 0)).of_start
        (steady_of_same hsame.1 hsame.2)).moves hnot
    · exact (steady_resetDetailScroll app).moves hnot
  · rename_i hfocused
    have hmoves : Moves True app (app.select 0) := moves_select List.length_pos_iff.mpr
    exact hmoves.congr (by simp [hfocused])

private theorem moves_moveToEnd (app : App F) :
    Moves (app.detailFocused = false ∧ app.rows ≠ []) app app.moveToEnd.1 := by
  unfold moveToEnd
  split
  · rename_i hfocused
    have hnot : ¬ (app.detailFocused = false ∧ app.rows ≠ []) := by simp [hfocused]
    split
    · exact (steady_resetDetailScroll app).moves hnot
    · exact (steady_selectActivity _ _).moves hnot
    · exact moves_of_same hnot rfl rfl
  · rename_i hfocused
    split
    · rename_i hlen
      refine (moves_select fun _ => by omega).congr ?_
      simp [hfocused, List.length_pos_iff.mp hlen]
    · rename_i hlen
      apply (steady_of_same rfl rfl).moves
      rintro ⟨-, hne⟩
      exact hlen (List.length_pos_iff.mpr hne)

/-- The keys that select the first row, even of no rows. -/
def startKeys : List KeyCode := [.char 'g', .home]

/-- The keys that select a row when there is one. -/
def rowKeys : List KeyCode := [.char 'j', .down, .char 'k', .up, .char 'G', .end]

/-- A key of the quota list that selects a row. -/
def NavigatesKey (app : App F) (code : KeyCode) : Prop :=
  app.detailFocused = false ∧ (code ∈ startKeys ∨ code ∈ rowKeys ∧ app.rows ≠ [])

private theorem navigatesKey_start {code : KeyCode} (h : code ∈ startKeys) :
    NavigatesKey app code ↔ app.detailFocused = false := by
  simp [NavigatesKey, h]

private theorem navigatesKey_row {code : KeyCode} (hstart : code ∉ startKeys) (h : code ∈ rowKeys) :
    NavigatesKey app code ↔ app.detailFocused = false ∧ app.rows ≠ [] := by
  simp [NavigatesKey, hstart, h]

private theorem not_navigatesKey {code : KeyCode} (hstart : code ∉ startKeys)
    (hrow : code ∉ rowKeys) : ¬ NavigatesKey app code := by
  simp [NavigatesKey, hstart, hrow]

private theorem moves_handleDashboardKey (app : App F) (key : KeyEvent) :
    Moves (NavigatesKey app key.code) app (app.handleDashboardKey key).1 := by
  have hother : ∀ {code}, key.code = code → code ∉ startKeys → code ∉ rowKeys →
      ¬ NavigatesKey app key.code := by
    intro code hcode hstart hrow
    rw [hcode]
    exact not_navigatesKey hstart hrow
  have hrow : ∀ {code}, key.code = code → code ∉ startKeys → code ∈ rowKeys →
      (NavigatesKey app key.code ↔ app.detailFocused = false ∧ app.rows ≠ []) := by
    intro code hcode hstart hmem
    rw [hcode]
    exact navigatesKey_row hstart hmem
  have hstart : ∀ {code}, key.code = code → code ∈ startKeys →
      (NavigatesKey app key.code ↔ app.detailFocused = false) := by
    intro code hcode hmem
    rw [hcode]
    exact navigatesKey_start hmem
  unfold handleDashboardKey
  split
  all_goals rename_i hcode
  · exact moves_of_same (hother hcode (by decide) (by decide)) rfl rfl
  · exact moves_of_same (hother hcode (by decide) (by decide)) rfl rfl
  · exact moves_of_same (hother hcode (by decide) (by decide)) rfl rfl
  · exact moves_of_same (hother hcode (by decide) (by decide)) rfl rfl
  · exact (steady_escape app).moves (hother hcode (by decide) (by decide))
  · exact (moves_moveOrScroll app 1).congr (hrow hcode (by decide) (by decide))
  · exact (moves_moveOrScroll app 1).congr (hrow hcode (by decide) (by decide))
  · exact (moves_moveOrScroll app (-1)).congr (hrow hcode (by decide) (by decide))
  · exact (moves_moveOrScroll app (-1)).congr (hrow hcode (by decide) (by decide))
  · exact (steady_focusPane app .list).moves (hother hcode (by decide) (by decide))
  · exact (steady_focusPane app .list).moves (hother hcode (by decide) (by decide))
  · exact (steady_focusPane app .detail).moves (hother hcode (by decide) (by decide))
  · exact (steady_focusPane app .detail).moves (hother hcode (by decide) (by decide))
  · exact (moves_moveToStart app).congr (hstart hcode (by decide))
  · exact (moves_moveToStart app).congr (hstart hcode (by decide))
  · exact (moves_moveToEnd app).congr (hrow hcode (by decide) (by decide))
  · exact (moves_moveToEnd app).congr (hrow hcode (by decide) (by decide))
  · exact (steady_page app _).moves (hother hcode (by decide) (by decide))
  · exact (steady_page app _).moves (hother hcode (by decide) (by decide))
  · exact (steady_setTab app _).moves (hother hcode (by decide) (by decide))
  · exact (steady_setTab app _).moves (hother hcode (by decide) (by decide))
  · exact (steady_setTab app _).moves (hother hcode (by decide) (by decide))
  · exact (steady_setTab app _).moves (hother hcode (by decide) (by decide))
  · exact (steady_setTab app _).moves (hother hcode (by decide) (by decide))
  · exact (steady_zoom app _).moves (hother hcode (by decide) (by decide))
  · exact (steady_zoom app _).moves (hother hcode (by decide) (by decide))
  · exact (steady_setTrendView app _).moves (hother hcode (by decide) (by decide))
  · exact (steady_setTrendView app _).moves (hother hcode (by decide) (by decide))
  · exact moves_of_same (hother hcode (by decide) (by decide)) rfl rfl
  · exact (steady_toggleDetailPane app).moves (hother hcode (by decide) (by decide))
  · exact (steady_enter app).moves (hother hcode (by decide) (by decide))
  · split
    · exact moves_of_same (hother hcode (by decide) (by decide)) rfl rfl
    · exact moves_of_same (hother hcode (by decide) (by decide)) rfl rfl
  · split
    · exact moves_of_same (hother hcode (by decide) (by decide)) rfl rfl
    · exact moves_of_same (hother hcode (by decide) (by decide)) rfl rfl
  · split
    · exact (steady_stepInspect app _).moves (hother hcode (by decide) (by decide))
    · exact moves_of_same (hother hcode (by decide) (by decide)) rfl rfl
  · split
    · exact (steady_stepInspect app _).moves (hother hcode (by decide) (by decide))
    · exact moves_of_same (hother hcode (by decide) (by decide)) rfl rfl
  · exact (steady_pollSelected app).moves (hother hcode (by decide) (by decide))
  · exact moves_of_same (hother hcode (by decide) (by decide)) rfl rfl
  · -- the keys of no branch
    apply moves_of_same ?_ rfl rfl
    apply not_navigatesKey
    · intro hmem
      simp only [startKeys, List.mem_cons, List.not_mem_nil, or_false] at hmem
      rcases hmem with h | h
      · contradiction
      · contradiction
    · intro hmem
      simp only [rowKeys, List.mem_cons, List.not_mem_nil, or_false] at hmem
      rcases hmem with h | h | h | h | h | h <;> contradiction

/-- A key that reaches the dashboard, and what it is. -/
def NavigatesPress (app : App F) (key : KeyEvent) : Prop :=
  key.press = true ∧ app.overlay = none ∧ NavigatesKey app key.code

private theorem not_navigatesPress {key : KeyEvent} (h : app.overlay ≠ none) :
    ¬ NavigatesPress app key :=
  fun hpress => h hpress.2.1

private theorem moves_handleKey (app : App F) (key : KeyEvent) :
    Moves (NavigatesPress app key) app (app.handleKey key).1 := by
  unfold handleKey
  split
  · rename_i hpress
    exact moves_of_same (fun h => absurd h.1 (by simp [hpress])) rfl rfl
  · rename_i hpress
    split
    · rename_i hquit
      refine moves_of_same (fun h => ?_) rfl rfl
      have hkey := h.2.2
      rw [hquit.2] at hkey
      exact not_navigatesKey (by decide) (by decide) hkey
    · split
      · rename_i hoverlay
        have hnot : ¬ NavigatesPress app key := not_navigatesPress (by simp [hoverlay])
        split
        · exact moves_of_same hnot rfl rfl
        · exact moves_of_same hnot rfl rfl
      · rename_i hoverlay
        exact moves_of_same (not_navigatesPress (by simp [hoverlay])) rfl rfl
      · rename_i hoverlay
        exact (steady_handleSettingsKey app key).moves (not_navigatesPress (by simp [hoverlay]))
      · rename_i hoverlay
        apply (moves_handleDashboardKey app key).congr
        simp [NavigatesPress, hoverlay, hpress]

/-- A notch of the wheel along the rows of the quota list. -/
def NavigatesWheel (app : App F) (mouse : MouseEvent) : Prop :=
  app.overlay = none ∧ (∃ rows columns, wheelDelta mouse.kind = some (rows, columns) ∧ rows ≠ 0) ∧
    app.detailArea.contains { x := mouse.column, y := mouse.row } = false ∧
    app.quotasArea.contains { x := mouse.column, y := mouse.row } = true ∧ app.rows ≠ []

private theorem moves_wheel (app : App F) (pos : Position) (rows columns : Int) :
    Moves (rows ≠ 0 ∧ app.detailArea.contains pos = false ∧ app.quotasArea.contains pos = true ∧
      app.rows ≠ []) app (app.wheel pos rows columns).1 := by
  unfold wheel
  split
  · rename_i hdetail
    apply Steady.moves
    · exact (steady_wheelDetail { app with focus := .detail } pos rows columns).of_start
        (steady_of_same rfl rfl)
    · simp [hdetail]
  · rename_i hdetail
    split
    · rename_i hquotas
      dsimp only
      split
      · rename_i hzero
        exact moves_of_same (by simp [hzero]) rfl rfl
      · rename_i hzero
        have hmoves : Moves (app.rows ≠ []) app
            (({ app with focus := .list } : App F).moveSelection rows) :=
          (moves_moveSelection { app with focus := .list } rows).of_start (steady_of_same rfl rfl)
        exact hmoves.congr (by simp [hzero, hdetail, hquotas])
    · rename_i hquotas
      exact moves_of_same (by simp [hquotas]) rfl rfl

variable (cellMillis : (column width : Nat) → (secs : F) → Int)

private theorem moves_handleMouse (app : App F) (mouse : MouseEvent) :
    Moves (NavigatesWheel app mouse) app (app.handleMouse cellMillis mouse).1 := by
  unfold handleMouse
  split
  · rename_i hoverlay
    refine moves_of_same (fun h => ?_) rfl rfl
    rw [h.1] at hoverlay
    cases hoverlay
  · rename_i hoverlay
    have hnot : wheelDelta mouse.kind = none → ¬ NavigatesWheel app mouse := by
      intro hnone h
      obtain ⟨rows, columns, hsome, -⟩ := h.2.1
      rw [hnone] at hsome
      cases hsome
    dsimp only
    split
    · rename_i hkind
      exact (steady_click cellMillis app _).moves (hnot (by rw [hkind]; rfl))
    · rename_i hkind
      have hnav := hnot (by rw [hkind]; rfl)
      split
      · exact moves_of_same hnav rfl rfl
      · exact moves_of_same hnav rfl rfl
    · split
      · rename_i hnone
        exact moves_of_same (hnot hnone) rfl rfl
      · rename_i rows columns hsome
        apply (moves_wheel app _ rows columns).congr
        have hnone : app.overlay = none := by simpa using hoverlay
        simp [NavigatesWheel, hnone, hsome]

/-- The inputs that select a row of the list. -/
def Navigates (app : App F) : AppInput F → Prop
  | .key key => NavigatesPress app key
  | .mouse mouse => NavigatesWheel app mouse
  | _ => False

/-- Every input but a status refresh selects a row when it navigates and is steady otherwise. -/
theorem moves_step (app : App F) (input : AppInput F)
    (hinput : ∀ statuses, input ≠ .setStatuses statuses) :
    Moves (Navigates app input) app (app.step cellMillis input) := by
  cases input with
  | key key => exact moves_handleKey app key
  | mouse mouse => exact moves_handleMouse cellMillis app mouse
  | setStatuses statuses => exact absurd rfl (hinput statuses)
  | setTrend trend => exact (steady_setTrend app trend).moves id
  | dropTrend => exact moves_of_same id rfl rfl
  | setExtra purpose trend => exact (steady_setExtra app purpose trend).moves id
  | setRecent account snapshots => exact moves_of_same id rfl rfl
  | setActivity events => exact moves_of_same id rfl rfl
  | setHealth health => exact moves_of_same id rfl rfl
  | setConfig state => exact moves_of_same id rfl rfl
  | pollSettled account => exact moves_of_same id rfl rfl
  | pollRefused provider account => exact moves_of_same id rfl rfl
  | draw frame => exact (steady_draw app frame).moves id

end App
end Teiryo
