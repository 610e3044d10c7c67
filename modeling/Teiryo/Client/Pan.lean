import Teiryo.Client.Navigation
import Teiryo.Framework.Run

/-!
# A pan and a chart cursor belong to a series

Every key, click and refetch that changes the selection puts the chart back at the present and the
cursor away. A status refresh that moves the selection does not.
-/

namespace Teiryo
namespace App

variable {F : Type} {app app' : App F}

/-- What a step does to the pan and the chart cursor. -/
structure Follows (app app' : App F) : Prop where
  reset : app'.selection ≠ app.selection → app'.trendPanSecs = 0 ∧ app'.inspect = none
  nonneg : 0 ≤ app.trendPanSecs → 0 ≤ app'.trendPanSecs

theorem Steady.follows (h : Steady app app') : Follows app app' := by
  constructor
  · intro hmoved
    exact absurd (congrArg SelectionState.selection h.state) hmoved
  · exact h.nonneg

/-- A step that first does something steady. -/
theorem Follows.of_start {start : App F} (h : Follows start app') (hstart : Steady app start) :
    Follows app app' := by
  have hsel : start.selection = app.selection :=
    congrArg SelectionState.selection hstart.state
  constructor
  · intro hmoved
    apply h.reset
    rwa [hsel]
  · intro hnonneg
    exact h.nonneg (hstart.nonneg hnonneg)

private theorem follows_select (app : App F) (index : Nat) : Follows app (app.select index) := by
  by_cases h : app.selectionAt index = app.selection
  · constructor
    · intro hmoved
      exact absurd h hmoved
    · intro hpan
      simp [select, syncListState, h, hpan]
  · constructor
    · intro _
      simp [select, syncListState, h]
    · intro hpan
      simp [select, syncListState, h]

theorem Moves.follows {navigates : Prop} (h : Moves navigates app app') : Follows app app' := by
  by_cases hnav : navigates
  · obtain ⟨start, index, hsteady, -, rfl⟩ := h.moves hnav
    exact (follows_select start index).of_start hsteady
  · exact (h.steady hnav).follows

variable (cellMillis : (column width : Nat) → (secs : F) → Int)

private theorem setStatuses_same (app : App F) (statuses : List (AccountStatus F ℚ)) :
    (app.setStatuses statuses).trendPanSecs = app.trendPanSecs ∧
      (app.setStatuses statuses).inspect = app.inspect := by
  unfold setStatuses
  dsimp only
  split
  · split
    · exact ⟨rfl, rfl⟩
    · exact ⟨rfl, rfl⟩
  · exact ⟨rfl, rfl⟩

/-- What the selection is after a refresh. -/
theorem setStatuses_selection (app : App F) (statuses : List (AccountStatus F ℚ)) :
    (app.setStatuses statuses).selection =
      if app.userMoved then
        if indexOf (statuses.mergeSort statusLe) app.selection = none then
          if 0 < (rowsOf (statuses.mergeSort statusLe)).length then
            selectionOf (statuses.mergeSort statusLe)
              (min (app.selectedIndex.getD 0)
                ((rowsOf (statuses.mergeSort statusLe)).length - 1))
          else none
        else app.selection
      else selectionOf (statuses.mergeSort statusLe)
        ((firstWindowRowOf (statuses.mergeSort statusLe)).getD 0) := by
  unfold setStatuses
  dsimp only
  split
  · split
    · rename_i hmoved hgone
      have hindex : indexOf (statuses.mergeSort statusLe) app.selection = none := hgone
      rw [if_pos hindex]
      rfl
    · rename_i hmoved hstays
      have hindex : indexOf (statuses.mergeSort statusLe) app.selection ≠ none := hstays
      rw [if_neg hindex]
      rfl
  · rfl

private theorem indexOf_selectionOf {statuses : List (AccountStatus F ℚ)} {index : Nat}
    {selection : Selection} (h : selectionOf statuses index = some selection) :
    indexOf statuses (some selection) ≠ none := by
  unfold selectionOf at h
  obtain ⟨row, hrow, hselection⟩ := Option.bind_eq_some_iff.mp h
  intro hnone
  have hall := List.findIdx?_eq_none_iff.mp hnone row (List.mem_of_getElem? hrow)
  rw [hselection, beq_self_eq_true] at hall
  cases hall

private theorem accountRows_selection {statuses : List (AccountStatus F ℚ)} {ai : Nat}
    {status : AccountStatus F ℚ} (hstatus : statuses[ai]? = some status) {row : RowRef}
    (hrow : row ∈ accountRows ai status) : (rowSelection statuses row).isSome := by
  rcases List.mem_cons.mp hrow with rfl | hrow
  · simp [rowSelection, hstatus]
  · obtain ⟨wi, hwi, rfl⟩ := List.mem_map.mp hrow
    have hlt : wi < status.windows.length := List.mem_range.mp hwi
    simp [rowSelection, hstatus, hlt]

private theorem selectionOf_isSome {statuses : List (AccountStatus F ℚ)} {index : Nat}
    (h : index < (rowsOf statuses).length) : (selectionOf statuses index).isSome := by
  unfold selectionOf
  rw [List.getElem?_eq_getElem h]
  have hmem : (rowsOf statuses)[index] ∈ rowsOf statuses := List.getElem_mem h
  obtain ⟨entry, hentry, hrow⟩ := List.mem_flatMap.mp hmem
  have hstatus : statuses[entry.2]? = some entry.1 := List.mem_zipIdx_iff_getElem?.mp hentry
  exact accountRows_selection hstatus hrow

/-- The refreshed list still has the selected row, or, until the user has moved the selection,
has it as its first window. -/
def RefreshKeeps (app : App F) (statuses : List (AccountStatus F ℚ)) : Prop :=
  let sorted := statuses.mergeSort statusLe
  if app.userMoved then indexOf sorted app.selection ≠ none ∨ app.selection = none ∧ sorted = []
  else selectionOf sorted ((firstWindowRowOf sorted).getD 0) = app.selection

private theorem rowsOf_eq_nil_iff {statuses : List (AccountStatus F ℚ)} :
    rowsOf statuses = [] ↔ statuses = [] := by
  cases statuses with
  | nil => simp [rowsOf]
  | cons status rest => simp [rowsOf, List.zipIdx_cons, accountRows]

/-- A refresh leaves the selection as it is exactly when its list keeps it. -/
theorem setStatuses_selection_eq_iff (app : App F) (statuses : List (AccountStatus F ℚ)) :
    (app.setStatuses statuses).selection = app.selection ↔ RefreshKeeps app statuses := by
  rw [setStatuses_selection]
  unfold RefreshKeeps
  dsimp only
  by_cases hmoved : app.userMoved = true
  · rw [if_pos hmoved, if_pos hmoved]
    by_cases hgone : indexOf (statuses.mergeSort statusLe) app.selection = none
    · rw [if_pos hgone]
      by_cases hrows : 0 < (rowsOf (statuses.mergeSort statusLe)).length
      · rw [if_pos hrows]
        have hlt : min (app.selectedIndex.getD 0)
            ((rowsOf (statuses.mergeSort statusLe)).length - 1) <
            (rowsOf (statuses.mergeSort statusLe)).length := by omega
        obtain ⟨row, hrow⟩ := Option.isSome_iff_exists.mp (selectionOf_isSome hlt)
        constructor
        · intro hsame
          -- the row fallen back to resolves, and the selection did not
          rw [hrow] at hsame
          rw [← hsame] at hgone
          exact absurd hgone (indexOf_selectionOf hrow)
        · rintro (hstays | ⟨-, hempty⟩)
          · exact absurd hgone hstays
          · rw [rowsOf_eq_nil_iff.mpr hempty] at hrows
            exact absurd hrows (by simp)
      · rw [if_neg hrows]
        have hempty : statuses.mergeSort statusLe = [] := by
          rw [← rowsOf_eq_nil_iff, ← List.length_eq_zero_iff]
          omega
        constructor
        · intro hsame
          exact .inr ⟨hsame.symm, hempty⟩
        · rintro (hstays | ⟨hnone, -⟩)
          · exact absurd hgone hstays
          · exact hnone.symm
    · rw [if_neg hgone]
      exact ⟨fun _ => .inl hgone, fun _ => rfl⟩
  · rw [if_neg hmoved, if_neg hmoved]

/-- A pan and a chart cursor belong to the selected series: a step that changes the selection
leaves neither, the pan is never negative, and a series just installed bounds it. -/
def PanFollows (app : App F) (input : AppInput F) : Prop :=
  ((app.step cellMillis input).selection ≠ app.selection →
    (app.step cellMillis input).trendPanSecs = 0 ∧ (app.step cellMillis input).inspect = none) ∧
  0 ≤ (app.step cellMillis input).trendPanSecs ∧
  ∀ trend, input = .setTrend trend →
    (app.step cellMillis input).trendPanSecs ≤ (app.step cellMillis input).maxTrendPanSecs

/-- A status refresh keeps the selection, or there is no pan and no chart cursor to carry over. -/
def RefreshFollows (app : App F) : AppInput F → Prop
  | .setStatuses statuses =>
    RefreshKeeps app statuses ∨ app.trendPanSecs = 0 ∧ app.inspect = none
  | _ => True

/-- Every input but a status refresh keeps the coupling. -/
theorem follows_step (app : App F) (input : AppInput F)
    (hinput : ∀ statuses, input ≠ .setStatuses statuses) :
    Follows app (app.step cellMillis input) :=
  (moves_step cellMillis app input hinput).follows

private theorem step_nonneg (app : App F) (input : AppInput F) (h : 0 ≤ app.trendPanSecs) :
    0 ≤ (app.step cellMillis input).trendPanSecs := by
  by_cases hinput : ∃ statuses, input = .setStatuses statuses
  · obtain ⟨statuses, rfl⟩ := hinput
    change 0 ≤ (app.setStatuses statuses).trendPanSecs
    rw [(setStatuses_same app statuses).1]
    exact h
  · exact (follows_step cellMillis app input fun statuses heq => hinput ⟨statuses, heq⟩).nonneg h

/-- One step, from a state with a pan into the past or none. -/
theorem panFollows_iff (app : App F) (input : AppInput F) (h : 0 ≤ app.trendPanSecs) :
    PanFollows cellMillis app input ↔ RefreshFollows app input := by
  have hnonneg := step_nonneg cellMillis app input h
  by_cases hinput : ∃ statuses, input = .setStatuses statuses
  · obtain ⟨statuses, rfl⟩ := hinput
    obtain ⟨hpan, hinspect⟩ := setStatuses_same app statuses
    have hkeeps := setStatuses_selection_eq_iff app statuses
    constructor
    · intro hfollows
      by_cases hsame : (app.setStatuses statuses).selection = app.selection
      · exact .inl (hkeeps.mp hsame)
      · obtain ⟨hzero, hnone⟩ := hfollows.1 hsame
        exact .inr ⟨hpan.symm.trans hzero, hinspect.symm.trans hnone⟩
    · intro hrefresh
      refine ⟨?_, hnonneg, nofun⟩
      intro hmoved
      rcases hrefresh with hkept | ⟨hzero, hnone⟩
      · exact absurd (hkeeps.mpr hkept) hmoved
      · exact ⟨hpan.trans hzero, hinspect.trans hnone⟩
  · have hfollows := follows_step cellMillis app input fun statuses heq => hinput ⟨statuses, heq⟩
    have hrefresh : RefreshFollows app input := by
      cases input with
      | setStatuses statuses => exact absurd ⟨statuses, rfl⟩ hinput
      | _ => trivial
    refine ⟨fun _ => hrefresh, fun _ => ⟨hfollows.reset, hnonneg, ?_⟩⟩
    rintro trend rfl
    exact setTrend_pan_le app trend

private theorem stepsMeet_panFollows_iff (app : App F) (h : 0 ≤ app.trendPanSecs)
    (inputs : List (AppInput F)) :
    StepsMeet (step cellMillis) (PanFollows cellMillis) app inputs ↔
      StepsMeet (step cellMillis) RefreshFollows app inputs := by
  induction inputs generalizing app with
  | nil => simp
  | cons input inputs ih =>
    rw [stepsMeet_cons, stepsMeet_cons, panFollows_iff cellMillis app input h,
      ih _ (step_nonneg cellMillis app input h)]

/-- In every run of the TUI, the pan and the chart cursor belong to the selected series in each
step if and only if every status refresh of the run keeps the selection, or finds no pan and no
chart cursor. -/
theorem pan_follows_selection (inputs : List (AppInput F)) :
    StepsMeet (step cellMillis) (PanFollows cellMillis) {} inputs ↔
      StepsMeet (step cellMillis) RefreshFollows {} inputs :=
  stepsMeet_panFollows_iff cellMillis {} (le_refl 0) inputs

/-- A window of five hours. -/
def fiveHourWindow (id : String) : WindowView ℚ ℚ where
  window := {
    id := ⟨id⟩, label := id, scope := .accountWide, resetKind := .rolling 18000000000000
    unit := .percent, used := 34, limit := some 100, resetAt := none }
  hint := { style := .percent, warnThreshold := 3 / 4, criticalThreshold := 9 / 10, note := none }
  observedStart := none

def oneAccount (windows : List String) : AccountStatus ℚ ℚ where
  account := { id := ⟨"max"⟩, provider := "claude", label := "Max" }
  windows := windows.map fiveHourWindow
  lastPoll := none
  lastSuccess := none
  pollIntervalSecs := 180

/-- Ten days of history of one window. -/
def tenDays (window : String) : Trend ℚ where
  account := ⟨"max"⟩
  window := ⟨window⟩
  title := "Max — " ++ window
  snapshots := [{
    pollId := 1, ts := Duration.days 10, window := ⟨window⟩, label := window, unit := .percent
    used := 34, limit := some 100, resetAt := none }]
  rollovers := []
  range := .h24
  «until» := Duration.days 10
  earliest := some 0
  fetchedAt := Duration.days 10

/-- The chart is panned back, its cursor put out, and then the window is no longer reported. -/
def windowDropped : List (AppInput ℚ) :=
  [.setStatuses [oneAccount ["session_5h", "weekly"]], .setTrend (tenDays "session_5h"),
    .key { code := .char 'l' }, .key { code := .char 'k' }, .key { code := .char '.' },
    .setStatuses [oneAccount ["weekly"]]]

theorem pan_outlives_selection :
    ¬ StepsMeet (step fun _ _ _ => 0) (PanFollows fun _ _ _ => 0) {} windowDropped := by
  intro h
  obtain ⟨-, -, -, -, -, hlast, -⟩ := h
  have hzero := (hlast.1 (by decide +kernel)).1
  exact absurd hzero (by decide +kernel)

end App
end Teiryo
