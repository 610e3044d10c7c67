import Teiryo.Client.Navigation
import Teiryo.Client.Pan
import Teiryo.Framework.Cursor

/-!
# The selection follows identity

The rows of the quota list as the accounts and windows they stand for. The selection is a cursor
on that list: a refresh keeps it on what it points at, or moves it to the old place when that is
gone, and until the user navigates it is on the first window.
-/

namespace Teiryo
namespace App

variable {F : Type}

/-- Accounts with ids of their own, each with windows of their own. -/
structure IdsDistinct (statuses : List (AccountStatus F ℚ)) : Prop where
  accounts : (statuses.map fun status => status.account.id).Nodup
  windows : ∀ status ∈ statuses, (status.windows.map fun view => view.window.id).Nodup

/-- Whether the list has the account, or the window of the account. -/
def Lists (statuses : List (AccountStatus F ℚ)) (selection : Selection) : Prop :=
  ∃ status ∈ statuses, status.account.id = selection.account ∧
    (selection.window = none ∨ ∃ view ∈ status.windows, selection.window = some view.window.id)

def windowIdentity (account : AccountId) (view : WindowView F ℚ) : Selection where
  account := account
  window := some view.window.id

/-- What the rows of one account stand for. -/
def accountIdentities (status : AccountStatus F ℚ) : List Selection :=
  { account := status.account.id, window := none } ::
    status.windows.map (windowIdentity status.account.id)

/-- What the rows stand for, in their order. -/
def identities (statuses : List (AccountStatus F ℚ)) : List Selection :=
  statuses.flatMap accountIdentities

private theorem accountRows_identities {statuses : List (AccountStatus F ℚ)} {ai : Nat}
    {status : AccountStatus F ℚ} (h : statuses[ai]? = some status) :
    (accountRows ai status).map (rowSelection statuses) =
      (accountIdentities status).map some := by
  have hwindows : (List.range status.windows.length).map
      (fun wi => rowSelection statuses { account := ai, window := some wi }) =
      status.windows.map fun view => some (windowIdentity status.account.id view) := by
    apply List.ext_getElem?
    intro i
    by_cases hi : i < status.windows.length
    · simp [rowSelection, h, hi, windowIdentity]
    · simp [hi]
  rw [accountRows, accountIdentities, List.map_cons, List.map_cons, List.map_map, List.map_map]
  congr 1
  simp [rowSelection, h]

private theorem rows_identities (statuses : List (AccountStatus F ℚ)) :
    (rowsOf statuses).map (rowSelection statuses) = (identities statuses).map some := by
  have hentries : ∀ entry ∈ statuses.zipIdx,
      (accountRows entry.2 entry.1).map (rowSelection statuses) =
        (accountIdentities entry.1).map some :=
    fun entry hentry => accountRows_identities (List.mem_zipIdx_iff_getElem?.mp hentry)
  have hfst : statuses.flatMap (fun status => (accountIdentities status).map some) =
      statuses.zipIdx.flatMap fun entry => (accountIdentities entry.1).map some := by
    conv_lhs => rw [← List.zipIdx_map_fst 0 statuses]
    rw [List.flatMap_map]
  rw [rowsOf, identities, List.map_flatMap, List.map_flatMap, hfst]
  exact List.flatMap_congr hentries

private theorem rows_length (statuses : List (AccountStatus F ℚ)) :
    (rowsOf statuses).length = (identities statuses).length := by
  have h := congrArg List.length (rows_identities statuses)
  simpa using h

private theorem selectionOf_eq (statuses : List (AccountStatus F ℚ)) (index : Nat) :
    selectionOf statuses index = (identities statuses)[index]? := by
  have h := congrArg (fun rows => rows[index]?) (rows_identities statuses)
  simp only [List.getElem?_map] at h
  unfold selectionOf
  cases hrow : (rowsOf statuses)[index]? with
  | none =>
    cases hid : (identities statuses)[index]? with
    | none => rfl
    | some selection => simp [hrow, hid] at h
  | some row =>
    cases hid : (identities statuses)[index]? with
    | none => simp [hrow, hid] at h
    | some selection => simpa [hrow, hid] using h

private theorem indexOf_eq (statuses : List (AccountStatus F ℚ)) (selection : Option Selection) :
    indexOf statuses selection = Cursor.place (identities statuses) selection := by
  cases selection with
  | none => rfl
  | some selection =>
    show (rowsOf statuses).findIdx? (fun row => rowSelection statuses row == some selection) =
      (identities statuses).findIdx? fun other => other == selection
    have hrows : (rowsOf statuses).findIdx?
        (fun row => rowSelection statuses row == some selection) =
        ((rowsOf statuses).map (rowSelection statuses)).findIdx? fun other =>
          other == some selection := by
      rw [List.findIdx?_map]
      rfl
    rw [hrows, rows_identities, List.findIdx?_map]
    congr 1

private theorem mem_identities {statuses : List (AccountStatus F ℚ)} {selection : Selection} :
    selection ∈ identities statuses ↔ Lists statuses selection := by
  obtain ⟨account, window⟩ := selection
  unfold identities Lists
  rw [List.mem_flatMap]
  apply exists_congr
  intro status
  apply and_congr_right
  intro _
  simp only [accountIdentities, windowIdentity, List.mem_cons, List.mem_map, Selection.mk.injEq]
  constructor
  · rintro (⟨rfl, rfl⟩ | ⟨view, hview, rfl, rfl⟩)
    · exact ⟨rfl, .inl rfl⟩
    · exact ⟨rfl, .inr ⟨view, hview, rfl⟩⟩
  · rintro ⟨rfl, rfl | ⟨view, hview, rfl⟩⟩
    · exact .inl ⟨rfl, rfl⟩
    · exact .inr ⟨view, hview, rfl, rfl⟩

private theorem accountIdentities_nodup {status : AccountStatus F ℚ}
    (h : (status.windows.map fun view => view.window.id).Nodup) :
    (accountIdentities status).Nodup := by
  rw [accountIdentities, List.nodup_cons]
  constructor
  · simp [windowIdentity]
  · have hmap : (status.windows.map (windowIdentity status.account.id)).map Selection.window =
        (status.windows.map fun view => view.window.id).map some := by
      simp [Function.comp_def, windowIdentity]
    apply List.Nodup.of_map Selection.window
    rw [hmap]
    exact h.map (Option.some_injective _)

private theorem identities_nodup {statuses : List (AccountStatus F ℚ)} (h : IdsDistinct statuses) :
    (identities statuses).Nodup := by
  rw [identities, List.nodup_flatMap]
  refine ⟨fun status hstatus => accountIdentities_nodup (h.windows status hstatus), ?_⟩
  have hpairs := List.pairwise_map.mp h.accounts
  apply hpairs.imp
  intro status other hne
  have haccount : ∀ (status : AccountStatus F ℚ), ∀ selection ∈ accountIdentities status,
      selection.account = status.account.id := by
    intro status selection hmem
    rcases List.mem_cons.mp hmem with rfl | hmem
    · rfl
    · obtain ⟨view, -, rfl⟩ := List.mem_map.mp hmem
      rfl
  intro selection hmem hmem'
  exact hne ((haccount status selection hmem).symm.trans (haccount other selection hmem'))

private theorem IdsDistinct.perm {statuses statuses' : List (AccountStatus F ℚ)}
    (h : IdsDistinct statuses) (hperm : statuses'.Perm statuses) : IdsDistinct statuses' := by
  constructor
  · exact (hperm.map _).nodup_iff.mpr h.accounts
  · intro status hstatus
    exact h.windows status (hperm.mem_iff.mp hstatus)

private theorem lists_perm {statuses statuses' : List (AccountStatus F ℚ)} {selection : Selection}
    (hperm : statuses'.Perm statuses) : Lists statuses' selection ↔ Lists statuses selection := by
  unfold Lists
  simp only [hperm.mem_iff]

private theorem rows_ne_nil_iff {app : App F} : app.rows ≠ [] ↔ identities app.statuses ≠ [] := by
  rw [ne_eq, ne_eq, ← List.length_eq_zero_iff, ← List.length_eq_zero_iff, ← rows_length]
  rfl

private theorem firstWindowRow_lt {statuses : List (AccountStatus F ℚ)}
    (h : identities statuses ≠ []) :
    (firstWindowRowOf statuses).getD 0 < (identities statuses).length := by
  have hpos : 0 < (identities statuses).length := List.length_pos_iff.mpr h
  cases hfirst : firstWindowRowOf statuses with
  | none => exact hpos
  | some index =>
    obtain ⟨hlt, -, -⟩ := List.findIdx?_eq_some_iff_getElem.mp hfirst
    rw [← rows_length]
    exact hlt

/-- The highlighted row is the selected one, which is a row of the list, and the first window of
it as long as the user has not moved. -/
structure InStep (app : App F) : Prop where
  distinct : IdsDistinct app.statuses
  synced : app.listSelected = app.selectedIndex
  resolves : app.rows ≠ [] → ∃ index, app.selectedIndex = some index
  fresh : app.userMoved = false → app.rows ≠ [] →
    app.selectedIndex = some (app.firstWindowRow.getD 0)

variable {app app' : App F}

private theorem InStep.of_state (h : InStep app)
    (hstate : app'.selectionState = app.selectionState) : InStep app' := by
  have hstatuses : app'.statuses = app.statuses := congrArg SelectionState.statuses hstate
  have hselection : app'.selection = app.selection := congrArg SelectionState.selection hstate
  have hmoved : app'.userMoved = app.userMoved := congrArg SelectionState.userMoved hstate
  have hlist : app'.listSelected = app.listSelected :=
    congrArg SelectionState.listSelected hstate
  have hrows : app'.rows = app.rows := by rw [rows, rows, hstatuses]
  have hindex : app'.selectedIndex = app.selectedIndex := by
    rw [selectedIndex, selectedIndex, hstatuses, hselection]
  have hfirst : app'.firstWindowRow = app.firstWindowRow := by
    rw [firstWindowRow, firstWindowRow, hstatuses]
  constructor
  · rw [hstatuses]
    exact h.distinct
  · rw [hlist, hindex]
    exact h.synced
  · rw [hrows, hindex]
    exact h.resolves
  · rw [hmoved, hrows, hindex, hfirst]
    exact h.fresh

private theorem inStep_empty : InStep ({} : App F) := by
  refine ⟨⟨List.nodup_nil, ?_⟩, rfl, ?_, ?_⟩
  · intro status hstatus
    cases hstatus
  · intro hne
    exact absurd rfl hne
  · intro _ hne
    exact absurd rfl hne

private theorem selectedIndex_eq (app : App F) :
    app.selectedIndex = Cursor.place (identities app.statuses) app.selection :=
  indexOf_eq app.statuses app.selection

private theorem inStep_select {index : Nat} (h : InStep app)
    (hindex : app.rows ≠ [] → index < app.rows.length) : InStep (app.select index) := by
  have hstatuses : (app.select index).statuses = app.statuses := by
    unfold select
    dsimp only
    split
    · rfl
    · rfl
  refine ⟨hstatuses ▸ h.distinct, rfl, ?_, ?_⟩
  · intro hne
    have hne' : app.rows ≠ [] := by
      rw [rows, hstatuses] at hne
      exact hne
    have hlt : index < (identities app.statuses).length := by
      rw [← rows_length]
      exact hindex hne'
    have hselection : (app.select index).selection =
        some (identities app.statuses)[index] := by
      show selectionOf app.statuses index = _
      rw [selectionOf_eq, List.getElem?_eq_getElem hlt]
    refine ⟨index, ?_⟩
    rw [selectedIndex_eq, hselection, hstatuses]
    exact Cursor.place_getElem? (identities_nodup h.distinct) (List.getElem?_eq_getElem hlt)
  · intro hmoved
    cases hmoved

private theorem setStatuses_statuses (app : App F) (statuses : List (AccountStatus F ℚ)) :
    (app.setStatuses statuses).statuses = statuses.mergeSort statusLe ∧
      (app.setStatuses statuses).userMoved = app.userMoved := by
  unfold setStatuses
  dsimp only
  split
  · split
    · exact ⟨rfl, rfl⟩
    · exact ⟨rfl, rfl⟩
  · exact ⟨rfl, rfl⟩

private theorem setStatuses_follow (app : App F) (statuses : List (AccountStatus F ℚ)) :
    (app.setStatuses statuses).selection =
      if app.userMoved then
        Cursor.follow (identities app.statuses) (identities (statuses.mergeSort statusLe))
          app.selection
      else (identities (statuses.mergeSort statusLe))[
        (firstWindowRowOf (statuses.mergeSort statusLe)).getD 0]? := by
  rw [setStatuses_selection, Cursor.follow, indexOf_eq, selectedIndex_eq, rows_length,
    selectionOf_eq, selectionOf_eq]
  by_cases hpos : 0 < (identities (statuses.mergeSort statusLe)).length
  · rw [if_pos hpos]
  · have hnil : identities (statuses.mergeSort statusLe) = [] := by
      rw [← List.length_eq_zero_iff]
      omega
    rw [if_neg hpos, hnil]
    rfl

private theorem inStep_setStatuses (app : App F) {statuses : List (AccountStatus F ℚ)}
    (h : IdsDistinct statuses) : InStep (app.setStatuses statuses) := by
  obtain ⟨hstatuses, hmoved⟩ := setStatuses_statuses app statuses
  have hdistinct := h.perm (List.mergeSort_perm statuses statusLe)
  have hnodup := identities_nodup hdistinct
  have hfresh : app.userMoved = false → (app.setStatuses statuses).rows ≠ [] →
      (app.setStatuses statuses).selectedIndex =
        some ((app.setStatuses statuses).firstWindowRow.getD 0) := by
    intro hfalse hne
    rw [rows_ne_nil_iff, hstatuses] at hne
    have hlt := firstWindowRow_lt hne
    rw [selectedIndex_eq, setStatuses_follow, firstWindowRow, hstatuses, hfalse,
      if_neg Bool.false_ne_true, List.getElem?_eq_getElem hlt]
    exact Cursor.place_getElem? hnodup (List.getElem?_eq_getElem hlt)
  refine ⟨hstatuses ▸ hdistinct, rfl, ?_, ?_⟩
  · intro hne
    cases hfalse : app.userMoved with
    | false => exact ⟨_, hfresh hfalse hne⟩
    | true =>
      rw [rows_ne_nil_iff, hstatuses] at hne
      rw [selectedIndex_eq, setStatuses_follow, hstatuses, hfalse, if_pos rfl]
      exact Cursor.follow_resolves hnodup hne
  · intro hfalse
    rw [hmoved] at hfalse
    exact hfresh hfalse

private theorem setStatuses_stays {statuses : List (AccountStatus F ℚ)} {selection : Selection}
    (hmoved : app.userMoved = true) (hselection : app.selection = some selection)
    (hlists : Lists statuses selection) :
    (app.setStatuses statuses).selection = some selection := by
  have hmem : selection ∈ identities (statuses.mergeSort statusLe) :=
    mem_identities.mpr ((lists_perm (List.mergeSort_perm statuses statusLe)).mpr hlists)
  rw [setStatuses_follow, if_pos hmoved, hselection]
  exact Cursor.follow_of_mem hmem

private theorem setStatuses_clamps {statuses : List (AccountStatus F ℚ)} {selection : Selection}
    {index : Nat} (hmoved : app.userMoved = true) (hselection : app.selection = some selection)
    (hindex : app.selectedIndex = some index) (hids : IdsDistinct statuses)
    (hgone : ¬ Lists statuses selection) (hne : (app.setStatuses statuses).rows ≠ []) :
    (app.setStatuses statuses).selectedIndex =
      some (min index ((app.setStatuses statuses).rows.length - 1)) := by
  obtain ⟨hstatuses, -⟩ := setStatuses_statuses app statuses
  have hperm := List.mergeSort_perm statuses statusLe
  have hplace : Cursor.place (identities (statuses.mergeSort statusLe)) app.selection = none := by
    rw [hselection]
    apply Cursor.place_eq_none.mpr
    intro hmem
    exact hgone ((lists_perm hperm).mp (mem_identities.mp hmem))
  rw [rows_ne_nil_iff, hstatuses] at hne
  rw [selectedIndex_eq] at hindex
  rw [selectedIndex_eq, setStatuses_follow, if_pos hmoved, rows, rows_length, hstatuses,
    Cursor.place_follow (identities_nodup (hids.perm hperm)) hne hplace, hindex]
  rfl

variable (cellMillis : (column width : Nat) → (secs : F) → Int)

private theorem inStep_step {input : AppInput F} (h : InStep app)
    (hids : ∀ statuses, input = .setStatuses statuses → IdsDistinct statuses) :
    InStep (app.step cellMillis input) := by
  by_cases hinput : ∃ statuses, input = .setStatuses statuses
  · obtain ⟨statuses, rfl⟩ := hinput
    exact inStep_setStatuses app (hids statuses rfl)
  · have hmoves := moves_step cellMillis app input fun statuses heq => hinput ⟨statuses, heq⟩
    by_cases hnav : Navigates app input
    · obtain ⟨start, index, hsteady, hindex, heq⟩ := hmoves.moves hnav
      rw [heq]
      exact inStep_select (h.of_state hsteady.state) hindex
    · exact h.of_state (hmoves.steady hnav).state

private theorem inStep_run {inputs : List (AppInput F)} (h : InStep app)
    (hids : ∀ statuses, .setStatuses statuses ∈ inputs → IdsDistinct statuses) :
    InStep (inputs.foldl (step cellMillis) app) := by
  induction inputs generalizing app with
  | nil => exact h
  | cons input inputs ih =>
    apply ih
    · apply inStep_step cellMillis h
      rintro statuses rfl
      exact hids statuses List.mem_cons_self
    · intro statuses hmem
      exact hids statuses (List.mem_cons_of_mem _ hmem)

/-- The user has moved once an input has navigated. -/
theorem userMoved_step (app : App F) (input : AppInput F) :
    (app.step cellMillis input).userMoved = true ↔ app.userMoved = true ∨ Navigates app input := by
  by_cases hinput : ∃ statuses, input = .setStatuses statuses
  · obtain ⟨statuses, rfl⟩ := hinput
    show (app.setStatuses statuses).userMoved = true ↔ _
    rw [(setStatuses_statuses app statuses).2]
    simp [Navigates]
  · have hmoves := moves_step cellMillis app input fun statuses heq => hinput ⟨statuses, heq⟩
    by_cases hnav : Navigates app input
    · obtain ⟨start, index, -, -, heq⟩ := hmoves.moves hnav
      rw [heq]
      exact iff_of_true rfl (.inr hnav)
    · have hstate := (hmoves.steady hnav).state
      rw [show (app.step cellMillis input).userMoved = app.userMoved from
        congrArg SelectionState.userMoved hstate]
      simp [hnav]

/-- No input of the run has navigated. -/
def Unmoved (app : App F) (inputs : List (AppInput F)) : Prop :=
  StepsMeet (step cellMillis) (fun app input => ¬ Navigates app input) app inputs

private theorem userMoved_run (app : App F) (inputs : List (AppInput F)) :
    (inputs.foldl (step cellMillis) app).userMoved = true ↔
      app.userMoved = true ∨ ¬ Unmoved cellMillis app inputs := by
  induction inputs generalizing app with
  | nil => simp [Unmoved]
  | cons input inputs ih =>
    rw [List.foldl_cons, ih, userMoved_step]
    unfold Unmoved
    rw [stepsMeet_cons]
    tauto

/-- An input that selects no other row, and whose list has the row. -/
def KeepsRow (selection : Selection) (app : App F) (input : AppInput F) : Prop :=
  ¬ Navigates app input ∧ ∀ statuses, input = .setStatuses statuses → Lists statuses selection

private theorem stays_step {selection : Selection} {input : AppInput F}
    (h : app.userMoved = true ∧ app.selection = some selection)
    (hkeeps : KeepsRow selection app input) :
    (app.step cellMillis input).userMoved = true ∧
      (app.step cellMillis input).selection = some selection := by
  refine ⟨(userMoved_step cellMillis app input).mpr (.inl h.1), ?_⟩
  by_cases hinput : ∃ statuses, input = .setStatuses statuses
  · obtain ⟨statuses, rfl⟩ := hinput
    exact setStatuses_stays h.1 h.2 (hkeeps.2 statuses rfl)
  · have hmoves := moves_step cellMillis app input fun statuses heq => hinput ⟨statuses, heq⟩
    have hstate := (hmoves.steady hkeeps.1).state
    exact (congrArg SelectionState.selection hstate).trans h.2

/-- In every run with distinct ids, the highlighted row is the selected one and a row of a list
that has any. Until the user navigates it is the first window row, or the first row. What is
selected after that stays selected while the list has it, and otherwise gives way to the row at
its old place, clamped to the list. -/
theorem selection_follows_identity (inputs : List (AppInput F))
    (hids : ∀ statuses, .setStatuses statuses ∈ inputs → IdsDistinct statuses) :
    (run cellMillis inputs).listSelected = (run cellMillis inputs).selectedIndex ∧
    ((run cellMillis inputs).rows ≠ [] → ∃ index selection,
      (run cellMillis inputs).selectedIndex = some index ∧
      (run cellMillis inputs).selection = some selection ∧
      (run cellMillis inputs).selectionAt index = some selection) ∧
    (Unmoved cellMillis {} inputs → (run cellMillis inputs).rows ≠ [] →
      (run cellMillis inputs).selectedIndex =
        some ((run cellMillis inputs).firstWindowRow.getD 0)) ∧
    (¬ Unmoved cellMillis {} inputs → ∀ selection,
      (run cellMillis inputs).selection = some selection →
      (∀ more, StepsMeet (step cellMillis) (KeepsRow selection) (run cellMillis inputs) more →
        (run cellMillis (inputs ++ more)).selection = some selection) ∧
      ∀ index statuses, (run cellMillis inputs).selectedIndex = some index →
        IdsDistinct statuses → ¬ Lists statuses selection →
        (run cellMillis (inputs ++ [.setStatuses statuses])).rows ≠ [] →
        (run cellMillis (inputs ++ [.setStatuses statuses])).selectedIndex =
          some (min index
            ((run cellMillis (inputs ++ [.setStatuses statuses])).rows.length - 1))) := by
  have hin : InStep (run cellMillis inputs) := inStep_run cellMillis inStep_empty hids
  have hmoved := userMoved_run cellMillis ({} : App F) inputs
  refine ⟨hin.synced, ?_, ?_, ?_⟩
  · intro hne
    obtain ⟨index, hindex⟩ := hin.resolves hne
    have hplace := hindex
    rw [selectedIndex_eq] at hplace
    have hrow := Cursor.place_eq_some hplace
    cases hselection : (run cellMillis inputs).selection with
    | none =>
      rw [hselection] at hplace
      cases hplace
    | some selection =>
      refine ⟨index, selection, hindex, rfl, ?_⟩
      rw [selectionAt, selectionOf_eq, hrow, hselection]
  · intro hunmoved hne
    apply hin.fresh ?_ hne
    apply Bool.eq_false_iff.mpr
    intro htrue
    rcases hmoved.mp htrue with h | h
    · cases h
    · exact h hunmoved
  · intro hnav selection hselection
    have htrue : (run cellMillis inputs).userMoved = true := hmoved.mpr (.inr hnav)
    constructor
    · intro more hmore
      rw [run, List.foldl_append]
      exact (hmore.invariant ⟨htrue, hselection⟩
        fun app input h hkeeps => stays_step cellMillis h hkeeps).2
    · intro index statuses hindex hdistinct hgone
      rw [run, List.foldl_append]
      exact setStatuses_clamps htrue hselection hindex hdistinct hgone

/-- The first refresh puts the selection on the session, below the header of its account. -/
theorem selection_follows_identity_first_refresh :
    (run (fun _ _ _ => 0) [.setStatuses [oneAccount ["session_5h", "weekly"]]]).selectedIndex =
      some 1 := by
  have hids : ∀ statuses : List (AccountStatus ℚ ℚ),
      .setStatuses statuses ∈ [AppInput.setStatuses [oneAccount ["session_5h", "weekly"]]] →
      IdsDistinct statuses := by
    intro statuses hmem
    cases List.mem_singleton.mp hmem
    refine ⟨List.nodup_singleton _, ?_⟩
    intro status hstatus
    rw [List.mem_singleton.mp hstatus]
    decide
  have hfirst := (selection_follows_identity (fun _ _ _ => 0) _ hids).2.2.1 ⟨id, trivial⟩
    (by decide +kernel)
  rw [hfirst]
  decide +kernel

end App
end Teiryo
