import Mathlib.Data.List.Infix
import Teiryo.Client.AppInput
import Teiryo.Framework.Run

/-!
# The Activity cursor between refetches

The poll log is fetched again on every update, with the new polls at the top and the oldest cut off.
The cursor is on a poll by id, with the row it was put on beside it for when the poll is off the
log; that row is the one it was last on only as long as nothing has pushed it down since.
-/

namespace Teiryo

namespace App

variable {F : Type}

/-- The row of a poll in the log. -/
def pollRow (app : App F) (id : PollId) : Option Nat := app.activity.findIdx? (·.id == id)

/-- The cursor was just put on a row of the log. -/
structure CursorOn (app : App F) (id : PollId) (row : Nat) : Prop where
  cursor : app.activityCursor = some id
  index : app.activityCursorIndex = row
  poll : app.pollRow id = some row

private theorem cursorOn_selectActivity (app : App F) {row : Nat} (hrow : row < app.activity.length)
    (hdistinct : (app.activity.map (·.id)).Nodup) :
    (app.selectActivity row).CursorOn app.activity[row].id row := by
  have hmin : min row (app.activity.length - 1) = row := by omega
  have hselect : app.selectActivity row = { app with
      detailsScroll := if some row ≠ app.activityIndex then 0 else app.detailsScroll
      activityCursor := some app.activity[row].id, activityCursorIndex := row
      activityFollow := true } := by
    rw [selectActivity]
    simp only [hmin, List.getElem?_eq_getElem hrow]
  refine ⟨by rw [hselect], by rw [hselect], ?_⟩
  rw [hselect]
  show app.activity.findIdx? _ = some row
  rw [List.findIdx?_eq_some_iff_getElem]
  refine ⟨hrow, beq_self_eq_true _, ?_⟩
  intro j hj
  rw [beq_iff_eq]
  intro hid
  have heq : app.activity[j] = app.activity[row] :=
    List.inj_on_of_nodup_map hdistinct (List.getElem_mem _) (List.getElem_mem _) hid
  exact absurd ((List.Nodup.of_map _ hdistinct).getElem_inj_iff.mp heq) hj.ne

end App

/-- The log is fetched again with some new polls, or something else happens. -/
inductive LogStep (F : Type) where
  | refetch (new : List (PollEvent F))
  | other (input : AppInput F)

namespace LogStep

variable {F : Type} (cellMillis : (column width : Nat) → (secs : F) → Int) (limit : Nat)

/-- What the app is given: the new polls on top of the log, up to the limit of the request. -/
def input (app : App F) : LogStep F → AppInput F
  | refetch new => .setActivity ((new ++ app.activity).take limit)
  | other input => input

def apply (app : App F) (s : LogStep F) : App F := app.step cellMillis (s.input limit app)

/-- New polls are none the cursor is on; anything else leaves the log and the cursor as they are. -/
def Quiet (id : PollId) (app : App F) : LogStep F → Prop
  | refetch new => ∀ event ∈ new, event.id ≠ id
  | other input =>
    (app.step cellMillis input).activity = app.activity ∧
      (app.step cellMillis input).activityCursor = app.activityCursor ∧
      (app.step cellMillis input).activityCursorIndex = app.activityCursorIndex

/-- The polls a step brings. -/
def new : LogStep F → List (PollEvent F)
  | refetch new => new
  | other _ => []

/-- The polls a run brings. -/
def arrived (steps : List (LogStep F)) : List (PollEvent F) := steps.flatMap new

/-- One step, noting the last row the poll was seen on. -/
def watch (id : PollId) (w : App F × Nat) (s : LogStep F) : App F × Nat :=
  (s.apply cellMillis limit w.1, ((s.apply cellMillis limit w.1).pollRow id).getD w.2)

/-- The cursor is on its poll, or on the last row it had where that is off the log. -/
def HoldsPlace (id : PollId) (w : App F × Nat) : Prop :=
  w.1.activityIndex =
    some ((w.1.pollRow id).getD (min w.2 (w.1.activity.length - 1)))

/-- No new polls came before those that push the poll at a row off the log. -/
def PushedOffAtOnce (row : Nat) (steps : List (LogStep F)) : Prop :=
  ∀ before new after, steps = before ++ refetch new :: after →
    row + (arrived before).length < limit →
    limit ≤ row + (arrived before).length + new.length → arrived before = []

variable {cellMillis limit} {id : PollId} {row : Nat} {app : App F} {s : LogStep F}
  {steps : List (LogStep F)} {w : App F × Nat}

private theorem pollRow_refetch {new : List (PollEvent F)}
    (h : Quiet cellMillis id app (refetch new)) :
    ((refetch new).apply cellMillis limit app).pollRow id =
      ((app.pollRow id).map (· + new.length)).bind (Option.guard fun i => decide (i < limit)) := by
  have hnew : new.findIdx? (·.id == id) = none := by
    rw [List.findIdx?_eq_none_iff]
    intro event hevent
    exact beq_eq_false_iff_ne.mpr (h event hevent)
  show ((new ++ app.activity).take limit).findIdx? _ = _
  rw [List.findIdx?_take, List.findIdx?_append, hnew, Option.none_or]
  rfl

variable (cellMillis) in
private theorem length_refetch (new : List (PollEvent F)) :
    ((refetch new).apply cellMillis limit app).activity.length =
      min limit (new.length + app.activity.length) := by
  show ((new ++ app.activity).take limit).length = _
  rw [List.length_take, List.length_append]

/-- What holds of the app and the row noted after some steps from a cursor on a row. -/
structure Follows (limit : Nat) (id : PollId) (row : Nat) (before : List (LogStep F))
    (w : App F × Nat) : Prop where
  cursor : w.1.activityCursor = some id
  index : w.1.activityCursorIndex = row
  short : w.1.activity.length ≤ limit
  inLog : row + (arrived before).length < limit →
    w.1.pollRow id = some (row + (arrived before).length) ∧ w.2 = row + (arrived before).length
  offLog : limit ≤ row + (arrived before).length →
    w.1.pollRow id = none ∧ w.1.activity.length = limit
  noted : ∀ pre new post, before = pre ++ refetch new :: post →
    row + (arrived pre).length < limit →
    limit ≤ row + (arrived pre).length + new.length → w.2 = row + (arrived pre).length

private theorem arrived_append (before after : List (LogStep F)) :
    arrived (before ++ after) = arrived before ++ arrived after := List.flatMap_append

private theorem arrived_concat (before : List (LogStep F)) (s : LogStep F) :
    arrived (before ++ [s]) = arrived before ++ s.new := by
  rw [arrived_append]
  simp [arrived]

private theorem concat_eq_split {before pre post : List (LogStep F)} {s x : LogStep F}
    (h : before ++ [s] = pre ++ x :: post) :
    pre = before ∧ x = s ∨ ∃ rest, before = pre ++ x :: rest := by
  rcases List.eq_nil_or_concat post with rfl | ⟨rest, last, rfl⟩
  · obtain ⟨hbefore, hs⟩ := List.append_inj' h rfl
    exact .inl ⟨hbefore.symm, (List.singleton_inj.mp hs).symm⟩
  · right
    have hassoc : before ++ [s] = (pre ++ x :: rest) ++ [last] := by
      rw [h, List.concat_eq_append, List.append_assoc, List.cons_append]
    exact ⟨rest, (List.append_inj' hassoc rfl).1⟩

variable {before : List (LogStep F)}

private theorem pollRow_lt {app : App F} (h : app.pollRow id = some row) :
    row < app.activity.length := by
  obtain ⟨hlt, -⟩ := List.findIdx?_eq_some_iff_getElem.mp h
  exact hlt

theorem Follows.start (hon : app.CursorOn id row) (hshort : app.activity.length ≤ limit) :
    Follows limit id row ([] : List (LogStep F)) (app, row) where
  cursor := hon.cursor
  index := hon.index
  short := hshort
  inLog _ := ⟨hon.poll, rfl⟩
  offLog hover := by
    have hlt := pollRow_lt hon.poll
    simp only [arrived, List.flatMap_nil, List.length_nil] at hover
    omega
  noted pre new post hsplit := by
    have hne : pre ++ refetch new :: post ≠ [] := by simp
    exact absurd hsplit.symm hne

private theorem Follows.of_other {input : AppInput F} (h : Follows limit id row before w)
    (hquiet : Quiet cellMillis id w.1 (other input)) :
    Follows limit id row (before ++ [other input]) (watch cellMillis limit id w (other input)) := by
  obtain ⟨hactivity, hcursor, hindex⟩ := hquiet
  have harrived : arrived (before ++ [other input]) = arrived before := by
    rw [arrived_concat]
    exact List.append_nil _
  have hrow : (watch cellMillis limit id w (other input)).1.pollRow id = w.1.pollRow id := by
    show (w.1.step cellMillis input).activity.findIdx? _ = _
    rw [hactivity]
    rfl
  have hnoted : (watch cellMillis limit id w (other input)).2 = w.2 := by
    show ((watch cellMillis limit id w (other input)).1.pollRow id).getD w.2 = w.2
    rw [hrow]
    rcases Nat.lt_or_ge (row + (arrived before).length) limit with hin | hoff
    · rw [(h.inLog hin).1, (h.inLog hin).2, Option.getD_some]
    · rw [(h.offLog hoff).1, Option.getD_none]
  have hlog : (watch cellMillis limit id w (other input)).1.activity = w.1.activity := hactivity
  refine ⟨hcursor.trans h.cursor, hindex.trans h.index, by rw [hlog]; exact h.short, ?_, ?_, ?_⟩
  · rw [harrived, hrow, hnoted]
    exact h.inLog
  · rw [harrived, hrow, hlog]
    exact h.offLog
  · intro pre new post hsplit
    rw [hnoted]
    rcases concat_eq_split hsplit with ⟨-, hx⟩ | ⟨rest, hbefore⟩
    · cases hx
    · exact h.noted pre new rest hbefore

private theorem Follows.of_refetch {new : List (PollEvent F)} (h : Follows limit id row before w)
    (hquiet : Quiet cellMillis id w.1 (refetch new)) :
    Follows limit id row (before ++ [refetch new])
      (watch cellMillis limit id w (refetch new)) := by
  have harrived : (arrived (before ++ [LogStep.refetch new])).length =
      (arrived before).length + new.length := by
    rw [arrived_concat, List.length_append]
    rfl
  have hrow : (watch cellMillis limit id w (LogStep.refetch new)).1.pollRow id = _ :=
    pollRow_refetch hquiet
  have hlength : (watch cellMillis limit id w (LogStep.refetch new)).1.activity.length =
      min limit (new.length + w.1.activity.length) := length_refetch cellMillis new
  have hnoted : (watch cellMillis limit id w (LogStep.refetch new)).2 =
      ((watch cellMillis limit id w (LogStep.refetch new)).1.pollRow id).getD w.2 := rfl
  -- Where the poll is off the log afterwards, the row noted is the one noted before.
  have hgone (hover : limit ≤ row + (arrived before).length + new.length) :
      (watch cellMillis limit id w (LogStep.refetch new)).1.pollRow id = none := by
    rw [hrow]
    rcases Nat.lt_or_ge (row + (arrived before).length) limit with hin | hoff
    · rw [(h.inLog hin).1]
      simp [Option.guard, hover]
    · rw [(h.offLog hoff).1]
      rfl
  refine ⟨h.cursor, h.index, ?_, ?inLog, ?offLog, ?noted⟩
  · rw [hlength]
    exact Nat.min_le_left _ _
  case inLog =>
    intro hin
    rw [harrived, ← Nat.add_assoc] at hin ⊢
    have hbefore := (h.inLog (by omega)).1
    have hnow : (watch cellMillis limit id w (LogStep.refetch new)).1.pollRow id =
        some (row + (arrived before).length + new.length) := by
      rw [hrow, hbefore]
      simp [Option.guard, hin]
    rw [hnoted, hnow]
    exact ⟨rfl, rfl⟩
  case offLog =>
    intro hoff
    rw [harrived, ← Nat.add_assoc] at hoff
    refine ⟨hgone hoff, ?_⟩
    rw [hlength]
    rcases Nat.lt_or_ge (row + (arrived before).length) limit with hin | hwas
    · have hlt := pollRow_lt (h.inLog hin).1
      omega
    · have hfull := (h.offLog hwas).2
      omega
  case noted =>
    intro pre new' post hsplit hin hoff
    rcases concat_eq_split hsplit with ⟨rfl, hx⟩ | ⟨rest, hbefore⟩
    · cases hx
      rw [hnoted, hgone hoff, Option.getD_none]
      exact (h.inLog hin).2
    · have hwas : limit ≤ row + (arrived before).length := by
        have harrived' : (arrived before).length =
            (arrived pre).length + (new'.length + (arrived rest).length) := by
          rw [hbefore, arrived_append, List.length_append]
          simp [arrived, LogStep.new]
        omega
      rw [hnoted, hgone (by omega), Option.getD_none]
      exact h.noted pre new' rest hbefore hin hoff

theorem Follows.step (h : Follows limit id row before w) (hquiet : Quiet cellMillis id w.1 s) :
    Follows limit id row (before ++ [s]) (watch cellMillis limit id w s) := by
  cases s with
  | refetch new => exact h.of_refetch hquiet
  | other input => exact h.of_other hquiet

private theorem foldl_watch_fst (steps : List (LogStep F)) (w : App F × Nat) :
    (steps.foldl (watch cellMillis limit id) w).1 = steps.foldl (apply cellMillis limit) w.1 := by
  induction steps generalizing w with
  | nil => rfl
  | cons s steps ih => exact ih _

/-- What holds after every quiet run from a cursor put on a row. -/
theorem follows_run (hon : app.CursorOn id row) (hshort : app.activity.length ≤ limit)
    (h : StepsMeet (apply cellMillis limit) (Quiet cellMillis id) app steps) :
    Follows limit id row steps (steps.foldl (watch cellMillis limit id) (app, row)) := by
  induction steps using List.reverseRecOn with
  | nil => exact Follows.start hon hshort
  | append_singleton steps s ih =>
    obtain ⟨hsteps, hlast⟩ := (stepsMeet_append app steps [s]).mp h
    rw [List.foldl_append, List.foldl_cons, List.foldl_nil]
    apply (ih hsteps).step
    rw [foldl_watch_fst]
    exact hlast.1

private theorem exists_refetch_past (steps : List (LogStep F)) (hin : row < limit)
    (hoff : limit ≤ row + (arrived steps).length) :
    ∃ pre new post, steps = pre ++ refetch new :: post ∧
      row + (arrived pre).length < limit ∧
      limit ≤ row + (arrived pre).length + new.length := by
  induction steps using List.reverseRecOn with
  | nil => exact absurd hoff (by simpa [arrived] using hin)
  | append_singleton steps s ih =>
    rcases Nat.lt_or_ge (row + (arrived steps).length) limit with hbefore | hwas
    · rw [arrived_concat, List.length_append, ← Nat.add_assoc] at hoff
      cases s with
      | refetch new => exact ⟨steps, new, [], rfl, hbefore, hoff⟩
      | other input => exact absurd hoff (by simpa [LogStep.new] using hbefore)
    · obtain ⟨pre, new, post, rfl, hpre, hpast⟩ := ih hwas
      exact ⟨pre, new, post ++ [s], by simp, hpre, hpast⟩

/-- In the log the cursor is on its poll; off the log it is back at the row it was put on. -/
theorem Follows.holdsPlace_iff (h : Follows limit id row before w) (hin : row < limit) :
    HoldsPlace id w ↔ (limit ≤ row + (arrived before).length → min w.2 (limit - 1) = row) := by
  have hindex (hne : w.1.activity ≠ []) : w.1.activityIndex =
      some ((w.1.pollRow id).getD (min row (w.1.activity.length - 1))) := by
    rw [App.activityIndex, h.cursor, Option.bind_some, if_neg hne, h.index]
    rfl
  rw [HoldsPlace]
  rcases Nat.lt_or_ge (row + (arrived before).length) limit with hstill | hoff
  · have hrow := (h.inLog hstill).1
    have hlength := pollRow_lt hrow
    rw [hindex (List.ne_nil_of_length_pos (by omega)), hrow]
    exact iff_of_true rfl fun hover => absurd hstill hover.not_gt
  · obtain ⟨hrow, hlength⟩ := h.offLog hoff
    rw [hindex (List.ne_nil_of_length_pos (by omega)), hrow, hlength]
    simp only [Option.getD_none, Option.some.injEq]
    constructor
    · intro heq _
      omega
    · intro heq
      have hmin := heq hoff
      omega

/-- The cursor holds its place in every state of a quiet run exactly when no new polls came before
those that push its poll off the log. -/
theorem activity_holds_place_iff (cellMillis : (column width : Nat) → (secs : F) → Int)
    (limit : Nat) (app : App F) (id : PollId) (row : Nat) (steps : List (LogStep F))
    (hon : app.CursorOn id row) (hshort : app.activity.length ≤ limit)
    (hsteps : StepsMeet (apply cellMillis limit) (Quiet cellMillis id) app steps) :
    (∀ before, before <+: steps →
        HoldsPlace id (before.foldl (watch cellMillis limit id) (app, row))) ↔
      PushedOffAtOnce limit row steps := by
  have hin : row < limit := (pollRow_lt hon.poll).trans_le hshort
  have hfollows (before : List (LogStep F)) (hbefore : before <+: steps) :
      Follows limit id row before (before.foldl (watch cellMillis limit id) (app, row)) := by
    obtain ⟨rest, rfl⟩ := hbefore
    exact follows_run hon hshort ((stepsMeet_append app before rest).mp hsteps).1
  constructor
  · intro hholds pre new post hsplit hpre hpast
    have hprefix : pre ++ [refetch new] <+: steps := ⟨post, by simp [hsplit]⟩
    have hnow := hfollows _ hprefix
    have hplace := (hnow.holdsPlace_iff hin).mp (hholds _ hprefix)
    rw [hnow.noted pre new [] rfl hpre hpast, arrived_concat, List.length_append,
      ← Nat.add_assoc] at hplace
    have hnone : (arrived pre).length = 0 := by
      have hmin := hplace hpast
      omega
    exact List.length_eq_zero_iff.mp hnone
  · intro hatOnce before hbefore
    have hnow := hfollows before hbefore
    rw [hnow.holdsPlace_iff hin]
    intro hoff
    obtain ⟨pre, new, post, hsplit, hpre, hpast⟩ := exists_refetch_past before hin hoff
    obtain ⟨rest, rfl⟩ := hbefore
    have hnone : arrived pre = [] :=
      hatOnce pre new (post ++ rest) (by rw [hsplit]; simp) hpre hpast
    rw [hnow.noted pre new post hsplit hpre hpast, hnone]
    simp only [List.length_nil]
    omega

/-- A poll of an account that did not get through. -/
def failedPoll (n : Nat) : PollEvent ℚ where
  id := Fin.ofNat _ n
  ts := 0
  provider := "claude"
  account := ⟨"claude-code"⟩
  trigger := .scheduled
  outcome := .networkError "offline"
  latencyMs := 0

/-- A log of one poll, with the cursor on it. -/
def onePoll : App ℚ := ({ activity := [failedPoll 0] } : App ℚ).selectActivity 0

private theorem onePoll_cursorOn : onePoll.CursorOn 0 0 :=
  App.cursorOn_selectActivity { activity := [failedPoll 0] } (by decide) (by decide)

/-- A new poll pushes it down a row, and the cursor with it. -/
theorem activity_holds_place_pushed_down :
    HoldsPlace 0 (onePoll, 0) ∧
      HoldsPlace 0 (watch (fun _ _ _ => 0) recentPollLimit.toNat 0 (onePoll, 0)
        (refetch [failedPoll 1])) := by
  have hquiet : Quiet (fun _ _ _ => 0) 0 onePoll (refetch [failedPoll 1]) := by
    intro event hevent
    rw [List.mem_singleton.mp hevent]
    decide
  have hatOnce : PushedOffAtOnce recentPollLimit.toNat 0 [refetch [failedPoll 1]] := by
    intro before new after hsplit _ _
    cases before with
    | nil => rfl
    | cons s before => simp at hsplit
  have hholds := (activity_holds_place_iff (fun _ _ _ => 0) recentPollLimit.toNat onePoll 0 0
    [refetch [failedPoll 1]] onePoll_cursorOn (by decide) ⟨hquiet, trivial⟩).mpr hatOnce
  exact ⟨hholds [] List.nil_prefix, hholds [refetch [failedPoll 1]] List.prefix_rfl⟩

/-- Pushed down a row and then off the log of a hundred, the poll was last on the second row, and
the cursor is back on the first. -/
def pushedOff : List (LogStep ℚ) :=
  [refetch [failedPoll 1], refetch ((List.range 99).map fun n => failedPoll (n + 2))]

theorem activity_slips_back :
    onePoll.CursorOn 0 0 ∧ onePoll.activity.length ≤ recentPollLimit.toNat ∧
      StepsMeet (apply (fun _ _ _ => 0) recentPollLimit.toNat) (Quiet (fun _ _ _ => 0) 0) onePoll
        pushedOff ∧
      (pushedOff.foldl (watch (fun _ _ _ => 0) recentPollLimit.toNat 0) (onePoll, 0)).2 = 1 ∧
      (pushedOff.foldl (watch (fun _ _ _ => 0) recentPollLimit.toNat 0)
        (onePoll, 0)).1.activityIndex = some 0 ∧
      ¬ HoldsPlace 0
        (pushedOff.foldl (watch (fun _ _ _ => 0) recentPollLimit.toNat 0) (onePoll, 0)) := by
  refine ⟨onePoll_cursorOn, by decide, ⟨?_, ?_, trivial⟩, ?_, ?_, ?_⟩
  · intro event hevent
    rw [List.mem_singleton.mp hevent]
    decide
  · show ∀ event ∈ (List.range 99).map fun n => failedPoll (n + 2), event.id ≠ 0
    decide
  · decide
  · decide
  · unfold HoldsPlace
    decide

end LogStep
end Teiryo
