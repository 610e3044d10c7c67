import Teiryo.Client.Metrics
import Teiryo.Daemon.Config

/-!
# Window boundaries

The vertical rules of the trend chart, following `boundaries` in `teiryo/src/metrics.rs`. The
rollover that began the live window is dropped where it was observed close to the start, and the
window's own start is drawn in its place.
-/

namespace Teiryo

namespace RolloverKind

/-- Whether this is something the provider did not advertise. -/
def isSurprise (kind : RolloverKind) : Bool := kind != scheduled

/-- Whether this marks the boundary between two windows. -/
def isBoundary (kind : RolloverKind) : Bool := kind != unannounced

end RolloverKind

/-- What a vertical rule on the trend chart marks. -/
inductive BoundaryKind where
  | rollover
  | surprise
  | currentStart
  | upcomingReset
  deriving DecidableEq, Repr

/-- One vertical rule: an instant, and why it matters. -/
structure Boundary where
  «at» : DateTime
  kind : BoundaryKind
  deriving DecidableEq, Repr

section

variable {F : Type}

/-- Whether a rollover is drawn over `from..=to`, when the live window began at `start`. -/
def drawsRollover (window : WindowId) (start : Option DateTime) («from» «to» : DateTime)
    (r : WindowRollover F) : Bool :=
  r.window == window && r.kind.isBoundary &&
    (decide («from» ≤ r.observedAt) && decide (r.observedAt ≤ «to»)) &&
    start.all fun s => decide (resetTolerance < Duration.abs (r.observedAt - s))

/-- The rule of a rollover. -/
def rolloverRule (r : WindowRollover F) : Boundary where
  «at» := r.observedAt
  kind := if r.kind.isSurprise then .surprise else .rollover

/-- Window boundaries to draw over `from..=to`, oldest first, with the upcoming reset last. -/
def boundaries (window : WindowId) (effective : Option (EffectiveWindow F))
    (rollovers : List (WindowRollover F)) («from» «to» : DateTime) : List Boundary :=
  let start := effective.map (·.start)
  let past := (rollovers.filter (drawsRollover window start «from» «to»)).map rolloverRule
  let live := (start.filter fun s => decide («from» ≤ s) && decide (s ≤ «to»)).map fun s =>
    { «at» := s, kind := .currentStart }
  (past ++ live.toList).mergeSort (fun a b => decide (a.at ≤ b.at)) ++
    (effective.map fun e => { «at» := e.resetAt, kind := .upcomingReset }).toList

variable {window : WindowId} {e : EffectiveWindow F} {rollovers : List (WindowRollover F)}
  {«from» «to» : DateTime} {r : WindowRollover F}

/-- A rule is that of a recorded rollover or one of the live window's two edges. -/
theorem mem_boundaries_iff {b : Boundary} :
    b ∈ boundaries window (some e) rollovers «from» «to» ↔
      (∃ r ∈ rollovers, drawsRollover window (some e.start) «from» «to» r = true ∧
        rolloverRule r = b) ∨
      (b = { «at» := e.start, kind := .currentStart } ∧ «from» ≤ e.start ∧ e.start ≤ «to») ∨
      b = { «at» := e.resetAt, kind := .upcomingReset } := by
  have hlive : b ∈ (((some e.start).filter fun s => decide («from» ≤ s) && decide (s ≤ «to»)).map
      fun s => ({ «at» := s, kind := .currentStart } : Boundary)).toList ↔
        b = { «at» := e.start, kind := .currentStart } ∧ «from» ≤ e.start ∧ e.start ≤ «to» := by
    by_cases hin : «from» ≤ e.start ∧ e.start ≤ «to»
    · simp [Option.filter, hin]
    · simp [Option.filter, hin]
  unfold boundaries
  simp only [List.mem_append, List.mem_mergeSort, List.mem_map, List.mem_filter, Option.map_some,
    hlive, Option.toList_some, List.mem_singleton, and_assoc, or_assoc]

private theorem rolloverRule_kind (r : WindowRollover F) :
    (rolloverRule r).kind = .rollover ∨ (rolloverRule r).kind = .surprise := by
  unfold rolloverRule
  split
  · exact .inr rfl
  · exact .inl rfl

/-- A rollover began the live window: it brought the window's own reset and was observed within a
poll interval of the start. -/
structure Began (e : EffectiveWindow F) (interval : Duration) (r : WindowRollover F) : Prop where
  own : r.window = e.window
  boundary : r.kind.isBoundary = true
  reset : ∃ resetAt ∈ r.newResetAt, Duration.abs (resetAt - e.resetAt) ≤ resetTolerance
  after : e.start ≤ r.observedAt
  soon : r.observedAt - e.start ≤ interval

/-- The start of the live window is drawn, and nothing for the rollover that began it. -/
structure DrawnOnce (rules : List Boundary) (e : EffectiveWindow F) (r : WindowRollover F) :
    Prop where
  start : { «at» := e.start, kind := .currentStart } ∈ rules
  alone : ∀ b ∈ rules, b.at = r.observedAt → b.kind ≠ .rollover ∧ b.kind ≠ .surprise

theorem Began.abs_eq {interval : Duration} (h : Began e interval r) :
    Duration.abs (r.observedAt - e.start) = r.observedAt - e.start := by
  have hnonneg : 0 ≤ r.observedAt - e.start := Int.sub_nonneg.mpr h.after
  exact max_eq_left ((Int.neg_nonpos_of_nonneg hnonneg).trans hnonneg)

private theorem drawsRollover_began {interval : Duration} (h : Began e interval r)
    (hfrom : «from» ≤ r.observedAt) (hto : r.observedAt ≤ «to») :
    drawsRollover e.window (some e.start) «from» «to» r = true ↔
      resetTolerance < r.observedAt - e.start := by
  simp [drawsRollover, h.own, h.boundary, hfrom, hto, h.abs_eq]

private theorem not_drawsRollover_close {other : WindowRollover F} {start : DateTime}
    (hclose : Duration.abs (other.observedAt - start) ≤ resetTolerance) :
    drawsRollover window (some start) «from» «to» other = false := by
  have hnot : ¬ resetTolerance < Duration.abs (other.observedAt - start) := hclose.not_gt
  simp [drawsRollover, hnot]

/-- The start of the live window is drawn once exactly if the rollover that began it was observed
within the tolerance of it, whatever the poll interval allows. -/
theorem boundaries_once_iff {interval : Duration} (hbegan : Began e interval r)
    (hr : r ∈ rollovers) (hstart : «from» ≤ e.start) (hto : r.observedAt ≤ «to») :
    DrawnOnce (boundaries e.window (some e) rollovers «from» «to») e r ↔
      r.observedAt - e.start ≤ resetTolerance := by
  have hafter := hbegan.after
  have hfrom : «from» ≤ r.observedAt := hstart.trans hafter
  constructor
  · intro hdrawn
    by_contra hfar
    have hdraws := (drawsRollover_began hbegan hfrom hto).mpr (not_le.mp hfar)
    have hmem : rolloverRule r ∈ boundaries e.window (some e) rollovers «from» «to» :=
      mem_boundaries_iff.mpr (.inl ⟨r, hr, hdraws, rfl⟩)
    obtain ⟨hrollover, hsurprise⟩ := hdrawn.alone _ hmem rfl
    exact (rolloverRule_kind r).elim hrollover hsurprise
  · intro hclose
    refine ⟨mem_boundaries_iff.mpr (.inr (.inl ⟨rfl, hstart, hafter.trans hto⟩)), ?_⟩
    intro b hb hat
    rcases mem_boundaries_iff.mp hb with ⟨other, -, hdraws, rfl⟩ | ⟨rfl, -⟩ | rfl
    · -- a rollover of the same instant is as close to the start
      have hsame : other.observedAt = r.observedAt := hat
      have habs : Duration.abs (other.observedAt - e.start) ≤ resetTolerance := by
        rw [hsame, hbegan.abs_eq]
        exact hclose
      rw [not_drawsRollover_close habs] at hdraws
      cases hdraws
    · exact ⟨BoundaryKind.noConfusion, BoundaryKind.noConfusion⟩
    · exact ⟨BoundaryKind.noConfusion, BoundaryKind.noConfusion⟩

end

/-- A five-hour window, an hour in. -/
def anHourIn : EffectiveWindow ℚ where
  window := ⟨"five_hour"⟩
  start := Duration.seconds 0
  resetAt := Duration.seconds 18000
  startUncertainty := 0
  used := some (1 / 10)

/-- The rollover that began it, as a poll some seconds later saw it. -/
def began (seconds : Int) : WindowRollover ℚ where
  account := ⟨"me"⟩
  window := ⟨"five_hour"⟩
  poll := 1
  observedAt := Duration.seconds seconds
  kind := .scheduled
  prevResetAt := some (Duration.seconds 0)
  newResetAt := some (Duration.seconds 18000)
  prevUsed := 90
  newUsed := 0
  prevObservedAt := none

private theorem began_anHourIn {seconds : Int} (hmin : 0 ≤ seconds) (hmax : seconds ≤ 180) :
    Began anHourIn (({} : Config).pollInterval "claude") (began seconds) where
  own := rfl
  boundary := rfl
  reset := ⟨_, rfl, by decide⟩
  after := Int.mul_le_mul_of_nonneg_right hmin (by decide)
  soon := by
    show seconds * 1000000000 - 0 ≤ 180000000000
    omega

/-- A poll a minute after the start draws one rule. -/
theorem boundaries_once_minute :
    DrawnOnce (boundaries ⟨"five_hour"⟩ (some anHourIn) [began 60] (Duration.seconds (-86400))
      (Duration.seconds 3600)) anHourIn (began 60) :=
  (boundaries_once_iff (began_anHourIn (by decide) (by decide)) List.mem_cons_self (by decide)
    (by decide)).mpr (by decide)

/-- A poll two and a half minutes after it, as the default cadence allows, draws two. -/
theorem boundaries_twice :
    Began anHourIn (({} : Config).pollInterval "claude") (began 150) ∧
      { «at» := Duration.seconds 150, kind := .rollover } ∈
        boundaries ⟨"five_hour"⟩ (some anHourIn) [began 150] (Duration.seconds (-86400))
          (Duration.seconds 3600) ∧
      ¬ DrawnOnce (boundaries ⟨"five_hour"⟩ (some anHourIn) [began 150] (Duration.seconds (-86400))
        (Duration.seconds 3600)) anHourIn (began 150) := by
  have hmem : { «at» := Duration.seconds 150, kind := .rollover } ∈
      boundaries ⟨"five_hour"⟩ (some anHourIn) [began 150] (Duration.seconds (-86400))
        (Duration.seconds 3600) :=
    mem_boundaries_iff.mpr (.inl ⟨began 150, List.mem_cons_self, by decide, rfl⟩)
  exact ⟨began_anHourIn (by decide) (by decide), hmem, fun h => (h.alone _ hmem rfl).1 rfl⟩

end Teiryo
