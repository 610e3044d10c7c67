import Teiryo.Client.Rate
import Teiryo.Framework.Except

/-!
# Pace and projections

How a window is used up against its clock, and what a rate implies about the rest of it, following
`teiryo/src/metrics.rs`. Chrono panics where a duration or an instant is out of its range, so what
builds one or the other may fail.
-/

namespace Teiryo

/-- A panic of chrono. -/
inductive Panic where
  | durationOutOfBounds
  | dateTimeOverflow
  deriving DecidableEq, Repr

namespace Duration

/-- The most whole seconds of a `chrono::Duration`, which holds `i64::MAX` milliseconds. -/
def maxSeconds : Int := i64Max / 1000

/-- `chrono::Duration::seconds`. -/
def ofSeconds (n : Int) : Except Panic Duration :=
  if -maxSeconds ≤ n ∧ n ≤ maxSeconds then .ok (seconds n) else .error .durationOutOfBounds

end Duration

namespace DateTime

/-- `DateTime::<Utc>::MIN_UTC`, the first instant of the year -262143. -/
def minUtc : DateTime := Duration.seconds (-8334601228800)

/-- `DateTime::<Utc>::MAX_UTC`, the last nanosecond of the year 262142. -/
def maxUtc : DateTime := Duration.seconds 8210266876799 + 999999999

/-- Whether chrono can hold an instant. -/
def InRange (t : DateTime) : Prop := minUtc ≤ t ∧ t ≤ maxUtc

instance (t : DateTime) : Decidable (InRange t) := inferInstanceAs (Decidable (_ ∧ _))

/-- `DateTime + Duration`. -/
def plus (t : DateTime) (d : Duration) : Except Panic DateTime :=
  if InRange (t + d) then .ok (t + d) else .error .dateTimeOverflow

end DateTime

/-- How wide the bracket is. -/
def ObservedStart.uncertainty (o : ObservedStart) : Duration := o.notAfter - o.notBefore

section Metrics

variable {F : Type} [F64Math F]

/-- Reconcile what the provider publishes with what the daemon observed. -/
def effectiveWindow (view : WindowView F ℚ) (now : DateTime) :
    Except Panic (Option (EffectiveWindow F)) :=
  match view.window.resetAt, view.window.span with
  | some resetAt, some span => do
    let nominal ← DateTime.plus resetAt (-span)
    let observed := view.observedStart.filter fun o =>
      decide (nominal < o.estimate) && decide (o.estimate < resetAt) && decide (o.notAfter ≤ now)
    return some {
      window := view.window.id
      start := observed.elim nominal ObservedStart.estimate
      resetAt
      startUncertainty := observed.elim 0 ObservedStart.uncertainty
      used := view.window.utilization }
  | _, _ => .ok none

/-- How far through the window we are. -/
def elapsedFraction (window : EffectiveWindow F) (now : DateTime) : Option F :=
  let span := window.span.numSeconds
  if span ≤ 0 then none
  else
    let elapsed := Duration.numSeconds (now - window.start)
    some (F64.clamp (F64Math.ofInt elapsed / F64Math.ofInt span) 0.0 1.0)

/-- How much of a window must have run before an average over it is worth printing. -/
def minElapsedFraction : F := 0.05

/-- Consumption relative to the clock. -/
def pace (window : EffectiveWindow F) (now : DateTime) : Option F := do
  let elapsed ← elapsedFraction window now
  if elapsed < minElapsedFraction then none
  else
    let used ← window.used
    return used / elapsed

/-- How much longer the remaining headroom lasts at a pace. -/
def runwayAt (window : EffectiveWindow F) (pace : F) : Except Panic (Option Duration) :=
  match window.used with
  | none => .ok none
  | some used =>
    if 1.0 ≤ used then .ok (some 0)
    else if pace ≤ 0.0 then .ok none
    else
      let spanSecs := window.span.numSeconds
      if spanSecs ≤ 0 then .ok none
      else
        let perSecond := pace / F64Math.ofInt spanSecs
        let secs := F64Math.round ((1.0 - used) / perSecond)
        if !F64Math.isFinite secs ∨ secs < 0.0 ∨ F64Math.i64MaxAsF64 < secs then .ok none
        else (Duration.ofSeconds (F64Math.toI64 secs)).map some

/-- How much longer the headroom lasts at the pace held since the window opened. -/
def runway (window : EffectiveWindow F) (now : DateTime) : Except Panic (Option Duration) :=
  match pace window now with
  | some pace => runwayAt window pace
  | none => .ok none

/-- `f64::EPSILON`. -/
def epsilon : F := 2.220446049250313080847263336181640625e-16

/-- The pace that spends exactly the remaining headroom over exactly the time left. -/
def affordablePace (window : EffectiveWindow F) (now : DateTime) : Option F := do
  let used ← window.used
  let elapsed ← elapsedFraction window now
  let remaining := 1.0 - elapsed
  if remaining ≤ epsilon then none else some ((1.0 - used) / remaining)

/-- When the window is projected to hit its cap, if that is before its reset. -/
def etaToCap (window : EffectiveWindow F) (now : DateTime) : Except Panic (Option DateTime) := do
  match ← runway window now with
  | none => return none
  | some runway =>
    let eta ← DateTime.plus now runway
    return if eta < window.resetAt then some eta else none

/-- A low end, a central value and a high end. -/
structure Band (T : Type) where
  low : T
  mid : T
  high : T
  deriving DecidableEq, Repr

/-- What a rate implies about the rest of the window. -/
structure Projection (F : Type) where
  atReset : Band F
  /-- The high end is the latest, from the slow end of the rate. -/
  runway : Band (Option Duration)
  deriving DecidableEq, Repr

/-- Whether the cap may arrive before the reset, at the fast end of the rate. -/
def Projection.binding (projection : Projection F) (window : EffectiveWindow F)
    (now : DateTime) : Except Panic Bool :=
  match projection.runway.low with
  | none => .ok false
  | some runway => do
    let cap ← DateTime.plus now runway
    return decide (cap < window.resetAt)

/-- Extrapolate a rate to the reset and to the cap. -/
def project (window : EffectiveWindow F) (rate : RateEstimate F) (now : DateTime) :
    Except Panic (Option (Projection F)) :=
  match window.used with
  | none => .ok none
  | some used =>
    let span : F := F64Math.ofInt window.span.numSeconds
    if span ≤ 0.0 then .ok none
    else
      let left : F := F64Math.ofInt (max (Duration.numSeconds (window.resetAt - now)) 0) / span
      let atPace (pace : F) : F := used + pace * left
      do
        let low ← runwayAt window rate.high
        let mid ← runwayAt window rate.pace
        let high ← runwayAt window rate.low
        return some {
          atReset := { low := atPace rate.low, mid := atPace rate.pace, high := atPace rate.high }
          runway := { low, mid, high } }

/-- What the daemon observed moves the start alone, and only to a later instant. -/
theorem effectiveWindow_anchored {view : WindowView F ℚ} {now : DateTime}
    {window : EffectiveWindow F} (h : effectiveWindow view now = .ok (some window)) :
    ∃ nominal : EffectiveWindow F,
      effectiveWindow { view with observedStart := none } now = .ok (some nominal) ∧
        nominal.window = window.window ∧ nominal.used = window.used ∧
        nominal.resetAt = window.resetAt ∧ nominal.start ≤ window.start := by
  unfold effectiveWindow at h
  cases hreset : view.window.resetAt with
  | none =>
    rw [hreset] at h
    cases h
  | some resetAt =>
    cases hspan : view.window.span with
    | none =>
      rw [hreset, hspan] at h
      cases h
    | some span =>
      rw [hreset, hspan] at h
      obtain ⟨nominal, hnominal, h⟩ := bind_eq_ok.mp h
      cases h
      have hunobserved : effectiveWindow { view with observedStart := none } now =
          .ok (some {
            window := view.window.id, start := nominal, resetAt, startUncertainty := 0
            used := view.window.utilization } : Option (EffectiveWindow F)) := by
        unfold effectiveWindow
        simp only [hreset, hspan]
        exact bind_eq_ok.mpr ⟨nominal, hnominal, rfl⟩
      refine ⟨_, hunobserved, rfl, rfl, rfl, ?_⟩
      simp only
      cases hobserved : view.observedStart.filter fun o =>
          decide (nominal < o.estimate) && decide (o.estimate < resetAt) &&
            decide (o.notAfter ≤ now) with
      | none => exact le_rfl
      | some o =>
        have hkept := (Option.filter_eq_some_iff.mp hobserved).2
        simp only [Bool.and_eq_true, decide_eq_true_eq] at hkept
        exact hkept.1.1.le

end Metrics
end Teiryo
