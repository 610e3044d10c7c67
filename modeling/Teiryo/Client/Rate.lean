import Teiryo.Client.Metrics
import Teiryo.Core.F64

/-!
# The burn rate of a series

How fast a window is used up over the newest stretch of its readings, and how sure of it the
readings allow one to be, following `teiryo/src/metrics.rs`.
-/

namespace Teiryo

namespace Duration

@[simp] theorem numSeconds_seconds (n : Int) : (seconds n).numSeconds = n :=
  Int.mul_tdiv_cancel n (by decide)

@[simp] theorem seconds_sub (n m : Int) : seconds n - seconds m = seconds (n - m) :=
  (Int.sub_mul n m 1000000000).symm

/-- Whole seconds counted in a duration are in it. -/
theorem seconds_le {n d : Int} (hpos : 0 < n) (h : n ≤ numSeconds d) : seconds n ≤ d := by
  show n * 1000000000 ≤ d
  unfold numSeconds at h
  by_cases hd : 0 ≤ d
  · rw [Int.tdiv_eq_ediv_of_nonneg hd] at h
    omega
  · have hneg : Int.tdiv d 1000000000 = -Int.tdiv (-d) 1000000000 := by
      rw [Int.neg_tdiv, neg_neg]
    have hle : 0 ≤ Int.tdiv (-d) 1000000000 := Int.tdiv_nonneg (by omega) (by decide)
    omega

end Duration

/-- How long the window that actually ran is. -/
def EffectiveWindow.span {F : Type} (window : EffectiveWindow F) : Duration :=
  window.resetAt - window.start

/-- Shortest stretch of series a rate is worth deriving from, in seconds. -/
def minSampleSecs : Int := 300

/-- How far back a rate looks before it has to widen: a tenth of the window within bounds. -/
def recentLookback (span : Duration) : Duration :=
  Duration.seconds (max (15 * 60) (min (12 * 3600) (Int.tdiv span.numSeconds 10)))

section Estimates

variable {F : Type} [F64Math F]

/-- Student-t quantiles at 0.90, for 1 to 30 degrees of freedom. -/
def tQuantiles : List F := [
  3.078, 1.886, 1.638, 1.533, 1.476, 1.440, 1.415, 1.397, 1.383, 1.372, 1.363, 1.356, 1.350,
  1.345, 1.341, 1.337, 1.333, 1.330, 1.328, 1.325, 1.323, 1.321, 1.319, 1.318, 1.316, 1.315,
  1.314, 1.313, 1.311, 1.310]

/-- The normal quantile the table converges on past its last row. -/
def zQuantile : F := 1.2816

def tQuantile (dof : Nat) : F :=
  match dof with
  | 0 => zQuantile
  | i + 1 => (tQuantiles[i]?).getD zQuantile

def precisionAbs : F := 0.25

def precisionRel : F := 0.25

/-- A burn rate and its interval, in multiples of the rate the window can afford. -/
structure RateEstimate (F : Type) where
  pace : F
  low : F
  high : F
  /-- Oldest reading the estimate rests on. -/
  fromTs : DateTime
  /-- Newest reading the estimate rests on. -/
  toTs : DateTime
  readings : Nat
  quantum : F
  deriving DecidableEq, Repr

namespace RateEstimate

def width (e : RateEstimate F) : F := e.high - e.low

/-- Whether widening the lookback would trade recency for nothing a reader could see. -/
def isPrecise (e : RateEstimate F) : Bool :=
  decide (2 < e.readings) && decide (e.width ≤ F64.max precisionAbs (precisionRel * e.pace))

end RateEstimate

/-- Whether every reading is a whole number of steps. -/
def fitsStep (points : List (QuotaSnapshot F)) (step : F) : Bool :=
  points.all fun p =>
    decide (F64Math.abs (F64Math.round (p.used / step) * step - p.used) < 1e-6)

/-- One raw step's share of the bar is over this. -/
def quantumScale (points : List (QuotaSnapshot F)) : F :=
  (points.getLast?.bind fun p =>
    match p.unit with
    | .percent => some 100.0
    | _ => p.limit.filter fun l => decide (0.0 < l)).getD 100.0

/-- The resolution a series is reported at, inferred from its readings. -/
def readingQuantum (points : List (QuotaSnapshot F)) : F :=
  let raw : F := if fitsStep points 1.0 then 1.0 else if fitsStep points 0.5 then 0.5 else 0.1
  raw / quantumScale points

/-- How far the steps between readings stray from the rate, squared and summed up. -/
def stepScatter (rate : F) (run : List (DateTime × F)) : F :=
  ((run.zip run.tail).map fun pair =>
    let tau : F := F64Math.ofInt (Duration.numSeconds (pair.2.1 - pair.1.1))
    let stray := pair.2.2 - pair.1.2 - rate * tau
    stray * stray).foldl (· + ·) 0.0

/-- The half-width the scatter of the steps leaves undecided. -/
def statisticalHalf (rate elapsed : F) (run : List (DateTime × F)) : F :=
  let steps := run.length - 1
  if 1 < steps then
    let dof := steps - 1
    let variance := stepScatter rate run * F64Math.ofInt steps / F64Math.ofInt dof /
      (elapsed * elapsed)
    tQuantile dof * F64Math.sqrt variance
  else 0.0

/-- Fit a rate to one unbroken stretch of readings, oldest first. -/
def fit (run : List (DateTime × F)) (quantum spanSecs : F) : Option (RateEstimate F) :=
  match run.head?, run.getLast? with
  | some (firstTs, firstUsed), some (lastTs, lastUsed) =>
    let seconds := Duration.numSeconds (lastTs - firstTs)
    let elapsed : F := F64Math.ofInt seconds
    if run.length < 2 ∨ elapsed < F64Math.ofInt minSampleSecs then none
    else
      let rate := (lastUsed - firstUsed) / elapsed
      let rounding := quantum / elapsed
      let half := F64.max (statisticalHalf rate elapsed run) rounding
      some {
        pace := F64.max rate 0.0 * spanSecs
        low := F64.max (rate - half) 0.0 * spanSecs
        high := F64.max (rate + half) 0.0 * spanSecs
        fromTs := firstTs
        toTs := lastTs
        readings := run.length
        quantum }
  | _, _ => none

/-- Whether the readings a widening adds were burnt at a rate the newer ones rule out. -/
def rateChanged (tail : List (DateTime × F)) (quantum spanSecs : F) (newer : RateEstimate F) :
    Bool :=
  (fit (tail.takeWhile fun r => decide (r.1 ≤ newer.fromTs)) quantum spanSecs).any fun older =>
    decide (older.high < newer.low) || decide (newer.high < older.low)

/-- Widen the lookback, doubling it, until the interval is readable, the stretch is exhausted or
the rate changes. The first argument bounds the doublings. -/
def widen (stretch : List (DateTime × F)) (newestTs : DateTime) (quantum spanSecs : F) :
    Nat → Duration → Option (RateEstimate F) → Option (RateEstimate F)
  | 0, _, _ => none
  | doublings + 1, lookback, narrower =>
    let floor := newestTs - lookback
    let tail := stretch.dropWhile fun r => decide (r.1 < floor)
    let exhausted := decide (tail.length = stretch.length)
    if narrower.any (rateChanged tail quantum spanSecs) then narrower
    else
      match fit tail quantum spanSecs with
      | some estimate =>
        if exhausted || estimate.isPrecise then some estimate
        else widen stretch newestTs quantum spanSecs doublings (lookback * 2) (some estimate)
      | none =>
        if exhausted then none
        else widen stretch newestTs quantum spanSecs doublings (lookback * 2) none

/-- Doublings after which a lookback of at least a nanosecond reaches past a stretch. -/
def enoughDoublings (stretch : List (DateTime × F)) (newestTs : DateTime) : Nat :=
  (stretch.head?.elim 0 fun oldest => (newestTs - oldest.1).toNat).log2 + 2

/-- Burn rate over the newest unbroken stretch of the series, with its interval. -/
def estimateRate (window : EffectiveWindow F) (points : List (QuotaSnapshot F))
    (maxGap : Duration) (now : DateTime) : Option (RateEstimate F) :=
  if window.span.numSeconds ≤ 0 then none
  else
    let readings := matching window points now
    let run := utilizationRun readings
    match run.getLast? with
    | none => none
    | some (newestTs, _) =>
      if maxGap < now - newestTs then none
      else
        let first := stretchStart maxGap run (run.length - 1)
        let stretch := run.drop first
        let quantum := readingQuantum (readings.drop first)
        widen stretch newestTs quantum (F64Math.ofInt window.span.numSeconds)
          (enoughDoublings stretch newestTs) (recentLookback window.span) none

/-- One reading of a charted series with everything derived at its instant. -/
structure RatePoint (F : Type) where
  ts : DateTime
  window : EffectiveWindow F
  rate : Option (RateEstimate F)
  deriving DecidableEq, Repr

/-- The window instance a reading belonged to: the live one if it carries that one's reset, else
the one that ends at its own reset. -/
def instanceOf (window : WindowId) (span : Duration) (current : Option (EffectiveWindow F))
    (p : QuotaSnapshot F) (resetAt : DateTime) : EffectiveWindow F :=
  let nominal : EffectiveWindow F := {
    window, resetAt
    start := resetAt - span
    startUncertainty := 0
    used := p.utilization }
  match current with
  | some c =>
    if Duration.abs (c.resetAt - resetAt) ≤ resetTolerance ∧ c.start ≤ p.ts then
      { c with used := p.utilization }
    else nominal
  | none => nominal

/-- Slide `estimateRate` along a series, as a row would have computed it at each reading. -/
def rateSeries (window : WindowId) (span : Duration) (current : Option (EffectiveWindow F))
    (points : List (QuotaSnapshot F)) (maxGap : Duration) : List (RatePoint F) :=
  let readings := rateReadings window points
  readings.zipIdx.filterMap fun (p, i) =>
    p.resetAt.map fun resetAt =>
      let window := instanceOf window span current p resetAt
      { ts := p.ts
        window
        rate := estimateRate window (instanceReadings window readings i) maxGap p.ts }

end Estimates
end Teiryo
