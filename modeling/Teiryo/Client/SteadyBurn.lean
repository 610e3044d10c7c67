import Teiryo.Client.Estimates

/-!
# A steady burn

Usage that climbs at one rate, reported rounded down to whole steps. The step is inferred from the
readings and is never taken for a finer one, so the rounding end of every fit covers the rate.
-/

namespace Teiryo

variable {K : Type} [Field K] [LinearOrder K] [FloorRing K] [SquareRoot K]

/-- Readings of a percent window whose usage is `base + slope * n` percent at second `n`, rounded
down to a step. -/
structure SteadyBurn (window : WindowId) (points : List (QuotaSnapshot K))
    (base slope step : K) : Prop where
  rounded : step = 1 ∨ step = 0.5 ∨ step = 0.1
  climbing : 0 ≤ slope
  reading : ∀ p ∈ points, p.window = window → p.unit = .percent ∧ ∃ n : Int,
    p.ts = Duration.seconds n ∧ 0 ≤ base + slope * n ∧ base + slope * n ≤ 100 ∧
      p.used = ⌊(base + slope * n) / step⌋ * step

variable [IsStrictOrderedRing K] {points : List (QuotaSnapshot K)} {step : K}

private theorem fitsStep_of_multiples (hstep : step ≠ 0)
    (h : ∀ p ∈ points, ∃ k : Int, p.used = k * step) : fitsStep points step = true := by
  unfold fitsStep
  apply List.all_eq_true.mpr
  intro p hp
  obtain ⟨k, hk⟩ := h p hp
  rw [decide_eq_true_eq, hk]
  have hround : F64Math.round ((k : K) * step / step) = k := by
    rw [mul_div_cancel_right₀ _ hstep, F64Math.round_intCast]
  rw [hround, F64Math.abs_eq, sub_self, abs_zero]
  norm_num

private theorem step_le_readingQuantum (hstep : step = 1 ∨ step = 0.5 ∨ step = 0.1)
    (hne : points ≠ []) (hpercent : ∀ p ∈ points, p.unit = .percent)
    (h : ∀ p ∈ points, ∃ k : Int, p.used = k * step) : step / 100 ≤ readingQuantum points := by
  have hscale : quantumScale points = 100.0 := by
    unfold quantumScale
    rw [List.getLast?_eq_some_getLast hne, Option.bind_some, hpercent _ (List.getLast_mem hne)]
    rfl
  have hhundred : (100.0 : K) = 100 := by norm_num
  unfold readingQuantum
  rw [hscale, hhundred]
  apply div_le_div_of_nonneg_right _ (by norm_num)
  rcases hstep with rfl | rfl | rfl
  · rw [F64.one_eq, if_pos (fitsStep_of_multiples one_ne_zero h)]
  · split
    · norm_num
    · rw [if_pos (fitsStep_of_multiples (by norm_num) h)]
  · split
    · norm_num
    · split <;> norm_num

private theorem step_pos (hstep : step = 1 ∨ step = 0.5 ∨ step = 0.1) : 0 < step := by
  rcases hstep with rfl | rfl | rfl <;> norm_num

private theorem rounded_bounds {x : K} (hstep : 0 < step) :
    x - step ≤ ⌊x / step⌋ * step ∧ (⌊x / step⌋ : K) * step ≤ x := by
  have hlow : x / step - 1 ≤ ⌊x / step⌋ := (Int.sub_one_lt_floor _).le
  have hhigh : (⌊x / step⌋ : K) ≤ x / step := Int.floor_le _
  constructor
  · rw [← div_le_iff₀ hstep, sub_div, div_self hstep.ne']
    exact hlow
  · exact (le_div_iff₀ hstep).mp hhigh

/-- A reading of the burn, as a share of the bar. -/
theorem SteadyBurn.utilization {window : WindowId} {base slope : K}
    (h : SteadyBurn window points base slope step) {p : QuotaSnapshot K} (hp : p ∈ points)
    (hwindow : p.window = window) : ∃ n : Int, p.ts = Duration.seconds n ∧ ∃ used,
      p.utilization = some (used / 100) ∧ base + slope * n - step ≤ used ∧
        used ≤ base + slope * n := by
  obtain ⟨hunit, n, hts, hlow, hhigh, hused⟩ := h.reading p hp hwindow
  have hstep := step_pos h.rounded
  have hbounds := rounded_bounds (x := base + slope * n) hstep
  refine ⟨n, hts, p.used, ?_, hused ▸ hbounds.1, hused ▸ hbounds.2⟩
  have hnonneg : 0 ≤ p.used := by
    rw [hused]
    have hfloor : (0 : K) ≤ ⌊(base + slope * n) / step⌋ := by
      exact_mod_cast Int.floor_nonneg.mpr (div_nonneg hlow hstep.le)
    exact mul_nonneg hfloor hstep.le
  have hle : p.used ≤ 100 := (hused ▸ hbounds.2).trans hhigh
  have hhundred : (100.0 : K) = 100 := by norm_num
  show utilizationOf p.unit p.used p.limit = _
  rw [hunit]
  show some (F64.clamp (p.used / 100.0) 0.0 1.0) = _
  rw [hhundred, F64.zero_eq, F64.one_eq, F64.clamp_of_mem (div_nonneg hnonneg (by norm_num))]
  exact (div_le_one (by norm_num)).mpr hle

private theorem SteadyBurn.step_le_quantum {window : EffectiveWindow K} {base slope : K}
    {maxGap : Duration} {now : DateTime}
    (h : SteadyBurn window.window points base slope step)
    (hne : newestStretch maxGap (matching window points now) ≠ []) :
    step / 100 ≤ readingQuantum (newestStretch maxGap (matching window points now)) := by
  have hread : ∀ p ∈ newestStretch maxGap (matching window points now),
      p ∈ points ∧ p.window = window.window := by
    intro p hp
    have hseries := @seriesOf_matching K _ window points now
    obtain ⟨hmem, hmeasures⟩ := hseries.reading p ((List.drop_suffix _ _).subset hp)
    exact ⟨hmem, hmeasures.own⟩
  apply step_le_readingQuantum h.rounded hne
  · intro p hp
    obtain ⟨hmem, hown⟩ := hread p hp
    exact (h.reading p hmem hown).1
  · intro p hp
    obtain ⟨hmem, hown⟩ := hread p hp
    obtain ⟨-, k, -, -, -, hused⟩ := h.reading p hmem hown
    exact ⟨_, hused⟩

/-- Whatever `estimateRate` makes of a steady burn has its rate inside the interval. -/
theorem steady_rate_inside {window : EffectiveWindow K} {base slope : K} {maxGap : Duration}
    {now : DateTime} {e : RateEstimate K} (h : SteadyBurn window.window points base slope step)
    (he : estimateRate window points maxGap now = some e) :
    e.low ≤ slope / 100 * window.span.numSeconds ∧
      slope / 100 * window.span.numSeconds ≤ e.high := by
  have hseries := @seriesOf_matching K _ window points now
  have hknown : ∀ p ∈ matching window points now, p.utilization.isSome = true :=
    fun p hp => (hseries.reading p hp).2.known
  have hstretch := @newestStretch_spec K _ maxGap _ hknown
  rw [estimateRate_eq] at he
  obtain ⟨hspan, -, readings, hreadings, hfit⟩ := rateOf_fit hknown he
  obtain ⟨first, last, half, hof⟩ := fit_spec hfit
  have hwithin := hreadings.trans hstretch.suffix
  have hsteady : ∀ r ∈ utilizationRun readings, ∃ n : Int, r.1 = Duration.seconds n ∧ ∃ used,
      r.2 = used / 100 ∧ base + slope * n - step ≤ used ∧ used ≤ base + slope * n := by
    intro r hr
    obtain ⟨p, hp, hts, hutilization⟩ := mem_utilizationRun hr
    obtain ⟨hmem, hmeasures⟩ := hseries.reading p (hwithin.subset hp)
    obtain ⟨n, hn, used, hused, hbounds⟩ := h.utilization hmem hmeasures.own
    rw [hused, Option.some.injEq] at hutilization
    exact ⟨n, hts ▸ hn, used, hutilization.symm, hbounds⟩
  obtain ⟨m, hm, old, hold, holdlow, holdhigh⟩ := hsteady first (List.mem_of_mem_head? hof.oldest)
  obtain ⟨n, hn, new, hnew, hnewlow, hnewhigh⟩ :=
    hsteady last (List.mem_of_getLast? hof.newest)
  have hquantum :
      step / 100 ≤ readingQuantum (newestStretch maxGap (matching window points now)) := by
    apply h.step_le_quantum
    intro hnil
    rw [hnil, List.suffix_nil] at hreadings
    rw [hreadings] at hof
    cases hof.oldest
  generalize readingQuantum (newestStretch maxGap (matching window points now)) = quantum
    at hof hquantum
  have helapsed := hof.elapsed_pos
  have hseconds : Duration.numSeconds (last.1 - first.1) = n - m := by
    rw [hm, hn, Duration.seconds_sub, Duration.numSeconds_seconds]
  rw [F64Math.ofInt_eq] at hof
  rw [hseconds, Int.cast_sub] at helapsed
  have hscale : (0 : K) ≤ window.span.numSeconds := by exact_mod_cast hspan.le
  have hslope : (0 : K) ≤ slope / 100 := div_nonneg h.climbing (by norm_num)
  apply hof.contains hscale hslope
  · unfold burn
    rw [hseconds, Int.cast_sub, ← sub_div, div_le_iff₀ helapsed, hold, hnew]
    linarith
  · unfold burn
    rw [hseconds, Int.cast_sub, ← add_div, le_div_iff₀ helapsed, hold, hnew]
    linarith

private theorem steadyBurn_session :
    SteadyBurn sessionWindow.window sessionReadings 1 (1 / 300) (1 : ℚ) where
  rounded := .inl rfl
  climbing := by norm_num
  reading := by
    intro p hp _
    rcases List.mem_pair.mp hp with rfl | rfl
    · refine ⟨rfl, 0, rfl, ?_⟩
      norm_num [sessionReading]
    · refine ⟨rfl, 600, rfl, ?_⟩
      norm_num [sessionReading]

theorem steady_rate_inside_session :
    sessionEstimate.low ≤ 1 / 300 / 100 * (sessionWindow.span.numSeconds : ℚ) ∧
      1 / 300 / 100 * (sessionWindow.span.numSeconds : ℚ) ≤ sessionEstimate.high :=
  steady_rate_inside steadyBurn_session estimateRate_session

end Teiryo
