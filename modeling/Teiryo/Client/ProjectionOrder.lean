import Teiryo.Client.Estimates
import Teiryo.Client.Runways

/-!
# Projections in order

A faster pace reaches the cap no later and ends the window no lower, so the ends of a rate project
to the ends of a band. The window's start cancels out of both: a pace is a slope times the span,
and each formula divides the span out again.
-/

namespace Teiryo

variable {K : Type} [Field K] [LinearOrder K] [FloorRing K] [SquareRoot K]

/-- One runway ends no later than another, of which none never ends. -/
def NoLater (early late : Option Duration) : Prop := ∀ d ∈ late, ∃ c ∈ early, c ≤ d

namespace Band

/-- The three values at the reset are in order. -/
def Ordered (band : Band K) : Prop := band.low ≤ band.mid ∧ band.mid ≤ band.high

/-- The three runways are in order. -/
def InTurn (band : Band (Option Duration)) : Prop :=
  NoLater band.low band.mid ∧ NoLater band.mid band.high

end Band

/-- The rates are the same slopes, each scaled by its window's span. -/
structure SameSlopes (window other : EffectiveWindow K) (rate scaled : RateEstimate K) : Prop where
  low : scaled.low / other.span.numSeconds = rate.low / window.span.numSeconds
  pace : scaled.pace / other.span.numSeconds = rate.pace / window.span.numSeconds
  high : scaled.high / other.span.numSeconds = rate.high / window.span.numSeconds

/-- A rate projects to ordered bands, and its slopes to the same ones from any other start. -/
def ProjectsWell (window : EffectiveWindow K) (rate : RateEstimate K) (now : DateTime) : Prop :=
  ∃ projection, project window rate now = .ok (some projection) ∧
    projection.atReset.Ordered ∧ projection.runway.InTurn ∧
    ∀ (start : DateTime) (scaled : RateEstimate K),
      0 < ({ window with start } : EffectiveWindow K).span.numSeconds →
      SameSlopes window { window with start } rate scaled →
      project { window with start } scaled now = .ok (some projection)

variable [IsStrictOrderedRing K] {window : EffectiveWindow K} {used pace : K} {now : DateTime}

private theorem timeToCap_antitone {slow fast : K}
    (hused : used < 1) (hspan : 0 < window.span.numSeconds) (hslow : 0 < slow) (hle : slow ≤ fast) :
    timeToCap window used fast ≤ timeToCap window used slow := by
  have hsecs : (0 : K) ≤ window.span.numSeconds := by exact_mod_cast hspan.le
  exact div_le_div_of_nonneg_left (mul_nonneg (sub_nonneg.mpr hused.le) hsecs) hslow hle

/-- There is no runway where it would be past chrono's durations and short of the guard. -/
theorem runwayAt_ok_iff (hsome : window.used = some used) (hspan : 0 < window.span.numSeconds) :
    (∃ r, runwayAt window pace = .ok r) ↔
      ¬ (used < 1 ∧ 0 < pace ∧ Duration.maxSeconds + 1 / 2 ≤ timeToCap window used pace ∧
        timeToCap window used pace < i64Guard + 1 / 2) := by
  by_cases hused : used < 1
  swap
  · exact ⟨fun _ h => hused h.1, fun _ => ⟨_, runwayAt_capped hsome (not_lt.mp hused)⟩⟩
  by_cases hpace : 0 < pace
  swap
  · exact ⟨fun _ h => hpace h.2.1, fun _ => ⟨_, runwayAt_idle hsome hused (not_lt.mp hpace)⟩⟩
  obtain ⟨hshort, hrunway⟩ | ⟨hlong, hcapped, hrunway⟩ | ⟨hnever, hrunway⟩ :=
    runwayAt_cases hsome hused hspan hpace
  · exact ⟨fun _ h => absurd hshort h.2.2.1.not_gt, fun _ => ⟨_, hrunway⟩⟩
  · refine ⟨?_, fun h => absurd ⟨hused, hpace, hlong, hcapped⟩ h⟩
    rintro ⟨r, hr⟩
    cases hrunway.symm.trans hr
  · exact ⟨fun _ h => absurd hnever h.2.2.2.not_ge, fun _ => ⟨_, hrunway⟩⟩

private theorem runwayAt_antitone {slow fast : K} {early late : Option Duration}
    (hsome : window.used = some used) (hspan : 0 < window.span.numSeconds)
    (hslow : 0 ≤ slow) (hle : slow ≤ fast) (hearly : runwayAt window fast = .ok early)
    (hlate : runwayAt window slow = .ok late) : NoLater early late := by
  intro d hd
  by_cases hused : used < 1
  swap
  · have hcapped := not_lt.mp hused
    cases (runwayAt_capped hsome hcapped).symm.trans hearly
    cases (runwayAt_capped hsome hcapped).symm.trans hlate
    cases hd
    exact ⟨0, rfl, le_rfl⟩
  rcases hslow.eq_or_lt with rfl | hpositive
  · cases (runwayAt_idle hsome hused le_rfl).symm.trans hlate
    cases hd
  have htime := timeToCap_antitone hused hspan hpositive hle
  obtain ⟨hshort, hrunway⟩ | ⟨-, -, hrunway⟩ | ⟨-, hrunway⟩ :=
    runwayAt_cases hsome hused hspan hpositive
  · obtain ⟨-, hsooner⟩ | ⟨hlong, -, -⟩ | ⟨hnever, -⟩ :=
      runwayAt_cases hsome hused hspan (hpositive.trans_le hle)
    · cases hrunway.symm.trans hlate
      cases hsooner.symm.trans hearly
      cases hd
      refine ⟨_, rfl, ?_⟩
      have hfloor : ⌊timeToCap window used fast + 1 / 2⌋ ≤ ⌊timeToCap window used slow + 1 / 2⌋ :=
        Int.floor_le_floor (add_le_add_left htime _)
      exact Int.mul_le_mul_of_nonneg_right hfloor (by decide)
    · exact absurd (htime.trans_lt hshort) hlong.not_gt
    · have hguard : (Duration.maxSeconds : K) ≤ i64Guard := by
        exact_mod_cast (by decide : Duration.maxSeconds ≤ i64Guard)
      linarith
  · cases hrunway.symm.trans hlate
  · cases hrunway.symm.trans hlate
    cases hd

private theorem runwayAt_congr {other : EffectiveWindow K} {scaled : K}
    (hused : other.used = window.used)
    (hspan : 0 < window.span.numSeconds) (hother : 0 < other.span.numSeconds)
    (hslope : scaled / other.span.numSeconds = pace / window.span.numSeconds) :
    runwayAt other scaled = runwayAt window pace := by
  have hspan' : (0 : K) < window.span.numSeconds := by exact_mod_cast hspan
  have hother' : (0 : K) < other.span.numSeconds := by exact_mod_cast hother
  have hsign : scaled ≤ 0 ↔ pace ≤ 0 := by
    calc scaled ≤ 0 ↔ scaled / other.span.numSeconds ≤ 0 := by rw [div_le_iff₀ hother', zero_mul]
      _ ↔ pace / window.span.numSeconds ≤ 0 := by rw [hslope]
      _ ↔ pace ≤ 0 := by rw [div_le_iff₀ hspan', zero_mul]
  unfold runwayAt
  simp only [hused, F64.zero_eq, F64Math.ofInt_eq, hslope, if_neg hspan.not_ge,
    if_neg hother.not_ge, hsign]

omit [IsStrictOrderedRing K] in
private theorem atReset_congr {other : EffectiveWindow K} {scaled : K}
    (hreset : other.resetAt = window.resetAt)
    (hslope : scaled / other.span.numSeconds = pace / window.span.numSeconds) :
    scaled * shareLeft other now = pace * shareLeft window now := by
  unfold shareLeft
  rw [hreset, mul_div_left_comm, hslope, mul_div_left_comm]

private theorem project_congr {other : EffectiveWindow K} {rate scaled : RateEstimate K}
    {result : Option (Projection K)} (hsome : window.used = some used)
    (hused : other.used = window.used) (hreset : other.resetAt = window.resetAt)
    (hspan : 0 < window.span.numSeconds) (hother : 0 < other.span.numSeconds)
    (hslopes : SameSlopes window other rate scaled) :
    project other scaled now = .ok result ↔ project window rate now = .ok result := by
  rw [project_eq_ok hsome hspan, project_eq_ok (hused.trans hsome) hother,
    runwayAt_congr hused hspan hother hslopes.low, runwayAt_congr hused hspan hother hslopes.pace,
    runwayAt_congr hused hspan hother hslopes.high, atReset_congr hreset hslopes.low,
    atReset_congr hreset hslopes.pace, atReset_congr hreset hslopes.high]

private theorem shareLeft_nonneg (hspan : 0 < window.span.numSeconds) :
    0 ≤ shareLeft window now := by
  have hleft : (0 : K) ≤ (max (Duration.numSeconds (window.resetAt - now)) 0 : Int) := by
    exact_mod_cast le_max_right _ _
  have hsecs : (0 : K) ≤ window.span.numSeconds := by exact_mod_cast hspan.le
  exact div_nonneg hleft hsecs

/-- A rate with its ends in order projects well, unless one of its runways cannot be built. -/
theorem project_well_iff {rate : RateEstimate K} (hsome : window.used = some used)
    (hspan : 0 < window.span.numSeconds) (hnonneg : 0 ≤ rate.low) (hlow : rate.low ≤ rate.pace)
    (hhigh : rate.pace ≤ rate.high) :
    ProjectsWell window rate now ↔
      ∀ pace ∈ [rate.low, rate.pace, rate.high],
        ¬ (used < 1 ∧ 0 < pace ∧ Duration.maxSeconds + 1 / 2 ≤ timeToCap window used pace ∧
          timeToCap window used pace < i64Guard + 1 / 2) := by
  simp only [← runwayAt_ok_iff hsome hspan, List.forall_mem_cons, List.not_mem_nil, false_imp_iff,
    implies_true, and_true]
  constructor
  · rintro ⟨projection, hproject, -⟩
    obtain ⟨low, mid, high, hfast, hmid, hslow, -⟩ := (project_eq_ok hsome hspan).mp hproject
    exact ⟨⟨high, hslow⟩, ⟨mid, hmid⟩, ⟨low, hfast⟩⟩
  · rintro ⟨⟨high, hslow⟩, ⟨mid, hmid⟩, ⟨low, hfast⟩⟩
    have hleft : 0 ≤ shareLeft window now := shareLeft_nonneg hspan
    have hproject : project window rate now = .ok (some _) :=
      (project_eq_ok hsome hspan).mpr ⟨low, mid, high, hfast, hmid, hslow, rfl⟩
    refine ⟨_, hproject, ?_, ?_, ?_⟩
    · exact ⟨add_le_add_right (mul_le_mul_of_nonneg_right hlow hleft) used,
        add_le_add_right (mul_le_mul_of_nonneg_right hhigh hleft) used⟩
    · exact ⟨runwayAt_antitone hsome hspan (hnonneg.trans hlow) hhigh hfast hmid,
        runwayAt_antitone hsome hspan hnonneg hlow hmid hslow⟩
    · intro start scaled hother hslopes
      have hused : ({ window with start } : EffectiveWindow K).used = window.used := rfl
      exact (project_congr hsome hused rfl hspan hother hslopes).mpr hproject

/-- The session's rate, of which the fast end may run out within the session. -/
theorem project_well_session : ProjectsWell halfSession sessionEstimate 0 := by
  have hsome : halfSession.used = some (1 / 2) := rfl
  refine (project_well_iff hsome (by decide) (by norm_num [sessionEstimate])
    (by norm_num [sessionEstimate]) (by norm_num [sessionEstimate])).mpr ?_
  decide +kernel

/-- With a slow end past chrono's durations there is no projection at all. -/
theorem project_unbuilt :
    ¬ ProjectsWell halfSession { sessionEstimate with low := 1 / 2 ^ 40 } 0 := by
  rintro ⟨projection, hproject, -⟩
  have hpanic : project halfSession { sessionEstimate with low := 1 / 2 ^ 40 } 0 =
    .error .durationOutOfBounds := by decide +kernel
  cases hpanic.symm.trans hproject

section Anchored

variable {view : WindowView K ℚ} {nominal : EffectiveWindow K}

omit [IsStrictOrderedRing K] in
private theorem numSeconds_anchored (h : effectiveWindow view now = .ok (some window))
    (hnominal : effectiveWindow { view with observedStart := none } now = .ok (some nominal)) :
    nominal.used = window.used ∧ nominal.resetAt = window.resetAt ∧
      window.span.numSeconds ≤ nominal.span.numSeconds := by
  obtain ⟨other, hother, -, hused, hreset, hstart⟩ := effectiveWindow_anchored h
  cases hother.symm.trans hnominal
  refine ⟨hused, hreset, Int.tdiv_le_tdiv (by decide) ?_⟩
  rw [EffectiveWindow.span, EffectiveWindow.span, hreset]
  exact sub_le_sub_left hstart _

/-- A slope projects to the same whether or not the restart was observed. -/
theorem project_anchored {rate scaled : RateEstimate K} {result : Option (Projection K)}
    (h : effectiveWindow view now = .ok (some window))
    (hnominal : effectiveWindow { view with observedStart := none } now = .ok (some nominal))
    (hsome : window.used = some used) (hspan : 0 < window.span.numSeconds)
    (hslopes : SameSlopes nominal window rate scaled) :
    project window scaled now = .ok result ↔ project nominal rate now = .ok result := by
  obtain ⟨hused, hreset, hle⟩ := numSeconds_anchored h hnominal
  exact project_congr (hused.trans hsome) hused.symm hreset.symm (hspan.trans_le hle) hspan hslopes

/-- At the same multiple of the clock, the window that ran reaches its cap no later than the
nominal one would. -/
theorem runwayAt_anchored {early late : Option Duration}
    (h : effectiveWindow view now = .ok (some window))
    (hnominal : effectiveWindow { view with observedStart := none } now = .ok (some nominal))
    (hsome : window.used = some used) (hspan : 0 < window.span.numSeconds) (hpace : 0 ≤ pace)
    (hearly : runwayAt window pace = .ok early) (hlate : runwayAt nominal pace = .ok late) :
    NoLater early late := by
  obtain ⟨hused, -, hle⟩ := numSeconds_anchored h hnominal
  have hseconds : (0 : K) < window.span.numSeconds := by exact_mod_cast hspan
  have hlonger : (window.span.numSeconds : K) ≤ nominal.span.numSeconds := by exact_mod_cast hle
  have hpositive : (0 : K) < nominal.span.numSeconds := hseconds.trans_le hlonger
  -- the nominal window's pace is a slower one of the window that ran
  have hslower : pace * (window.span.numSeconds / nominal.span.numSeconds) ≤ pace :=
    mul_le_of_le_one_right hpace ((div_le_one hpositive).mpr hlonger)
  have hslope : pace / nominal.span.numSeconds =
      pace * (window.span.numSeconds / nominal.span.numSeconds) / window.span.numSeconds := by
    field_simp
  rw [runwayAt_congr hused hspan (hspan.trans_le hle) hslope] at hlate
  exact runwayAt_antitone hsome hspan (mul_nonneg hpace (div_nonneg hseconds.le hpositive.le))
    hslower hearly hlate

end Anchored

end Teiryo
