import Teiryo.Client.Rate
import Teiryo.Framework.InOrder

/-!
# What an estimate rests on

Every way out of the widening of `estimateRate` hands back a fit of one suffix of the newest
unbroken stretch. What is said of an estimate is therefore said of a fit once: which readings it
rests on, that its interval has its ends in order, and that the interval is no narrower than one
rounding step over the readings.
-/

namespace Teiryo

/-! ## The readings of a window -/

section Readings

variable {F : Type}

theorem inOrder_eq (points : List (QuotaSnapshot F)) :
    inOrder points = InOrder.byKey (fun p => p.ts) points := by
  unfold inOrder InOrder.byKey
  congr

variable [F64 F] {window : EffectiveWindow F} {points : List (QuotaSnapshot F)} {now : DateTime}

/-- A reading a rate of the window as of `now` may rest on. -/
structure Measures (window : EffectiveWindow F) (now : DateTime) (p : QuotaSnapshot F) :
    Prop where
  own : p.window = window.window
  started : window.start ≤ p.ts
  taken : p.ts ≤ now
  reset : ∃ theirs, p.resetAt = some theirs ∧
    Duration.abs (theirs - window.resetAt) ≤ Duration.seconds 120
  known : p.utilization.isSome = true

theorem measures_iff {p : QuotaSnapshot F} :
    measures window now p = true ↔ Measures window now p := by
  simp only [measures, inSameWindow, Bool.and_eq_true, beq_iff_eq, decide_eq_true_eq,
    Option.any_eq_true]
  constructor
  · rintro ⟨⟨⟨hown, hstarted, htaken⟩, hreset⟩, hknown⟩
    exact ⟨hown, hstarted, htaken, hreset, hknown⟩
  · rintro ⟨hown, hstarted, htaken, hreset, hknown⟩
    exact ⟨⟨⟨hown, hstarted, htaken⟩, hreset⟩, hknown⟩

/-- The readings among the points that a rate may rest on, one for each time, oldest first. -/
structure SeriesOf (window : EffectiveWindow F) (points : List (QuotaSnapshot F))
    (now : DateTime) (series : List (QuotaSnapshot F)) : Prop where
  increasing : series.Pairwise fun a b => a.ts < b.ts
  reading : ∀ p ∈ series, p ∈ points ∧ Measures window now p
  complete : ∀ p ∈ points, Measures window now p → ∃ q ∈ series, q.ts = p.ts

theorem seriesOf_matching : SeriesOf window points now (matching window points now) := by
  unfold matching
  rw [inOrder_eq]
  refine ⟨InOrder.pairwise_byKey _, ?_, ?_⟩
  · intro p hp
    obtain ⟨hmem, hmeasures⟩ := List.mem_filter.mp (InOrder.byKey_subset hp)
    exact ⟨hmem, measures_iff.mp hmeasures⟩
  · intro p hp hmeasures
    exact InOrder.exists_mem_byKey (List.mem_filter.mpr ⟨hp, measures_iff.mpr hmeasures⟩)

private theorem matching_eq_self (hmeasures : ∀ p ∈ points, measures window now p = true)
    (hincreasing : points.Pairwise fun a b => a.ts < b.ts) :
    matching window points now = points := by
  unfold matching
  rw [inOrder_eq, List.filter_eq_self.mpr hmeasures, InOrder.byKey_of_pairwise hincreasing]

end Readings

/-! ## The newest stretch -/

section Stretch

variable {F : Type} [F64 F] {maxGap : Duration} {series stretch : List (QuotaSnapshot F)}

/-- Whether a run is cut between two neighbours, at a hole or a fall. -/
def Cut (maxGap : Duration) (a b : DateTime × F) : Prop :=
  maxGap < b.1 - a.1 ∨ b.2 < a.2 - fallEpsilon

/-- Whether the series can be read across the step from one reading to the next. -/
structure Continues (maxGap : Duration) (a b : QuotaSnapshot F) : Prop where
  gap : b.ts - a.ts ≤ maxGap
  fall : ∀ u v, a.utilization = some u → b.utilization = some v → ¬ v < u - fallEpsilon

/-- The longest end of a series that can be read across at every step. -/
structure NewestStretch (maxGap : Duration) (series stretch : List (QuotaSnapshot F)) :
    Prop where
  suffix : stretch <:+ series
  unbroken : stretch.IsChain (Continues maxGap)
  longest : ∀ other, other <:+ series → other.IsChain (Continues maxGap) → other <:+ stretch

/-- The readings from where the walk back ends. -/
def newestStretch (maxGap : Duration) (series : List (QuotaSnapshot F)) :
    List (QuotaSnapshot F) :=
  series.drop (stretchStart maxGap (utilizationRun series) ((utilizationRun series).length - 1))

private theorem NewestStretch.unique {other : List (QuotaSnapshot F)}
    (h : NewestStretch maxGap series stretch) (h' : NewestStretch maxGap series other) :
    stretch = other :=
  List.IsSuffix.eq_of_length (h'.longest stretch h.suffix h.unbroken)
    (Nat.le_antisymm (h'.longest stretch h.suffix h.unbroken).length_le
      (h.longest other h'.suffix h'.unbroken).length_le)

private theorem NewestStretch.self (h : NewestStretch maxGap series stretch) :
    NewestStretch maxGap stretch stretch :=
  ⟨List.suffix_rfl, h.unbroken, fun _ hother _ => hother⟩

private theorem stretchStart_le (run : List (DateTime × F)) (i : Nat) :
    stretchStart maxGap run i ≤ i := by
  induction i with
  | zero => exact le_rfl
  | succ i ih =>
    rw [stretchStart]
    split
    · split
      · exact le_rfl
      · exact ih.trans (Nat.le_succ i)
    · exact le_rfl

/-- The walk stops at the first cut it meets, and only there. -/
theorem stretchStart_spec {run : List (DateTime × F)} {i : Nat} (hi : i < run.length) :
    (∀ j a b, stretchStart maxGap run i ≤ j → j < i → run[j]? = some a → run[j + 1]? = some b →
      ¬ Cut maxGap a b) ∧
    ∀ j a b, stretchStart maxGap run i = j + 1 → run[j]? = some a → run[j + 1]? = some b →
      Cut maxGap a b := by
  induction i with
  | zero =>
    refine ⟨fun j _ _ _ hj => (Nat.not_lt_zero j hj).elim, ?_⟩
    intro j a b hstart
    cases hstart
  | succ i ih =>
    have hprev : run[i]? = some run[i] := List.getElem?_eq_getElem (by omega)
    have hnext : run[i + 1]? = some run[i + 1] := List.getElem?_eq_getElem hi
    rw [stretchStart, hprev, hnext]
    simp only
    by_cases hcut : Cut maxGap run[i] run[i + 1]
    · have hif := hcut
      unfold Cut at hif
      rw [if_pos hif]
      refine ⟨fun j _ _ hle hlt => absurd hle (by omega), ?_⟩
      intro j a b hj ha hb
      obtain rfl : j = i := by omega
      rw [hprev] at ha
      rw [hnext] at hb
      cases ha
      cases hb
      exact hcut
    · have hif := hcut
      unfold Cut at hif
      rw [if_neg hif]
      obtain ⟨hwalked, hstop⟩ := ih (by omega)
      refine ⟨?_, hstop⟩
      intro j a b hle hlt ha hb
      by_cases hj : j = i
      · subst hj
        rw [hprev] at ha
        rw [hnext] at hb
        cases ha
        cases hb
        exact hcut
      · exact hwalked j a b hle (by omega) ha hb

private theorem getElem?_utilizationRun (hknown : ∀ p ∈ series, p.utilization.isSome = true)
    (i : Nat) : (utilizationRun series)[i]? =
      series[i]?.bind fun p => p.utilization.map fun used => (p.ts, used) := by
  induction series generalizing i with
  | nil => rfl
  | cons p series ih =>
    obtain ⟨used, hused⟩ := Option.isSome_iff_exists.mp (hknown p List.mem_cons_self)
    have hcons : utilizationRun (p :: series) = (p.ts, used) :: utilizationRun series := by
      unfold utilizationRun
      rw [List.filterMap_cons, hused]
      rfl
    rw [hcons]
    cases i with
    | zero =>
      rw [List.getElem?_cons_zero, List.getElem?_cons_zero, Option.bind_some, hused]
      rfl
    | succ i =>
      rw [List.getElem?_cons_succ, List.getElem?_cons_succ]
      exact ih (fun q hq => hknown q (List.mem_cons_of_mem _ hq)) i

private theorem length_utilizationRun (hknown : ∀ p ∈ series, p.utilization.isSome = true) :
    (utilizationRun series).length = series.length := by
  have h := congrArg List.length (utilizationRun_times hknown)
  rwa [List.length_map, List.length_map] at h

theorem mem_utilizationRun {r : DateTime × F} (h : r ∈ utilizationRun series) :
    ∃ p ∈ series, p.ts = r.1 ∧ p.utilization = some r.2 := by
  obtain ⟨p, hp, hr⟩ := List.mem_filterMap.mp h
  obtain ⟨used, hused, rfl⟩ := Option.map_eq_some_iff.mp hr
  exact ⟨p, hp, rfl, hused⟩

private theorem utilizationRun_drop (hknown : ∀ p ∈ series, p.utilization.isSome = true) (i : Nat) :
    utilizationRun (series.drop i) = (utilizationRun series).drop i := by
  apply List.ext_getElem?
  intro j
  rw [getElem?_utilizationRun fun p hp => hknown p (List.mem_of_mem_drop hp), List.getElem?_drop,
    List.getElem?_drop, getElem?_utilizationRun hknown]

private theorem continues_iff {a b : QuotaSnapshot F} {u v : F} (ha : a.utilization = some u)
    (hb : b.utilization = some v) : Continues maxGap a b ↔ ¬ Cut maxGap (a.ts, u) (b.ts, v) := by
  unfold Cut
  rw [not_or]
  constructor
  · intro h
    exact ⟨Int.not_lt.mpr h.gap, h.fall u v ha hb⟩
  · rintro ⟨hgap, hfall⟩
    refine ⟨Int.not_lt.mp hgap, ?_⟩
    intro u' v' hu' hv'
    rw [ha] at hu'
    rw [hb] at hv'
    cases hu'
    cases hv'
    exact hfall

theorem newestStretch_spec (hknown : ∀ p ∈ series, p.utilization.isSome = true) :
    NewestStretch maxGap series (newestStretch maxGap series) := by
  have hlength := length_utilizationRun hknown
  -- the reading at an index, with its utilization
  have hread : ∀ (i : Nat) (hi : i < series.length), ∃ used,
      series[i].utilization = some used ∧
        (utilizationRun series)[i]? = some (series[i].ts, used) := by
    intro i hi
    obtain ⟨used, hused⟩ :=
      Option.isSome_iff_exists.mp (hknown series[i] (List.getElem_mem hi))
    refine ⟨used, hused, ?_⟩
    rw [getElem?_utilizationRun hknown, List.getElem?_eq_getElem hi, Option.bind_some, hused]
    rfl
  cases hseries : series with
  | nil => exact ⟨List.suffix_rfl, List.isChain_nil, fun other hother _ => hother⟩
  | cons p rest =>
    rw [← hseries]
    have hpos : (utilizationRun series).length - 1 < (utilizationRun series).length := by
      rw [hlength, hseries, List.length_cons]
      omega
    obtain ⟨hwalked, hstop⟩ := @stretchStart_spec F _ maxGap _ _ hpos
    have hstart := @stretchStart_le F _ maxGap (utilizationRun series) (series.length - 1)
    unfold newestStretch
    rw [hlength] at hpos hwalked hstop ⊢
    generalize stretchStart maxGap (utilizationRun series) (series.length - 1) = start
      at hwalked hstop hstart
    refine ⟨List.drop_suffix _ _, ?_, ?_⟩
    · rw [List.isChain_iff_getElem]
      intro i hi
      rw [List.length_drop] at hi
      rw [List.getElem_drop, List.getElem_drop]
      obtain ⟨u, hu, hru⟩ := hread (start + i) (by omega)
      obtain ⟨v, hv, hrv⟩ := hread (start + i + 1) (by omega)
      exact (continues_iff hu hv).mpr
        (hwalked (start + i) _ _ (Nat.le_add_right _ _) (by omega) hru hrv)
    · intro other hother hchain
      have hdrop := List.suffix_iff_eq_drop.mp hother
      by_cases hle : start ≤ series.length - other.length
      · rw [hdrop, ← Nat.add_sub_cancel' hle, ← List.drop_drop]
        exact List.drop_suffix _ _
      · -- a longer end has the step the walk stopped at
        obtain ⟨cut, rfl⟩ : ∃ cut, start = cut + 1 := ⟨start - 1, by omega⟩
        obtain ⟨u, hu, hru⟩ := hread cut (by omega)
        obtain ⟨v, hv, hrv⟩ := hread (cut + 1) (by omega)
        have hcut := hstop cut _ _ rfl hru hrv
        rw [hdrop, List.isChain_iff_getElem] at hchain
        have hstep := hchain (cut - (series.length - other.length))
          (by rw [List.length_drop]; omega)
        rw [List.getElem_drop, List.getElem_drop] at hstep
        have hat : series.length - other.length + (cut - (series.length - other.length)) = cut := by
          omega
        simp only [← Nat.add_assoc, hat] at hstep
        exact absurd hcut ((continues_iff hu hv).mp hstep)

end Stretch

/-! ## The rate of a series -/

section Series

variable {F : Type} [F64Math F] {window : EffectiveWindow F} {maxGap : Duration}
  {points points' series stretch : List (QuotaSnapshot F)} {now : DateTime}

/-- What `estimateRate` does with the readings of the window, oldest first. -/
def rateOf (window : EffectiveWindow F) (series : List (QuotaSnapshot F)) (maxGap : Duration)
    (now : DateTime) : Option (RateEstimate F) :=
  if window.span.numSeconds ≤ 0 then none
  else
    match series.getLast? with
    | none => none
    | some newest =>
      if maxGap < now - newest.ts then none
      else
        let stretch := newestStretch maxGap series
        let run := utilizationRun stretch
        widen run newest.ts (readingQuantum stretch) (F64Math.ofInt window.span.numSeconds)
          (enoughDoublings run newest.ts) (recentLookback window.span) none

private theorem head?_utilizationRun (hknown : ∀ p ∈ series, p.utilization.isSome = true) :
    (utilizationRun series).head?.map Prod.fst = series.head?.map (·.ts) := by
  rw [← List.head?_map, ← List.head?_map, utilizationRun_times hknown]

private theorem getLast?_utilizationRun (hknown : ∀ p ∈ series, p.utilization.isSome = true) :
    (utilizationRun series).getLast?.map Prod.fst = series.getLast?.map (·.ts) := by
  rw [← List.getLast?_map, ← List.getLast?_map, utilizationRun_times hknown]

omit [F64Math F] in
private theorem getLast?_of_suffix {part : List (QuotaSnapshot F)} (h : part <:+ series)
    (hne : part ≠ []) : part.getLast? = series.getLast? := by
  obtain ⟨older, rfl⟩ := h
  rw [List.getLast?_append_of_ne_nil _ hne]

theorem estimateRate_eq :
    estimateRate window points maxGap now =
      rateOf window (matching window points now) maxGap now := by
  have hknown : ∀ p ∈ matching window points now, p.utilization.isSome = true :=
    fun p hp => (seriesOf_matching.reading p hp).2.known
  have hlast := getLast?_utilizationRun hknown
  unfold estimateRate rateOf newestStretch
  simp only [utilizationRun_drop hknown]
  cases hrun : (utilizationRun (matching window points now)).getLast? with
  | none =>
    rw [hrun, Option.map_none, eq_comm, Option.map_eq_none_iff] at hlast
    rw [hlast]
  | some newest =>
    rw [hrun, Option.map_some, eq_comm, Option.map_eq_some_iff] at hlast
    obtain ⟨p, hp, hts⟩ := hlast
    rw [hp]
    simp only [hts]

/-- Nothing but the readings of the window matters. -/
theorem estimateRate_congr (h : matching window points' now = matching window points now) :
    estimateRate window points' maxGap now = estimateRate window points maxGap now := by
  rw [estimateRate_eq, estimateRate_eq, h]

private theorem newestStretch_ne_nil (h : series ≠ [])
    (hknown : ∀ p ∈ series, p.utilization.isSome = true) :
    newestStretch maxGap series ≠ [] := by
  have hpos := List.length_pos_of_ne_nil h
  have hstart := @stretchStart_le F _ maxGap (utilizationRun series)
    ((utilizationRun series).length - 1)
  unfold newestStretch
  rw [length_utilizationRun hknown] at hstart ⊢
  apply List.ne_nil_of_length_pos
  rw [List.length_drop]
  omega

private theorem rateOf_newestStretch (hknown : ∀ p ∈ series, p.utilization.isSome = true) :
    rateOf window (newestStretch maxGap series) maxGap now = rateOf window series maxGap now := by
  by_cases hnil : series = []
  · subst hnil
    rfl
  · have hspec := @newestStretch_spec F _ maxGap series hknown
    have hknown' : ∀ p ∈ newestStretch maxGap series, p.utilization.isSome = true :=
      fun p hp => hknown p (hspec.suffix.subset hp)
    have hself : newestStretch maxGap (newestStretch maxGap series) = newestStretch maxGap series :=
      (newestStretch_spec hknown').unique hspec.self
    unfold rateOf
    rw [hself, getLast?_of_suffix hspec.suffix (newestStretch_ne_nil hnil hknown)]

private theorem matching_filter (q : DateTime → Bool) :
    matching window (points.filter fun p => q p.ts) now =
      (matching window points now).filter fun p => q p.ts := by
  unfold matching
  rw [inOrder_eq, inOrder_eq, List.filter_comm]
  exact InOrder.byKey_filter q _

private theorem matching_from {oldest : QuotaSnapshot F} {older : List (QuotaSnapshot F)}
    (h : matching window points now = older ++ oldest :: stretch) :
    matching window (points.filter fun p => decide (oldest.ts ≤ p.ts)) now =
      oldest :: stretch := by
  have hincreasing := (@seriesOf_matching F _ window points now).increasing
  rw [h, List.pairwise_append] at hincreasing
  obtain ⟨-, hstretch, hbefore⟩ := hincreasing
  have holder : older.filter (fun p => decide (oldest.ts ≤ p.ts)) = [] := by
    apply List.filter_eq_nil_iff.mpr
    intro p hp hle
    exact absurd (hbefore p hp oldest List.mem_cons_self) (Int.not_lt.mpr (of_decide_eq_true hle))
  have hfrom : (oldest :: stretch).filter (fun p => decide (oldest.ts ≤ p.ts)) =
      oldest :: stretch := by
    apply List.filter_eq_self.mpr
    intro p hp
    rcases List.mem_cons.mp hp with rfl | hp
    · exact decide_eq_true le_rfl
    · exact decide_eq_true ((List.pairwise_cons.mp hstretch).1 p hp).le
  rw [matching_filter fun ts => decide (oldest.ts ≤ ts), h, List.filter_append, holder, hfrom,
    List.nil_append]

private theorem estimateRate_from {oldest : QuotaSnapshot F}
    (hstretch : NewestStretch maxGap (matching window points now) (oldest :: stretch)) :
    estimateRate window (points.filter fun p => decide (oldest.ts ≤ p.ts)) maxGap now =
      estimateRate window points maxGap now := by
  have hknown : ∀ p ∈ matching window points now, p.utilization.isSome = true :=
    fun p hp => (seriesOf_matching.reading p hp).2.known
  obtain ⟨older, holder⟩ := hstretch.suffix
  rw [estimateRate_eq, estimateRate_eq, matching_from holder.symm,
    hstretch.unique (newestStretch_spec hknown), rateOf_newestStretch hknown]

end Series

/-! ## Every way out of the widening -/

section Widening

variable {F : Type} [F64Math F] {window : EffectiveWindow F} {maxGap : Duration}
  {series : List (QuotaSnapshot F)} {now : DateTime} {quantum spanSecs : F}

private theorem widen_fit {stretch : List (DateTime × F)} {newestTs : DateTime} {doublings : Nat}
    {lookback : Duration} {narrower : Option (RateEstimate F)} {e : RateEstimate F}
    (hnarrower : ∀ n ∈ narrower, ∃ tail, tail <:+ stretch ∧ fit tail quantum spanSecs = some n)
    (h : widen stretch newestTs quantum spanSecs doublings lookback narrower = some e) :
    ∃ tail, tail <:+ stretch ∧ fit tail quantum spanSecs = some e := by
  induction doublings generalizing lookback narrower with
  | zero => cases h
  | succ doublings ih =>
    rw [widen] at h
    generalize htail : stretch.dropWhile (fun r => decide (r.1 < newestTs - lookback)) = tail at h
    have hsuffix : tail <:+ stretch := htail ▸ List.dropWhile_suffix _
    split at h
    · exact hnarrower e h
    · cases hfit : fit tail quantum spanSecs with
      | none =>
        rw [hfit] at h
        simp only at h
        split at h
        · cases h
        · exact ih (fun n hn => (Option.not_mem_none n hn).elim) h
      | some estimate =>
        rw [hfit] at h
        simp only at h
        have hestimate : ∃ tail, tail <:+ stretch ∧ fit tail quantum spanSecs = some estimate :=
          ⟨tail, hsuffix, hfit⟩
        split at h
        · cases h
          exact hestimate
        · apply ih _ h
          intro n hn
          cases hn
          exact hestimate

private theorem widen_more {stretch : List (DateTime × F)} {newestTs : DateTime} {doublings : Nat}
    {lookback : Duration} (narrower : Option (RateEstimate F)) (more : Nat)
    (h : ∀ oldest ∈ stretch.head?, newestTs - oldest.1 ≤ lookback * 2 ^ doublings) :
    widen stretch newestTs quantum spanSecs (doublings + more + 1) lookback narrower =
      widen stretch newestTs quantum spanSecs (doublings + 1) lookback narrower := by
  induction doublings generalizing lookback narrower with
  | zero =>
    have hall : stretch.dropWhile (fun r => decide (r.1 < newestTs - lookback)) = stretch := by
      cases stretch with
      | nil => rfl
      | cons oldest rest =>
        have hreach := h oldest rfl
        rw [pow_zero, mul_one] at hreach
        apply List.dropWhile_cons_of_neg
        rw [decide_eq_true_eq]
        exact not_lt.mpr (sub_le_comm.mp hreach)
    rw [widen, widen, hall]
    simp
  | succ doublings ih =>
    have hnext : ∀ oldest ∈ stretch.head?, newestTs - oldest.1 ≤ lookback * 2 * 2 ^ doublings := by
      intro oldest holdest
      have hreach := h oldest holdest
      rwa [pow_succ', ← mul_assoc] at hreach
    have hmore : doublings + 1 + more + 1 = doublings + more + 1 + 1 := by omega
    rw [hmore]
    conv_lhs => rw [widen]
    conv_rhs => rw [widen]
    simp only [ih _ hnext]

theorem recentLookback_pos (span : Duration) : 0 < recentLookback span := by
  have hfloor : (15 * 60 : Int) ≤ max (15 * 60) (min (12 * 3600) (Int.tdiv span.numSeconds 10)) :=
    le_max_left _ _
  exact mul_pos (lt_of_lt_of_le (by decide) hfloor) (by decide)

/-- The bound on the doublings is not what ends the widening. -/
theorem widen_ends (stretch : List (DateTime × F)) (newestTs : DateTime) (span : Duration)
    (more : Nat) :
    widen stretch newestTs quantum spanSecs (enoughDoublings stretch newestTs + more)
        (recentLookback span) none =
      widen stretch newestTs quantum spanSecs (enoughDoublings stretch newestTs)
        (recentLookback span) none := by
  have hshift : enoughDoublings stretch newestTs + more =
      (stretch.head?.elim 0 fun oldest => (newestTs - oldest.1).toNat).log2 + 1 + more + 1 := by
    unfold enoughDoublings
    omega
  rw [hshift]
  apply widen_more
  intro oldest holdest
  rw [Option.mem_def.mp holdest, Option.elim_some]
  have hlog : (newestTs - oldest.1).toNat < 2 ^ ((newestTs - oldest.1).toNat.log2 + 1) :=
    Nat.lt_log2_self
  have hcast : ((newestTs - oldest.1).toNat : Int) <
      2 ^ ((newestTs - oldest.1).toNat.log2 + 1) := by exact_mod_cast hlog
  have hpow := (Int.self_le_toNat (newestTs - oldest.1)).trans hcast.le
  exact hpow.trans (le_mul_of_one_le_left (by positivity) (recentLookback_pos span))

/-- What an estimate of a series says of the series. -/
theorem rateOf_fit {e : RateEstimate F} (hknown : ∀ p ∈ series, p.utilization.isSome = true)
    (h : rateOf window series maxGap now = some e) :
    0 < window.span.numSeconds ∧
      (∃ newest, series.getLast? = some newest ∧ now - newest.ts ≤ maxGap) ∧
      ∃ readings, readings <:+ newestStretch maxGap series ∧
        fit (utilizationRun readings) (readingQuantum (newestStretch maxGap series))
          (F64Math.ofInt window.span.numSeconds) = some e := by
  unfold rateOf at h
  split at h
  · cases h
  · rename_i hspan
    refine ⟨Int.not_le.mp hspan, ?_⟩
    cases hlast : series.getLast? with
    | none =>
      rw [hlast] at h
      cases h
    | some newest =>
      rw [hlast] at h
      simp only at h
      split at h
      · cases h
      · rename_i hfresh
        refine ⟨⟨newest, rfl, Int.not_lt.mp hfresh⟩, ?_⟩
        obtain ⟨tail, htail, hfit⟩ := widen_fit (fun n hn => (Option.not_mem_none n hn).elim) h
        have hstretch := @newestStretch_spec F _ maxGap series hknown
        have hdrop := List.suffix_iff_eq_drop.mp htail
        rw [← utilizationRun_drop fun p hp => hknown p (hstretch.suffix.subset hp)] at hdrop
        refine ⟨(newestStretch maxGap series).drop
          ((utilizationRun (newestStretch maxGap series)).length - tail.length),
          List.drop_suffix _ _, ?_⟩
        rw [← hdrop]
        exact hfit

end Widening

/-! ## What a fit says -/

section Exact

variable {K : Type} [Field K] [LinearOrder K] [FloorRing K] [SquareRoot K]

/-- The burn between two readings over the seconds between them. -/
def burn (first last : DateTime × K) : K :=
  (last.2 - first.2) / (Duration.numSeconds (last.1 - first.1) : K)

/-- What an estimate says of the readings it was fitted to. -/
structure FitOf (run : List (DateTime × K)) (quantum spanSecs : K) (e : RateEstimate K)
    (first last : DateTime × K) (half : K) : Prop where
  oldest : run.head? = some first
  newest : run.getLast? = some last
  sampled : minSampleSecs ≤ Duration.numSeconds (last.1 - first.1)
  rounding : quantum / (Duration.numSeconds (last.1 - first.1) : K) ≤ half
  pace : e.pace = max (burn first last) 0 * spanSecs
  low : e.low = max (burn first last - half) 0 * spanSecs
  high : e.high = max (burn first last + half) 0 * spanSecs
  fromTs : e.fromTs = first.1
  toTs : e.toTs = last.1
  readings : e.readings = run.length

variable [IsStrictOrderedRing K] {run : List (DateTime × K)} {quantum spanSecs : K}
  {e : RateEstimate K}

theorem fit_spec (h : fit run quantum spanSecs = some e) :
    ∃ first last half, FitOf run quantum spanSecs e first last half := by
  unfold fit at h
  cases hhead : run.head? with
  | none =>
    rw [hhead] at h
    cases h
  | some first =>
    cases hlast : run.getLast? with
    | none =>
      rw [hhead, hlast] at h
      cases h
    | some last =>
      rw [hhead, hlast] at h
      simp only [F64.max_eq, F64Math.ofInt_eq] at h
      split at h
      · cases h
      · rename_i hlong
        have hsampled : minSampleSecs ≤ Duration.numSeconds (last.1 - first.1) := by
          exact_mod_cast not_lt.mp (not_or.mp hlong).2
        rw [F64.zero_eq] at h
        cases h
        exact ⟨first, last, max (statisticalHalf (burn first last) _ run) _, hhead, hlast,
          hsampled, le_max_right _ _, rfl, rfl, rfl, rfl, rfl, rfl⟩

theorem FitOf.elapsed_pos {first last : DateTime × K} {half : K}
    (h : FitOf run quantum spanSecs e first last half) :
    (0 : K) < Duration.numSeconds (last.1 - first.1) := by
  have hpos : 0 < Duration.numSeconds (last.1 - first.1) :=
    lt_of_lt_of_le (by decide) h.sampled
  exact_mod_cast hpos

/-- The ends of the interval are in order around the pace. -/
theorem FitOf.ordered {first last : DateTime × K} {half : K}
    (h : FitOf run quantum spanSecs e first last half) (hquantum : 0 ≤ quantum)
    (hspan : 0 ≤ spanSecs) : 0 ≤ e.low ∧ e.low ≤ e.pace ∧ e.pace ≤ e.high := by
  have hhalf : 0 ≤ half := (div_nonneg hquantum h.elapsed_pos.le).trans h.rounding
  rw [h.low, h.pace, h.high]
  refine ⟨mul_nonneg (le_max_right _ _) hspan, ?_, ?_⟩
  · apply mul_le_mul_of_nonneg_right _ hspan
    exact max_le_max (sub_le_self _ hhalf) le_rfl
  · apply mul_le_mul_of_nonneg_right _ hspan
    exact max_le_max (le_add_of_nonneg_right hhalf) le_rfl

/-- A rate within one rounding step of the burn is inside the interval. -/
theorem FitOf.contains {first last : DateTime × K} {half slope : K}
    (h : FitOf run quantum spanSecs e first last half) (hspan : 0 ≤ spanSecs) (hslope : 0 ≤ slope)
    (hlow : burn first last - quantum / Duration.numSeconds (last.1 - first.1) ≤ slope)
    (hhigh : slope ≤ burn first last + quantum / Duration.numSeconds (last.1 - first.1)) :
    e.low ≤ slope * spanSecs ∧ slope * spanSecs ≤ e.high := by
  have hrounding := h.rounding
  rw [h.low, h.high]
  constructor
  · apply mul_le_mul_of_nonneg_right _ hspan
    apply max_le _ hslope
    linarith
  · apply mul_le_mul_of_nonneg_right _ hspan
    apply le_max_of_le_left
    linarith

private theorem quantumScale_pos (points : List (QuotaSnapshot K)) : 0 < quantumScale points := by
  have hhundred : (0 : K) < 100.0 := by norm_num
  unfold quantumScale
  cases points.getLast? with
  | none => exact hhundred
  | some p =>
    rw [Option.bind_some]
    cases hunit : p.unit with
    | percent => exact hhundred
    | _ =>
      cases hfilter : p.limit.filter fun l => decide (0.0 < l) with
      | none => exact hhundred
      | some l =>
        have hpos := of_decide_eq_true (Option.filter_eq_some_iff.mp hfilter).2
        rw [F64.zero_eq] at hpos
        exact hpos

private theorem readingQuantum_pos (points : List (QuotaSnapshot K)) :
    0 < readingQuantum points := by
  unfold readingQuantum
  apply div_pos _ (quantumScale_pos points)
  split
  · norm_num
  · split <;> norm_num

/-- What an estimate says of the readings of the window and of their newest stretch. -/
structure RestsOn (series stretch : List (QuotaSnapshot K)) (maxGap : Duration) (now : DateTime)
    (e : RateEstimate K) : Prop where
  newest : ∃ p, series.getLast? = some p ∧ p.ts = e.toTs ∧ now - p.ts ≤ maxGap
  readings : ∃ readings, readings <:+ stretch ∧ readings.head?.map (·.ts) = some e.fromTs ∧
    readings.getLast?.map (·.ts) = some e.toTs ∧ readings.length = e.readings
  sampled : Duration.seconds 300 ≤ e.toTs - e.fromTs
  low_nonneg : 0 ≤ e.low
  low_le : e.low ≤ e.pace
  le_high : e.pace ≤ e.high

/-- A result of `estimateRate` rests on an end of the newest stretch of the readings, five minutes
long at least, and has the ends of its interval in order. What is older than the stretch makes no
difference to any result. -/
theorem estimate_well_formed (window : EffectiveWindow K) (points : List (QuotaSnapshot K))
    (maxGap : Duration) (now : DateTime) :
    ∃ series stretch, SeriesOf window points now series ∧ NewestStretch maxGap series stretch ∧
      (∀ oldest ∈ stretch.head?,
        estimateRate window (points.filter fun p => decide (oldest.ts ≤ p.ts)) maxGap now =
          estimateRate window points maxGap now) ∧
      ∀ e, estimateRate window points maxGap now = some e →
        RestsOn series stretch maxGap now e := by
  have hseries := @seriesOf_matching K _ window points now
  have hknown : ∀ p ∈ matching window points now, p.utilization.isSome = true :=
    fun p hp => (hseries.reading p hp).2.known
  have hstretch := @newestStretch_spec K _ maxGap _ hknown
  refine ⟨_, _, hseries, hstretch, ?_, ?_⟩
  · intro oldest holdest
    obtain ⟨rest, hrest⟩ := List.head?_eq_some_iff.mp holdest
    exact estimateRate_from (hrest ▸ hstretch)
  · intro e he
    rw [estimateRate_eq] at he
    obtain ⟨hspan, ⟨newest, hnewest, hfresh⟩, readings, hreadings, hfit⟩ := rateOf_fit hknown he
    obtain ⟨first, last, half, hof⟩ := fit_spec hfit
    have hreadknown : ∀ p ∈ readings, p.utilization.isSome = true :=
      fun p hp => hknown p (hstretch.suffix.subset (hreadings.subset hp))
    have hne : readings ≠ [] := by
      rintro rfl
      cases hof.oldest
    have hend := getLast?_of_suffix (hreadings.trans hstretch.suffix) hne
    have hlast := getLast?_utilizationRun hreadknown
    rw [hof.newest, hend, hnewest, Option.map_some, Option.map_some, Option.some.injEq] at hlast
    have hfirst := head?_utilizationRun hreadknown
    rw [hof.oldest, Option.map_some] at hfirst
    have hquantum := readingQuantum_pos (newestStretch maxGap (matching window points now))
    have hscale : (0 : K) ≤ F64Math.ofInt window.span.numSeconds := by
      rw [F64Math.ofInt_eq]
      exact_mod_cast hspan.le
    have hordered := hof.ordered hquantum.le hscale
    refine ⟨⟨newest, hnewest, ?_, hfresh⟩, ⟨readings, hreadings, ?_, ?_, ?_⟩, ?_, hordered.1,
      hordered.2.1, hordered.2.2⟩
    · rw [hof.toTs, hlast]
    · rw [← hfirst, hof.fromTs]
    · rw [hend, hnewest, hof.toTs, hlast]
      rfl
    · rw [hof.readings, length_utilizationRun hreadknown]
    · rw [hof.toTs, hof.fromTs]
      exact Duration.seconds_le (by decide) hof.sampled

end Exact

/-! ## A session read twice -/

/-- A five-hour session. -/
def sessionWindow : EffectiveWindow ℚ where
  window := ⟨"5h"⟩
  start := 0
  resetAt := Duration.seconds 18000
  startUncertainty := 0
  used := some 0.03

/-- A reading of it in whole percent. -/
def sessionReading (used : ℚ) (second : Int) : QuotaSnapshot ℚ where
  pollId := 0
  ts := Duration.seconds second
  window := ⟨"5h"⟩
  label := "session"
  unit := .percent
  used := used
  limit := none
  resetAt := some (Duration.seconds 18000)

def sessionReadings : List (QuotaSnapshot ℚ) := [sessionReading 1 0, sessionReading 3 600]

def sessionEstimate : RateEstimate ℚ where
  pace := 0.6
  low := 0.3
  high := 0.9
  fromTs := 0
  toTs := Duration.seconds 600
  readings := 2
  quantum := 0.01

theorem estimateRate_session :
    estimateRate sessionWindow sessionReadings (Duration.seconds 720) (Duration.seconds 600) =
      some sessionEstimate := by
  rw [estimateRate_eq, matching_eq_self (by decide) (by decide)]
  decide +kernel

theorem estimate_well_formed_session :
    ∃ series stretch,
      SeriesOf sessionWindow sessionReadings (Duration.seconds 600) series ∧
        NewestStretch (Duration.seconds 720) series stretch ∧
        RestsOn series stretch (Duration.seconds 720) (Duration.seconds 600) sessionEstimate := by
  obtain ⟨series, stretch, hseries, hstretch, -, hrests⟩ :=
    estimate_well_formed sessionWindow sessionReadings (Duration.seconds 720)
      (Duration.seconds 600)
  exact ⟨series, stretch, hseries, hstretch, hrests sessionEstimate estimateRate_session⟩

end Teiryo
