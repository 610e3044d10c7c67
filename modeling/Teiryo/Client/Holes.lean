import Teiryo.Client.App
import Teiryo.Client.Metrics
import Teiryo.Core.Downsampling

/-!
# Downsampling opens no hole

A series polled without a hole stays without one when it is cut down to a chart's points or to the
slice the rows are measured from: what the bucket widths add between two kept readings stays within
the tolerance the client allows them. A rate is measured over some of the readings only, those that
carry the reset of its window instance, and where others lie between these the reduction may keep
just the others.
-/

namespace Teiryo

/-- How far apart two readings of a charted series may be: the account's own tolerance, widened
to the bucket the range was downsampled into. -/
def chartGap (range : TimeRange) (pollIntervalSecs : UInt32) : Duration :=
  let bucket := Int.tdiv range.duration range.maxPoints.toNat
  max (gapTolerance pollIntervalSecs) (bucket * 2)

/-- How far back the rows' burn rates look, in hours. -/
def recentSpanHours : Int := 48

def recentSpan : Duration := Duration.seconds (recentSpanHours * 3600)

def recentMaxPoints : UInt32 := 1000

/-- How far apart an unbroken series is polled: a tenth past the interval, and half a minute. -/
def cadenceGap (pollIntervalSecs : UInt32) : Duration :=
  1100000000 * pollIntervalSecs.toNat + Duration.seconds 30

section Reduction

variable {F : Type} [F64 F] {since «until» : DateTime} {budget width : Nat} {maxGap : Duration}
  {rows : List (QuotaSnapshot F)}

private theorem inBucket_bounds {b : Nat} {ts : DateTime} (hbudget : 0 < budget)
    (hspan : «until» - since = Duration.milliseconds (width * budget)) (hfrom : since ≤ ts)
    (hto : ts ≤ «until») (h : InBucket since «until» budget b ts) (hb : b < budget) :
    Duration.milliseconds (width * b) ≤ ts - since ∧
      ts - since ≤ Duration.milliseconds (width * (b + 1)) ∧
      (b + 1 < budget → ts - since < Duration.milliseconds (width * (b + 1))) := by
  have hms : Duration.numMilliseconds («until» - since) = (width : Int) * budget := by
    rw [hspan]
    exact Int.mul_tdiv_cancel _ (by decide)
  have hpos : (0 : Int) < budget := by omega
  obtain ⟨hlow, hhigh⟩ := h
  rw [hms] at hlow hhigh
  have hoffset : Duration.numMilliseconds (ts - since) * 1000000 ≤ ts - since ∧
      ts - since < (Duration.numMilliseconds (ts - since) + 1) * 1000000 := by
    have hnonneg : 0 ≤ ts - since := Int.sub_nonneg.mpr hfrom
    have hdiv : Duration.numMilliseconds (ts - since) = (ts - since) / 1000000 :=
      Int.tdiv_eq_ediv_of_nonneg hnonneg
    rw [hdiv]
    unfold DateTime at *
    omega
  generalize Duration.numMilliseconds (ts - since) = offset at hlow hhigh hoffset
  have hfirst : (width : Int) * b ≤ offset := by
    rcases hlow with hzero | hlow
    · subst b
      simp only [Int.natCast_zero, Int.mul_zero]
      unfold DateTime at *
      omega
    · rw [Int.mul_right_comm] at hlow
      exact Int.le_of_mul_le_mul_right hlow hpos
  have hlast : offset * budget < width * budget * (b + 1) → offset < (width : Int) * (b + 1) := by
    intro h
    rw [Int.mul_right_comm] at h
    exact Int.lt_of_mul_lt_mul_right h (Int.le_of_lt hpos)
  have hend : b + 1 = budget → ts - since ≤ Duration.milliseconds (width * (b + 1)) := by
    intro heq
    have hcast : ((b : Int) + 1) = budget := by omega
    rw [hcast, ← hspan]
    exact Int.sub_le_sub_right hto since
  unfold Duration.milliseconds at *
  unfold DateTime Duration at *
  refine ⟨by omega, ?_, ?_⟩
  · rcases hhigh with heq | hlt
    · exact hend heq
    · have := hlast hlt
      omega
  · intro hnext
    have := hlast (hhigh.resolve_left (by omega))
    omega

/-- Two kept readings next to each other are at most two buckets further apart than two
readings of the series next to each other, if there are empty buckets between them. -/
theorem reduceSeries_gap (hsorted : rows.Pairwise fun a b => a.ts ≤ b.ts)
    (hwithin : ∀ row ∈ rows, since ≤ row.ts ∧ row.ts ≤ «until») (hbudget : 0 < budget)
    (hwidth : 0 < width) (hspan : «until» - since = Duration.milliseconds (width * budget))
    (hgap : Unbroken maxGap rows) :
    (reduceSeries rows since (Duration.numMilliseconds («until» - since)) budget).IsChain
      fun a b => b.ts - a.ts ≤ maxGap ∨ ∃ empty : Duration,
        b.ts - a.ts ≤ empty + Duration.milliseconds (2 * width) ∧
          (empty = 0 ∨ Duration.milliseconds width ≤ empty ∧ empty ≤ maxGap) := by
  rw [reduceSeries_eq hsorted hbudget]
  unfold keptSeries
  split
  · exact hgap.imp fun _ _ h => .inl h
  · have hms : 0 < Duration.numMilliseconds («until» - since) := by
      rw [hspan]
      change 0 < Int.tdiv ((width : Int) * budget * 1000000) 1000000
      rw [Int.mul_tdiv_cancel _ (by decide)]
      exact Int.mul_pos (by omega) (by omega)
    let bucket := fun row : QuotaSnapshot F =>
      bucketOf since (Duration.numMilliseconds («until» - since)) budget row.ts
    have hlt : ∀ row, bucket row < budget := fun row => bucketOf_lt row.ts hbudget
    have hbounds : ∀ row ∈ rows, Duration.milliseconds (width * bucket row) ≤ row.ts - since ∧
        row.ts - since ≤ Duration.milliseconds (width * (bucket row + 1)) ∧
        (bucket row + 1 < budget →
          row.ts - since < Duration.milliseconds (width * (bucket row + 1))) := by
      intro row hrow
      obtain ⟨hfrom, hto⟩ := hwithin row hrow
      exact inBucket_bounds hbudget hspan hfrom hto
        ((bucketOf_eq_iff row.ts hms (hlt row)).mp rfl) (hlt row)
    have hbuckets : rows.Pairwise fun a b => bucket a ≤ bucket b := sorted_buckets _ hsorted
    have hsub : (Buckets.kept bucket lowerThan budget rows).Sublist rows :=
      Buckets.kept_sublist hbuckets
    have hchain : (Buckets.kept bucket lowerThan budget rows).IsChain fun a b =>
        bucket a < bucket b ∧ ∀ row ∈ rows, bucket row ≤ bucket a ∨ bucket b ≤ bucket row :=
      Buckets.kept_isChain fun row _ => hlt row
    change (Buckets.kept bucket lowerThan budget rows).IsChain _
    rw [List.isChain_iff_forall_rel_of_append_cons_cons] at hchain ⊢
    intro a b before after hsplit
    obtain ⟨hab, hbetween⟩ := hchain hsplit
    have ha : a ∈ rows := hsub.subset (hsplit ▸ by simp)
    have hb : b ∈ rows := hsub.subset (hsplit ▸ by simp)
    obtain ⟨hafrom, -, -⟩ := hbounds a ha
    obtain ⟨-, hbto, -⟩ := hbounds b hb
    have hsucc : ∀ n : Nat, (width : Int) * (n + 1) = width * n + width :=
      fun n => by rw [Int.mul_add, Int.mul_one]
    right
    by_cases hnext : bucket b = bucket a + 1
    · refine ⟨0, ?_, .inl rfl⟩
      rw [hnext, hsucc, Int.natCast_succ, hsucc] at hbto
      unfold Duration.milliseconds at *
      unfold DateTime Duration at *
      omega
    · -- the series steps over the empty buckets between two neighbours `u` and `v`
      obtain ⟨u, hu, v, hv, hstep, hua, hav⟩ :=
        Buckets.exists_step hgap hbuckets ha hb hab
      have hbv : bucket b ≤ bucket v := (hbetween v hv).resolve_left (by omega)
      have huto := (hbounds u hu).2.2 (by have := hlt b; omega)
      obtain ⟨hvfrom, -, -⟩ := hbounds v hv
      have hu' : (width : Int) * (bucket u) ≤ width * bucket a :=
        Int.mul_le_mul_of_nonneg_left (by omega) (by omega)
      have hv' : (width : Int) * (bucket b) ≤ width * bucket v :=
        Int.mul_le_mul_of_nonneg_left (by omega) (by omega)
      have hfar : (width : Int) * ((bucket a + 1 : Nat) + 1) ≤ width * bucket b :=
        Int.mul_le_mul_of_nonneg_left (by omega) (by omega)
      rw [hsucc, Int.natCast_succ, hsucc] at hfar
      rw [hsucc] at hbto huto
      refine ⟨Duration.milliseconds (width * bucket b) -
        Duration.milliseconds (width * bucket a + width), ?_, .inr ⟨?_, ?_⟩⟩
      all_goals
        unfold Duration.milliseconds at *
        unfold DateTime Duration at *
        omega

private theorem cadenceGap_le (pollIntervalSecs : UInt32) (h : 10 ≤ pollIntervalSecs) :
    cadenceGap pollIntervalSecs ≤ gapTolerance pollIntervalSecs := by
  have hp : 10 ≤ pollIntervalSecs.toNat := UInt32.le_iff_toNat_le.mp h
  unfold cadenceGap gapTolerance Duration.seconds
  unfold Duration
  omega

/-- A budget whose buckets are `width` milliseconds opens no hole wider than a tolerance that
allows for two buckets, and for the two around those a slow cadence leaves empty. -/
theorem unbroken_reduceSeries {p : UInt32} (h : 10 ≤ p)
    (hsorted : rows.Pairwise fun a b => a.ts ≤ b.ts)
    (hwithin : ∀ row ∈ rows, since ≤ row.ts ∧ row.ts ≤ «until») (hbudget : 0 < budget)
    (hwidth : 0 < width) (hspan : «until» - since = Duration.milliseconds (width * budget))
    (hgap : Unbroken (cadenceGap p) rows) {tolerance : Duration}
    (hgapTolerance : gapTolerance p ≤ tolerance)
    (htwo : Duration.milliseconds (2 * width) ≤ tolerance)
    (hempty : ∀ empty : Duration, Duration.milliseconds width ≤ empty → empty ≤ cadenceGap p →
      empty + Duration.milliseconds (2 * width) ≤ gapTolerance p) :
    Unbroken tolerance
      (reduceSeries rows since (Duration.numMilliseconds («until» - since)) budget) := by
  apply (reduceSeries_gap hsorted hwithin hbudget hwidth hspan hgap).imp
  intro a b hab
  rcases hab with hle | ⟨empty, hle, hzero | ⟨hlow, hhigh⟩⟩
  · exact hle.trans ((cadenceGap_le p h).trans hgapTolerance)
  · rw [hzero, Int.zero_add] at hle
    exact hle.trans htwo
  · exact hle.trans ((hempty empty hlow hhigh).trans hgapTolerance)

/-- The milliseconds in a bucket of a charted range. -/
def bucketMillis : TimeRange → Nat
  | .h1 => 7500
  | .h6 => 45000
  | .h24 => 180000
  | .d7 => 1260000

private theorem bucketMillis_spec (range : TimeRange) :
    range.duration = Duration.milliseconds (bucketMillis range * range.maxPoints.toNat) := by
  cases range <;> decide

private theorem two_buckets_le_chartGap (range : TimeRange) (p : UInt32) :
    Duration.milliseconds (2 * bucketMillis range) ≤ chartGap range p := by
  apply Int.le_trans ?_ (Int.le_max_right _ _)
  cases range <;> decide

private theorem empty_buckets_le (range : TimeRange) (p : UInt32) (empty : Duration)
    (hlow : Duration.milliseconds (bucketMillis range) ≤ empty) (hhigh : empty ≤ cadenceGap p) :
    empty + Duration.milliseconds (2 * bucketMillis range) ≤ gapTolerance p := by
  unfold cadenceGap at hhigh
  unfold gapTolerance
  unfold Duration.milliseconds Duration.seconds at *
  unfold Duration at *
  cases range <;> simp only [bucketMillis] at * <;> omega

omit [F64 F] in
private theorem instanceReadings_infix (window : EffectiveWindow F)
    (readings : List (QuotaSnapshot F))
    (i : Nat) : instanceReadings window readings i <:+: readings :=
  (List.dropWhile_suffix _).isInfix.trans (List.take_prefix _ _).isInfix

private theorem matching_windowRows (window : EffectiveWindow F) (points : List (QuotaSnapshot F))
    (now : DateTime) :
    matching window points now = matching window (windowRows window.window points) now := by
  unfold matching windowRows
  rw [List.filter_filter]
  congr 1
  apply List.filter_congr
  intro p _
  cases hm : measures window now p with
  | false => rfl
  | true =>
    simp only [measures, Bool.and_eq_true] at hm
    rw [hm.1.1.1]
    rfl

/-- Whether the readings a rate rests on stand together in a series. -/
def Together (window : EffectiveWindow F) (now : DateTime) (rows : List (QuotaSnapshot F)) :
    Prop :=
  rows.filter (measures window now) <:+: rows

/-- Whether usage nowhere slips from one of the readings a rate rests on to a later one. -/
def Ascends (window : EffectiveWindow F) (now : DateTime) (rows : List (QuotaSnapshot F)) : Prop :=
  (rows.filter (measures window now)).Pairwise fun a b =>
    ∀ prevUsed ∈ a.utilization, ∀ used ∈ b.utilization, ¬ used < prevUsed - fallEpsilon

/-- The walk back over a run ends at its first reading. -/
def Whole (maxGap : Duration) (run : List (DateTime × F)) : Prop :=
  stretchStart maxGap run (run.length - 1) = 0

/-- A rate over the reduction of `rows` is cut at a fall or not at all where the readings it rests
on stand together in `rows`, and not at all where usage moreover climbs. -/
def NotCut (maxGap : Duration) (rows : List (QuotaSnapshot F)) (window : EffectiveWindow F)
    (now : DateTime) (points : List (QuotaSnapshot F)) : Prop :=
  Together window now rows →
    CutOnlyAtFall maxGap (utilizationRun (matching window points now)) ∧
      (Ascends window now rows → Whole maxGap (utilizationRun (matching window points now)))

/-- The rates of a window over a page that has this reduction of its series are not cut by it,
both the row's own and those slid along a chart. -/
def ReadAcross (maxGap : Duration) (rows reduced : List (QuotaSnapshot F)) : Prop :=
  ∀ (window : EffectiveWindow F) (now : DateTime) (points : List (QuotaSnapshot F)),
    windowRows window.window points = reduced →
      NotCut maxGap rows window now points ∧
        ∀ i, NotCut maxGap rows window now
          (instanceReadings window (rateReadings window.window points) i)

private theorem filter_infix_of_sublist {α : Type} {p : α → Bool} {l part : List α}
    (hpart : part.Sublist l) (h : l.filter p <:+: l) : part.filter p <:+: part := by
  obtain ⟨before, after, hl⟩ := h
  have hcount := congrArg (fun l => (l.filter p).length) hl
  have hself : (l.filter p).filter p = l.filter p := by simp [List.filter_filter]
  simp only [List.filter_append, hself, List.length_append] at hcount
  have hbefore : before.filter p = [] := List.length_eq_zero_iff.mp (by omega)
  have hafter : after.filter p = [] := List.length_eq_zero_iff.mp (by omega)
  rw [← hl] at hpart
  obtain ⟨early, last, rfl, hearly, hlast⟩ := List.sublist_append_iff.mp hpart
  obtain ⟨first, middle, rfl, hfirst, hmiddle⟩ := List.sublist_append_iff.mp hearly
  have hfirst' : first.filter p = [] := List.sublist_nil.mp (hbefore ▸ hfirst.filter p)
  have hlast' : last.filter p = [] := List.sublist_nil.mp (hafter ▸ hlast.filter p)
  have hmiddle' : middle.filter p = middle :=
    List.filter_eq_self.mpr fun a ha => (List.mem_filter.mp (hmiddle.subset ha)).2
  rw [List.filter_append, List.filter_append, hfirst', hlast', hmiddle']
  exact ⟨first, last, by simp⟩

private theorem whole_of_climbs {run : List (DateTime × F)} (h : CutOnlyAtFall maxGap run)
    (hclimbs : run.IsChain fun a b => ¬ b.2 < a.2 - fallEpsilon) : Whole maxGap run := by
  unfold Whole
  rcases h with hzero | ⟨prevTs, prevUsed, ts, used, hprev, hnext, hfall⟩
  · exact hzero
  · generalize stretchStart maxGap run (run.length - 1) = first at hprev hnext ⊢
    cases first with
    | zero => rfl
    | succ first =>
      rw [Nat.add_sub_cancel] at hprev
      obtain ⟨hlt, hnext⟩ := List.getElem?_eq_some_iff.mp hnext
      obtain ⟨hlt', hprev⟩ := List.getElem?_eq_some_iff.mp hprev
      have hstep := List.isChain_iff_getElem.mp hclimbs first hlt
      rw [hnext, hprev] at hstep
      exact absurd hfall hstep

private theorem notCut_of_part {part : List (QuotaSnapshot F)}
    (hsorted : rows.Pairwise fun a b => a.ts ≤ b.ts) (hpart : part.Sublist rows)
    (hunbroken : Unbroken maxGap part) (window : EffectiveWindow F) (now : DateTime) :
    NotCut maxGap rows window now part := by
  intro htogether
  have hparts := hsorted.sublist hpart
  have hcut := cutOnlyAtFall_of_unbroken hparts hunbroken (filter_infix_of_sublist hpart htogether)
  refine ⟨hcut, ?_⟩
  intro hclimbs
  apply whole_of_climbs hcut
  have hsub : (matching window part now).Sublist (rows.filter (measures window now)) := by
    unfold matching
    rw [inOrder_of_sorted (hparts.sublist List.filter_sublist)]
    exact (List.destutter_sublist _ _).trans (hpart.filter _)
  have hrun : (utilizationRun (matching window part now)).Pairwise fun a b =>
      ¬ b.2 < a.2 - fallEpsilon := by
    apply List.Pairwise.filterMap _ ?_ (List.Pairwise.sublist hsub hclimbs)
    intro a a' hclimb b hb b' hb'
    obtain ⟨prevUsed, hprev, rfl⟩ := Option.map_eq_some_iff.mp hb
    obtain ⟨used, hused, rfl⟩ := Option.map_eq_some_iff.mp hb'
    exact hclimb prevUsed hprev used hused
  exact hrun.isChain

private theorem readAcross_of_unbroken {reduced : List (QuotaSnapshot F)}
    (hsorted : rows.Pairwise fun a b => a.ts ≤ b.ts) (hsub : reduced.Sublist rows)
    (h : Unbroken maxGap reduced) : ReadAcross maxGap rows reduced := by
  intro window now points hpoints
  have hreduced := hsorted.sublist hsub
  constructor
  · have hrow := notCut_of_part hsorted hsub h window now
    rw [← hpoints] at hrow
    unfold NotCut at hrow ⊢
    rw [matching_windowRows]
    exact hrow
  · intro i
    have hreadings : rateReadings window.window points = inOrder reduced := by
      rw [← hpoints]
      rfl
    have hwithin : instanceReadings window (rateReadings window.window points) i <:+:
        inOrder reduced := by
      rw [← hreadings]
      exact instanceReadings_infix _ _ i
    have hinOrder : (inOrder reduced).Sublist reduced := by
      rw [inOrder_of_sorted hreduced]
      exact List.destutter_sublist _ _
    exact notCut_of_part hsorted ((hwithin.sublist.trans hinOrder).trans hsub)
      ((unbroken_inOrder hreduced h).part hwithin) window now

private theorem reduceSeries_sublist (hsorted : rows.Pairwise fun a b => a.ts ≤ b.ts)
    (hbudget : 0 < budget) :
    (reduceSeries rows since (Duration.numMilliseconds («until» - since)) budget).Sublist rows := by
  rw [reduceSeries_eq hsorted hbudget]
  exact keptOf_sublist hsorted

/-- A series polled without a hole has none after downsampling, for a chart of any range and for
the slice the rows are measured from, and cuts no rate whose readings stand together in it. -/
theorem downsampling_opens_no_hole {p : UInt32} (hp : 10 ≤ p)
    (hsorted : rows.Pairwise fun a b => a.ts ≤ b.ts)
    (hwithin : ∀ row ∈ rows, since ≤ row.ts ∧ row.ts ≤ «until»)
    (hgap : Unbroken (cadenceGap p) rows) :
    (∀ range : TimeRange, «until» - since = range.duration →
      let out := reduceSeries rows since (Duration.numMilliseconds («until» - since))
        range.maxPoints.toNat
      Unbroken (chartGap range p) out ∧ ReadAcross (chartGap range p) rows out) ∧
    («until» - since = recentSpan →
      let out := reduceSeries rows since (Duration.numMilliseconds («until» - since))
        recentMaxPoints.toNat
      Unbroken (gapTolerance p) out ∧ ReadAcross (gapTolerance p) rows out) := by
  constructor
  · intro range hspan out
    have hbudget : 0 < range.maxPoints.toNat := (by decide : 0 < (480 : UInt32).toNat)
    have hout : Unbroken (chartGap range p) out := by
      apply unbroken_reduceSeries hp hsorted hwithin hbudget _ _ hgap
      · exact Int.le_max_left _ _
      · exact two_buckets_le_chartGap range p
      · exact empty_buckets_le range p
      · cases range <;> decide
      · exact hspan.trans (bucketMillis_spec range)
    exact ⟨hout, readAcross_of_unbroken hsorted (reduceSeries_sublist hsorted hbudget) hout⟩
  · intro hspan out
    have hbudget : 0 < recentMaxPoints.toNat := by decide
    have hout : Unbroken (gapTolerance p) out := by
      apply @unbroken_reduceSeries _ _ _ _ _ 172800 _ p hp hsorted hwithin hbudget (by decide) _
        hgap
      · exact Int.le_refl _
      · apply Int.le_trans ?_ (Int.le_max_right _ _)
        decide
      · intro empty hlow hhigh
        unfold cadenceGap at hhigh
        unfold gapTolerance
        unfold Duration.milliseconds Duration.seconds at *
        unfold Duration at *
        omega
      · exact hspan.trans (by decide)
    exact ⟨hout, readAcross_of_unbroken hsorted (reduceSeries_sublist hsorted hbudget) hout⟩

end Reduction

private def polledAt (secs : Int) (used : ℚ) : QuotaSnapshot ℚ :=
  { pollId := 1, ts := Duration.seconds secs, window := ⟨"session_5h"⟩, label := "5-hour"
    unit := .percent, used, limit := none, resetAt := none }

theorem downsampling_opens_no_hole_three_minutes :
    Unbroken (chartGap .h1 180) (reduceSeries [polledAt 0 10, polledAt 198 12, polledAt 390 12] 0
      (Duration.numMilliseconds (Duration.seconds 3600 - 0)) 480) :=
  ((downsampling_opens_no_hole (p := 180) (by decide) (by decide) (by decide)
    (by unfold Unbroken; decide)).1 .h1 (by decide)).1

/-- The reading of poll `k` of a session polled every fifteen seconds. For a quarter of an hour
every third answer has no reset. -/
def quarterMinute (k : Nat) : QuotaSnapshot ℚ :=
  { pollId := Fin.ofNat _ k, ts := Duration.seconds (15 * k), window := ⟨"session_5h"⟩
    label := "Session", unit := .percent, used := 20, limit := some 100
    resetAt := if k % 3 = 0 ∧ 90 ≤ k ∧ k < 150 then none else some (Duration.seconds 18000) }

/-- Two hours of them. -/
def twoHours : List (QuotaSnapshot ℚ) := (List.range 481).map quarterMinute

def wholeSession : EffectiveWindow ℚ :=
  { window := ⟨"session_5h"⟩, start := 0, resetAt := Duration.seconds 18000
    startUncertainty := 0, used := some 20 }

/-- What a chart of six hours has of them. -/
def sixHours : List (QuotaSnapshot ℚ) :=
  reduceSeries twoHours 0 (Duration.numMilliseconds (TimeRange.h6.duration - 0)) 480

private theorem twoHours_sorted : twoHours.Pairwise fun a b => a.ts ≤ b.ts := by
  apply List.pairwise_map.mpr
  apply List.pairwise_lt_range.imp
  intro j k hjk
  change Duration.seconds _ ≤ Duration.seconds _
  unfold Duration.seconds Duration
  omega

private theorem twoHours_unbroken : Unbroken (cadenceGap 15) twoHours := by
  unfold Unbroken twoHours
  rw [List.isChain_iff_getElem]
  intro i hi
  simp only [List.getElem_map, List.getElem_range, quarterMinute]
  have hcadence : cadenceGap 15 = 46500000000 := by decide
  rw [hcadence]
  unfold Duration.seconds Duration
  omega

private theorem matching_of_sorted {points : List (QuotaSnapshot ℚ)}
    (h : points.Pairwise fun a b => a.ts ≤ b.ts) (now : DateTime) :
    matching wholeSession points now =
      (points.filter (measures wholeSession now)).destutter fun a b => a.ts ≠ b.ts :=
  inOrder_of_sorted (h.sublist List.filter_sublist)

private theorem twoHours_runs :
    let now := Duration.seconds 7200
    let before := utilizationRun
      ((twoHours.filter (measures wholeSession now)).destutter fun a b => a.ts ≠ b.ts)
    let run := utilizationRun
      ((sixHours.filter (measures wholeSession now)).destutter fun a b => a.ts ≠ b.ts)
    (before.IsChain fun a b => b.1 - a.1 ≤ chartGap .h6 15 ∧ ¬ b.2 < a.2 - fallEpsilon) ∧
      stretchStart (chartGap .h6 15) run (run.length - 1) = 30 ∧
      run[29]? = some (Duration.seconds (15 * 87), 1 / 5) ∧
      run[30]? = some (Duration.seconds (15 * 150), 1 / 5) ∧
      ¬ (1 / 5 : ℚ) < 1 / 5 - fallEpsilon := by
  decide +kernel

/-- Of each bucket the first of its readings is kept, the only one without a reset. The session's
rate is measured over all of the series, but not over all of what is kept of it. -/
theorem downsampling_cuts_twoHours :
    (twoHours.Pairwise fun a b => a.ts ≤ b.ts) ∧
      (∀ row ∈ twoHours, 0 ≤ row.ts ∧ row.ts ≤ 0 + TimeRange.h6.duration) ∧
      Unbroken (cadenceGap 15) twoHours ∧
      Whole (chartGap .h6 15)
        (utilizationRun (matching wholeSession twoHours (Duration.seconds 7200))) ∧
      ¬ CutOnlyAtFall (chartGap .h6 15)
        (utilizationRun (matching wholeSession sixHours (Duration.seconds 7200))) := by
  obtain ⟨hbefore, hstart, hprev, hnext, hsame⟩ := twoHours_runs
  have hsixHours : sixHours.Pairwise fun a b => a.ts ≤ b.ts :=
    twoHours_sorted.sublist (reduceSeries_sublist twoHours_sorted (by decide))
  rw [matching_of_sorted twoHours_sorted, matching_of_sorted hsixHours]
  have hcut := cutOnlyAtFall_of_chain (hbefore.imp fun _ _ h => h.1)
  have hwhole := whole_of_climbs hcut (hbefore.imp fun _ _ h => h.2)
  refine ⟨twoHours_sorted, ?_, twoHours_unbroken, hwhole, ?_⟩
  · intro row hrow
    obtain ⟨k, hk, rfl⟩ := List.mem_map.mp hrow
    have hlt := List.mem_range.mp hk
    change 0 ≤ Duration.seconds (15 * k) ∧
      Duration.seconds (15 * k) ≤ 0 + Duration.seconds (6 * 3600)
    unfold Duration.seconds Duration
    omega
  · rintro (hzero | ⟨prevTs, prevUsed, ts, used, hprev', hnext', hfall⟩)
    · rw [hzero] at hstart
      cases hstart
    · rw [hstart, hprev] at hprev'
      rw [hstart, hnext] at hnext'
      cases hprev'
      cases hnext'
      exact hsame hfall

end Teiryo
