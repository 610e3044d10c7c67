import Mathlib.Data.List.Perm.Subperm
import Mathlib.Data.Rat.Defs
import Mathlib.Algebra.Order.Ring.Rat
import Teiryo.Core.History

/-!
# What downsampling keeps

The windows of a query are reduced independently of each other. A series within the budget is
kept whole; of a longer one every bucket that has readings keeps one of them, the first of the
highest, and the last of these buckets keeps the newest reading.
-/

namespace Teiryo

/-- The laws of `f64` comparison. A NaN compares with nothing. -/
class F64.Ordered (F : Type) [F64 F] : Prop where
  lt_irrefl : ∀ x : F, ¬ x < x
  lt_trans : ∀ x y z : F, x < y → y < z → x < z
  lt_between : ∀ x y z : F, x < y → z ≤ z → x < z ∨ z < y

instance : F64.Ordered ℚ where
  lt_irrefl := lt_irrefl (α := ℚ)
  lt_trans := fun _ _ _ h h' => lt_trans (α := ℚ) h h'
  lt_between := fun x _ z h _ => (lt_or_ge (α := ℚ) x z).imp_right fun hz => lt_of_le_of_lt hz h

/-- Whether an instant is in bucket `b` when `since..until` is cut into `budget` equal buckets,
in the whole milliseconds a stored time has. What lies outside is in the bucket at that end. -/
def InBucket (since «until» : DateTime) (budget b : Nat) (ts : DateTime) : Prop :=
  let span := Duration.numMilliseconds («until» - since)
  let offset := Duration.numMilliseconds (ts - since)
  (b = 0 ∨ span * b ≤ offset * budget) ∧ (b + 1 = budget ∨ offset * budget < span * (b + 1))

instance (since «until» : DateTime) (budget b : Nat) (ts : DateTime) :
    Decidable (InBucket since «until» budget b ts) := by
  unfold InBucket
  infer_instance

section Spec

variable {F : Type} [F64 F]

/-- The readings of one window. -/
def windowRows (w : WindowId) (rows : List (QuotaSnapshot F)) : List (QuotaSnapshot F) :=
  rows.filter fun s => s.window == w

/-- The readings in one bucket. -/
def bucketRows (since «until» : DateTime) (budget b : Nat) (rows : List (QuotaSnapshot F)) :
    List (QuotaSnapshot F) :=
  rows.filter fun s => decide (InBucket since «until» budget b s.ts)

/-- `row` is the first of the highest readings: none is higher, and those before it that are
numbers are lower. -/
def IsFirstPeak (rows : List (QuotaSnapshot F)) (row : QuotaSnapshot F) : Prop :=
  (∀ q ∈ rows, ¬ row.used < q.used) ∧
    ∃ before after, rows = before ++ row :: after ∧
      ∀ q ∈ before, F64.isNaN q.used = false → q.used < row.used

end Spec

section Buckets

variable {since «until» : DateTime} {budget b : Nat}

theorem bucketOf_eq_iff (ts : DateTime) (hspan : 0 < Duration.numMilliseconds («until» - since))
    (hb : b < budget) :
    bucketOf since (Duration.numMilliseconds («until» - since)) budget ts = b ↔
      InBucket since «until» budget b ts := by
  unfold bucketOf InBucket
  simp only
  generalize Duration.numMilliseconds («until» - since) = span at hspan ⊢
  generalize Duration.numMilliseconds (ts - since) = offset
  obtain ⟨m, rfl⟩ := Int.eq_ofNat_of_zero_le (Int.le_of_lt hspan)
  have hm : 0 < m := Int.natCast_pos.mp hspan
  rw [Int.toNat_natCast]
  have hge : b ≤ offset.toNat * budget / m ↔ b * m ≤ offset.toNat * budget :=
    Nat.le_div_iff_mul_le hm
  have hlt : offset.toNat * budget / m < b + 1 ↔ offset.toNat * budget < (b + 1) * m :=
    Nat.div_lt_iff_lt_mul hm
  have hmin : min (offset.toNat * budget / m) (budget - 1) = b ↔
      b ≤ offset.toNat * budget / m ∧
        (b + 1 = budget ∨ offset.toNat * budget / m < b + 1) := by omega
  rw [hmin, hge, hlt]
  rcases Int.lt_or_le offset 0 with hneg | hpos
  · -- a time before `since` counts as `since` itself
    have hzero : offset.toNat = 0 := by omega
    have hlow : offset * budget ≤ 0 := Int.mul_nonpos_of_nonpos_of_nonneg (by omega) (by omega)
    have hhigh : 0 < (m : Int) * (b + 1) := Int.mul_pos (by omega) (by omega)
    have hpos : 0 < (b + 1) * m := Nat.mul_pos (by omega) hm
    rw [hzero, Nat.zero_mul]
    by_cases hb0 : b = 0
    · simp [hb0, hm, Int.lt_of_le_of_lt hlow (by omega : (0 : Int) < m)]
    · have hbm : 0 < b * m := Nat.mul_pos (by omega) hm
      have hmb : 0 < (m : Int) * b := Int.mul_pos (by omega) (by omega)
      constructor
      · rintro ⟨h, -⟩
        omega
      · rintro ⟨h | h, -⟩
        · exact absurd h hb0
        · omega
  · obtain ⟨o, rfl⟩ := Int.eq_ofNat_of_zero_le hpos
    rw [Int.toNat_natCast]
    have hcast : (m : Int) * b ≤ o * budget ↔ b * m ≤ o * budget := by
      rw [Nat.mul_comm b m]
      norm_cast
    have hcast' : (o : Int) * budget < m * (b + 1) ↔ o * budget < (b + 1) * m := by
      rw [Nat.mul_comm (b + 1) m]
      norm_cast
    rw [hcast, hcast']
    by_cases hb0 : b = 0
    · simp [hb0]
    · simp [hb0]

end Buckets

section Series

variable {F : Type} [F64 F] {since «until» : DateTime} {budget : Nat}
  {snapshots rows : List (QuotaSnapshot F)}

/-- What a window's series keeps, between these two instants. -/
abbrev keptOf (since «until» : DateTime) (budget : Nat) (rows : List (QuotaSnapshot F)) :
    List (QuotaSnapshot F) :=
  keptSeries since (Duration.numMilliseconds («until» - since)) budget (·.ts) lowerThan rows

omit [F64 F] in
theorem sorted_buckets (span : Int) (hsorted : rows.Pairwise fun a b => a.ts ≤ b.ts) :
    rows.Pairwise fun a b =>
      bucketOf since span budget a.ts ≤ bucketOf since span budget b.ts :=
  hsorted.imp fun hab => bucketOf_mono hab

theorem keptOf_sublist (hsorted : rows.Pairwise fun a b => a.ts ≤ b.ts) :
    (keptOf since «until» budget rows).Sublist rows := by
  unfold keptOf keptSeries
  split
  · exact List.Sublist.refl _
  · exact Buckets.kept_sublist (sorted_buckets _ hsorted)

private theorem length_keptOf_le : (keptOf since «until» budget rows).length ≤ budget := by
  unfold keptOf keptSeries
  split
  · assumption
  · exact Buckets.length_kept_le

omit [F64 F] in
private theorem le_ts_trans (a b c : QuotaSnapshot F) :
    decide (a.ts ≤ b.ts) = true → decide (b.ts ≤ c.ts) = true → decide (a.ts ≤ c.ts) = true :=
  fun hab hbc => decide_eq_true ((of_decide_eq_true hab).trans (of_decide_eq_true hbc))

omit [F64 F] in
private theorem le_ts_total (a b : QuotaSnapshot F) :
    (decide (a.ts ≤ b.ts) || decide (b.ts ≤ a.ts)) = true := by
  rcases Int.le_total a.ts b.ts with h | h
  · simp [h]
  · simp [h]

private theorem downsample_eq (hsorted : snapshots.Pairwise fun a b => a.ts ≤ b.ts)
    (hbudget : 0 < budget) (hspan : 0 < Duration.numMilliseconds («until» - since)) :
    ∃ ids : List WindowId, ids.Nodup ∧ (∀ id, id ∈ ids ↔ id ∈ snapshots.map (·.window)) ∧
      downsample snapshots since «until» budget =
        (ids.flatMap fun id => keptOf since «until» budget (windowRows id snapshots)).mergeSort
          fun a b => decide (a.ts ≤ b.ts) := by
  obtain ⟨ids, hnd, hmem, hfold⟩ := foldl_pushSnapshot snapshots
  refine ⟨ids, hnd, hmem, ?_⟩
  have hlong : ¬ Duration.numMilliseconds («until» - since) ≤ 0 := by omega
  unfold downsample
  simp only
  rw [if_neg hlong, hfold, List.flatMap_map]
  congr 1
  apply List.flatMap_congr
  intro id _
  exact reduceSeries_eq (hsorted.sublist List.filter_sublist) hbudget

private theorem downsample_sorted (hsorted : snapshots.Pairwise fun a b => a.ts ≤ b.ts)
    (hbudget : 0 < budget) (hspan : 0 < Duration.numMilliseconds («until» - since)) :
    (downsample snapshots since «until» budget).Pairwise fun a b => a.ts ≤ b.ts := by
  obtain ⟨ids, -, -, heq⟩ := downsample_eq hsorted hbudget hspan
  rw [heq]
  exact (List.pairwise_mergeSort le_ts_trans le_ts_total _).imp of_decide_eq_true

private theorem downsample_subperm (hsorted : snapshots.Pairwise fun a b => a.ts ≤ b.ts)
    (hbudget : 0 < budget) (hspan : 0 < Duration.numMilliseconds («until» - since)) :
    (downsample snapshots since «until» budget).Subperm snapshots := by
  obtain ⟨ids, hnd, hmem, heq⟩ := downsample_eq hsorted hbudget hspan
  have hpicks :
      (ids.flatMap fun id => keptOf since «until» budget (windowRows id snapshots)).Sublist
        (ids.flatMap fun id => windowRows id snapshots) := by
    apply Buckets.flatMap_sublist
    intro id _
    exact keptOf_sublist (hsorted.sublist List.filter_sublist)
  have hall : (ids.flatMap fun id => windowRows id snapshots).Perm snapshots := by
    apply Buckets.flatMap_filter_perm hnd
    intro s hs
    exact (hmem _).mpr (List.mem_map_of_mem hs)
  rw [heq]
  exact ((List.mergeSort_perm _ _).subperm.trans hpicks.subperm).trans hall.subperm

private theorem downsample_window (hsorted : snapshots.Pairwise fun a b => a.ts ≤ b.ts)
    (hbudget : 0 < budget) (hspan : 0 < Duration.numMilliseconds («until» - since))
    (w : WindowId) :
    windowRows w (downsample snapshots since «until» budget) =
      keptOf since «until» budget (windowRows w snapshots) := by
  obtain ⟨ids, hnd, hmem, heq⟩ := downsample_eq hsorted hbudget hspan
  let series := ids.flatMap fun id => keptOf since «until» budget (windowRows id snapshots)
  have hseries : ∀ id, (keptOf since «until» budget (windowRows id snapshots)).Sublist
      (windowRows id snapshots) :=
    fun id => keptOf_sublist (hsorted.sublist List.filter_sublist)
  have hkey : ∀ id, ∀ s ∈ keptOf since «until» budget (windowRows id snapshots),
      s.window = id := by
    intro id s hs
    exact eq_of_beq (List.mem_filter.mp ((hseries id).subset hs)).2
  have hfilter : windowRows w series = keptOf since «until» budget (windowRows w snapshots) := by
    unfold windowRows
    rw [Buckets.filter_flatMap_key hnd fun id _ => hkey id]
    split
    · rfl
    · rename_i hw
      have hnone : windowRows w snapshots = [] := by
        apply List.filter_eq_nil_iff.mpr
        intro s hs heq
        exact hw ((hmem w).mpr (List.mem_map.mpr ⟨s, hs, eq_of_beq heq⟩))
      exact (List.sublist_nil.mp ((hseries w).trans (List.sublist_nil.mpr hnone))).symm
  -- the sort is stable, so the window's readings come out of it in their own order
  have hsub : (keptOf since «until» budget (windowRows w snapshots)).Sublist
      (series.mergeSort fun a b => decide (a.ts ≤ b.ts)) := by
    apply List.sublist_mergeSort le_ts_trans le_ts_total
    · have hrows := hsorted.sublist (List.filter_sublist (p := fun s => s.window == w))
      exact (hrows.sublist (hseries w)).imp decide_eq_true
    · rw [← hfilter]
      exact List.filter_sublist
  have hwindow := hsub.filter fun s => s.window == w
  rw [List.filter_eq_self.mpr fun s hs => beq_iff_eq.mpr (hkey w s hs)] at hwindow
  have hlength : (windowRows w (series.mergeSort fun a b => decide (a.ts ≤ b.ts))).length =
      (keptOf since «until» budget (windowRows w snapshots)).length := by
    rw [← hfilter]
    exact ((List.mergeSort_perm _ _).filter _).length_eq
  rw [heq]
  exact (hwindow.eq_of_length hlength.symm).symm

private theorem lowerThan_order [F64.Ordered F] :
    Buckets.HeightOrder (lowerThan (F := F)) fun q => F64.isNaN q.used = false where
  irrefl a := decide_eq_false (F64.Ordered.lt_irrefl a.used)
  trans _ _ _ hab hbc :=
    decide_eq_true (F64.Ordered.lt_trans _ _ _ (of_decide_eq_true hab) (of_decide_eq_true hbc))
  between a b c hab hc := by
    have hnum : c.used ≤ c.used := by
      by_contra hnan
      simp [F64.isNaN, hnan] at hc
    rcases F64.Ordered.lt_between a.used b.used c.used (of_decide_eq_true hab) hnum with h | h
    · exact .inl (decide_eq_true h)
    · exact .inr (decide_eq_true h)

private theorem keptOf_bucket [F64.Ordered F] (hsorted : rows.Pairwise fun a b => a.ts ≤ b.ts)
    (hspan : 0 < Duration.numMilliseconds («until» - since)) (hlong : budget < rows.length)
    {b : Nat} (hb : b < budget) :
    let bucket := bucketRows since «until» budget b rows
    let picks := bucketRows since «until» budget b (keptOf since «until» budget rows)
    let last := ∀ q ∈ rows, ∀ c < budget, InBucket since «until» budget c q.ts → c ≤ b
    (bucket = [] → picks = []) ∧
      (bucket ≠ [] → ¬ last → ∃ row, picks = [row] ∧ IsFirstPeak bucket row) ∧
      (bucket ≠ [] → last → ∃ row, picks = [row] ∧ rows.getLast? = some row) := by
  intro bucket picks last
  let bucketOf' := fun row : QuotaSnapshot F =>
    bucketOf since (Duration.numMilliseconds («until» - since)) budget row.ts
  have hbudget : 0 < budget := by omega
  have hin : ∀ (l : List (QuotaSnapshot F)), bucketRows since «until» budget b l =
      Buckets.inBucket bucketOf' l b := by
    intro l
    apply List.filter_congr
    intro q _
    rw [Bool.eq_iff_iff, decide_eq_true_iff, beq_iff_eq]
    exact (bucketOf_eq_iff q.ts hspan hb).symm
  have hpicks : picks = (Buckets.keptIn bucketOf' lowerThan rows b).toList := by
    change bucketRows since «until» budget b (keptOf since «until» budget rows) = _
    have hkept : keptOf since «until» budget rows =
        Buckets.kept bucketOf' lowerThan budget rows := if_neg (by omega)
    rw [hin, hkept, Buckets.inBucket_kept hb]
  have hlast : rows.all (fun q => decide (bucketOf' q ≤ b)) = true ↔ last := by
    rw [List.all_eq_true]
    constructor
    · intro h q hq c hc hqc
      have hle := of_decide_eq_true (h q hq)
      have heq : bucketOf' q = c := (bucketOf_eq_iff q.ts hspan hc).mpr hqc
      omega
    · intro h q hq
      have hlt : bucketOf' q < budget := bucketOf_lt q.ts hbudget
      exact decide_eq_true (h q hq _ hlt ((bucketOf_eq_iff q.ts hspan hlt).mp rfl))
  have hbucket : bucket = Buckets.inBucket bucketOf' rows b := hin rows
  refine ⟨?_, ?_, ?_⟩
  · intro hempty
    cases hk : Buckets.keptIn bucketOf' lowerThan rows b with
    | none => rw [hpicks, hk]; rfl
    | some row =>
      have hmem := Buckets.keptIn_mem hk
      rw [← hbucket, hempty] at hmem
      cases hmem
  · intro hne hnot
    have hsome : (Buckets.firstPeak lowerThan
        (Buckets.inBucket bucketOf' rows b)).isSome = true :=
      Buckets.firstPeak_isSome (hbucket ▸ hne)
    obtain ⟨row, hrow⟩ := Option.isSome_iff_exists.mp hsome
    have hk : Buckets.keptIn bucketOf' lowerThan rows b = some row := by
      rw [Buckets.keptIn, if_neg fun h => hnot (hlast.mp h)]
      exact hrow
    refine ⟨row, by rw [hpicks, hk]; rfl, ?_⟩
    obtain ⟨hmax, before, after, hsplit, hbefore⟩ :=
      Buckets.firstPeak_split lowerThan_order hrow
    rw [← hbucket] at hmax hsplit
    exact ⟨fun q hq => of_decide_eq_false (hmax q hq), before, after, hsplit,
      fun q hq hnum => of_decide_eq_true (hbefore q hq hnum)⟩
  · intro hne hyes
    have hall := hlast.mpr hyes
    have hk : Buckets.keptIn bucketOf' lowerThan rows b =
        (Buckets.inBucket bucketOf' rows b).getLast? := if_pos hall
    rcases List.eq_nil_or_concat' rows with rfl | ⟨init, r, rfl⟩
    · exact absurd rfl hne
    · -- the newest reading is in no earlier bucket than any other
      have hr : bucketOf' r = b := by
        have hle := of_decide_eq_true (List.all_eq_true.mp hall r (by simp))
        obtain ⟨q, hq⟩ := List.exists_mem_of_ne_nil _ (hbucket ▸ hne)
        obtain ⟨hmem, hqb⟩ := List.mem_filter.mp hq
        have hqb : bucketOf' q = b := eq_of_beq hqb
        have hmono : bucketOf' q ≤ bucketOf' r := by
          rcases List.mem_append.mp hmem with hinit | heq
          · exact (List.pairwise_append.mp (sorted_buckets _ hsorted)).2.2 q hinit r (by simp)
          · rw [List.mem_singleton.mp heq]
        omega
      refine ⟨r, ?_, List.getLast?_concat⟩
      rw [hpicks, hk, Buckets.inBucket_concat, if_pos hr, List.getLast?_concat]
      rfl

/-- Downsampling thins each window's series on its own, to one reading for each bucket that has
any: the first of the highest, and the newest in the last of these buckets. -/
theorem downsample_spec [F64.Ordered F] (hsorted : snapshots.Pairwise fun a b => a.ts ≤ b.ts)
    (hbudget : 1 ≤ budget) (hspan : Duration.milliseconds 1 ≤ «until» - since) :
    let out := downsample snapshots since «until» budget
    out.Subperm snapshots ∧ (out.Pairwise fun a b => a.ts ≤ b.ts) ∧
      ∀ w, (windowRows w out).Sublist (windowRows w snapshots) ∧
        (windowRows w out).length ≤ budget ∧
        (∀ others : List (QuotaSnapshot F), (others.Pairwise fun a b => a.ts ≤ b.ts) →
          windowRows w others = windowRows w snapshots →
          windowRows w (downsample others since «until» budget) = windowRows w out) ∧
        ((windowRows w snapshots).length ≤ budget → windowRows w out = windowRows w snapshots) ∧
        (budget < (windowRows w snapshots).length → ∀ b < budget,
          let bucket := bucketRows since «until» budget b (windowRows w snapshots)
          let picks := bucketRows since «until» budget b (windowRows w out)
          let last := ∀ q ∈ windowRows w snapshots, ∀ c < budget,
            InBucket since «until» budget c q.ts → c ≤ b
          (bucket = [] → picks = []) ∧
            (bucket ≠ [] → ¬ last → ∃ row, picks = [row] ∧ IsFirstPeak bucket row) ∧
            (bucket ≠ [] → last →
              ∃ row, picks = [row] ∧ (windowRows w snapshots).getLast? = some row)) := by
  have hms : 0 < Duration.numMilliseconds («until» - since) :=
    lt_of_lt_of_le (by decide) (numMilliseconds_mono hspan)
  intro out
  refine ⟨downsample_subperm hsorted hbudget hms, downsample_sorted hsorted hbudget hms, ?_⟩
  intro w
  have hrows : (windowRows w snapshots).Pairwise fun a b => a.ts ≤ b.ts :=
    hsorted.sublist List.filter_sublist
  have hout : windowRows w out = keptOf since «until» budget (windowRows w snapshots) :=
    downsample_window hsorted hbudget hms w
  rw [hout]
  refine ⟨keptOf_sublist hrows, length_keptOf_le, ?_, fun hshort => if_pos hshort, ?_⟩
  · intro others hothers hsame
    rw [downsample_window hothers hbudget hms w, hsame]
  · intro hlong b hb
    exact keptOf_bucket hrows hms hlong hb

end Series

private def readingAt (ms : Int) (used : ℚ) : QuotaSnapshot ℚ :=
  { pollId := 1, ts := Duration.milliseconds ms, window := ⟨"five_hour"⟩, label := "5-hour"
    unit := .percent, used, limit := none, resetAt := none }

theorem downsample_spec_three_readings :
    (windowRows ⟨"five_hour"⟩ (downsample [readingAt 0 7, readingAt 1 7, readingAt 8 3] 0
      (Duration.milliseconds 10) 2)).length ≤ 2 :=
  ((downsample_spec (F := ℚ) (by decide) (by decide) (by decide)).2.2 ⟨"five_hour"⟩).2.1

end Teiryo
