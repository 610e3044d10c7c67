import Mathlib.Algebra.Order.BigOperators.Group.List
import Mathlib.Algebra.Order.Ring.Nat
import Mathlib.Data.List.Chain
import Mathlib.Data.List.Dedup
import Mathlib.Data.List.Induction
import Mathlib.Data.List.Perm.Basic
import Mathlib.Tactic.Common

/-!
# Peaks by bucket

A series cut into numbered buckets. Every bucket that has a row keeps one row: the first of its
highest rows, except that the last bucket of the series keeps its newest row. A list of rows with
several keys is cut into one series for each key.
-/

namespace Teiryo.Buckets

variable {α β κ : Type}

/-- The first of the highest rows. -/
def firstPeak (lower : α → α → Bool) (rows : List α) : Option α :=
  rows.foldl (fun peak row =>
    match peak with
    | none => some row
    | some p => if lower p row then some row else some p) none

def inBucket (bucket : α → Nat) (rows : List α) (b : Nat) : List α :=
  rows.filter fun row => bucket row == b

/-- What one bucket of a series keeps. -/
def keptIn (bucket : α → Nat) (lower : α → α → Bool) (rows : List α) (b : Nat) : Option α :=
  if rows.all fun row => decide (bucket row ≤ b) then (inBucket bucket rows b).getLast?
  else firstPeak lower (inBucket bucket rows b)

/-- What a series keeps of its rows, the buckets being the numbers below `n`. -/
def kept (bucket : α → Nat) (lower : α → α → Bool) (n : Nat) (rows : List α) : List α :=
  (List.range n).filterMap (keptIn bucket lower rows)

/-- The peaks of the buckets below `n`. -/
def peaksBelow (bucket : α → Nat) (lower : α → α → Bool) (n : Nat) (rows : List α) : List α :=
  (List.range n).filterMap fun b => firstPeak lower (inBucket bucket rows b)

/-- The series of a list, each cut to what it keeps. -/
def bySeries [DecidableEq κ] (key : α → κ) (keep : List α → List α) (rows : List α) : List α :=
  (rows.map key).dedup.flatMap fun k => keep (rows.filter fun row => key row == k)

section Peaks

variable {bucket : α → Nat} {lower : α → α → Bool} {rows : List α} {r : α}

theorem firstPeak_concat (rows : List α) (r : α) :
    firstPeak lower (rows ++ [r]) =
      match firstPeak lower rows with
      | none => some r
      | some p => if lower p r then some r else some p := by
  unfold firstPeak
  rw [List.foldl_append]
  rfl

theorem inBucket_concat (rows : List α) (r : α) (b : Nat) :
    inBucket bucket (rows ++ [r]) b =
      if bucket r = b then inBucket bucket rows b ++ [r] else inBucket bucket rows b := by
  unfold inBucket
  rw [List.filter_append, List.filter_singleton]
  by_cases h : bucket r = b
  · simp [h]
  · have hb : (bucket r == b) = false := beq_eq_false_iff_ne.mpr h
    simp [h, hb]

theorem inBucket_eq_nil {b : Nat} (h : ∀ row ∈ rows, bucket row < b) :
    inBucket bucket rows b = [] := by
  apply List.filter_eq_nil_iff.mpr
  intro row hrow hb
  have hlt := h row hrow
  have heq := eq_of_beq hb
  omega

/-- Buckets that keep nothing do not show. -/
theorem filterMap_range_of_none {f : Nat → Option β} {m n : Nat} (hmn : m ≤ n)
    (h : ∀ b, m ≤ b → b < n → f b = none) :
    (List.range n).filterMap f = (List.range m).filterMap f := by
  induction n with
  | zero =>
    obtain rfl : m = 0 := by omega
    rfl
  | succ n ih =>
    by_cases hm : m = n + 1
    · rw [hm]
    · have hn : f n = none := h n (by omega) (by omega)
      rw [List.range_succ, List.filterMap_append, ih (by omega) fun b hb hbn => h b hb (by omega)]
      simp [hn]

/-- A row that goes into a later bucket leaves the peaks alone. -/
theorem peaksBelow_concat {n : Nat} (h : n ≤ bucket r) :
    peaksBelow bucket lower n (rows ++ [r]) = peaksBelow bucket lower n rows := by
  apply List.filterMap_congr
  intro b hb
  have hbn := List.mem_range.mp hb
  have hne : bucket r ≠ b := by omega
  rw [inBucket_concat, if_neg hne]

/-- The peaks below a bucket past the last one of the series. -/
theorem peaksBelow_of_last {c n : Nat} {peak : α} (hcn : c < n)
    (h : ∀ row ∈ rows, bucket row ≤ c)
    (hpeak : firstPeak lower (inBucket bucket rows c) = some peak) :
    peaksBelow bucket lower n rows = peaksBelow bucket lower c rows ++ [peak] := by
  have hnone : ∀ b, c + 1 ≤ b → b < n → firstPeak lower (inBucket bucket rows b) = none := by
    intro b hb _
    have hlt : ∀ row ∈ rows, bucket row < b := by
      intro row hrow
      have := h row hrow
      omega
    rw [inBucket_eq_nil hlt]
    rfl
  unfold peaksBelow
  rw [filterMap_range_of_none (Nat.succ_le_of_lt hcn) hnone, List.range_succ,
    List.filterMap_append]
  simp [hpeak]

/-- A series whose last row is in its last bucket keeps the peaks before that bucket, and that
row. -/
theorem kept_concat {n : Nat} (h : ∀ row ∈ rows, bucket row ≤ bucket r) (hn : bucket r < n) :
    kept bucket lower n (rows ++ [r]) = peaksBelow bucket lower (bucket r) rows ++ [r] := by
  have hall : ∀ b, bucket r ≤ b →
      (rows ++ [r]).all (fun row => decide (bucket row ≤ b)) = true := by
    intro b hb
    rw [List.all_eq_true]
    intro row hrow
    rcases List.mem_append.mp hrow with hrow | hrow
    · have := h row hrow
      exact decide_eq_true (by omega)
    · rw [List.mem_singleton.mp hrow]
      exact decide_eq_true hb
  have hlater : ∀ b, bucket r + 1 ≤ b → b < n →
      keptIn bucket lower (rows ++ [r]) b = none := by
    intro b hb _
    have hlt : ∀ row ∈ rows ++ [r], bucket row < b := by
      intro row hrow
      have hle := of_decide_eq_true (List.all_eq_true.mp (hall (bucket r) (Nat.le_refl _)) row hrow)
      omega
    rw [keptIn, if_pos (hall b (by omega)), inBucket_eq_nil hlt]
    rfl
  have hlast : keptIn bucket lower (rows ++ [r]) (bucket r) = some r := by
    rw [keptIn, if_pos (hall _ (Nat.le_refl _)), inBucket_concat, if_pos rfl,
      List.getLast?_concat]
  have hbefore : ∀ b ∈ List.range (bucket r), keptIn bucket lower (rows ++ [r]) b =
      firstPeak lower (inBucket bucket rows b) := by
    intro b hb
    have hbr := List.mem_range.mp hb
    have hnot : ¬ (rows ++ [r]).all (fun row => decide (bucket row ≤ b)) = true := by
      intro hall
      have hle := of_decide_eq_true (List.all_eq_true.mp hall r (by simp))
      omega
    have hne : bucket r ≠ b := by omega
    rw [keptIn, if_neg hnot, inBucket_concat, if_neg hne]
  unfold kept peaksBelow
  rw [filterMap_range_of_none (Nat.succ_le_of_lt hn) hlater, List.range_succ,
    List.filterMap_append, List.filterMap_congr hbefore]
  simp [hlast]

end Peaks

section Kept

variable {bucket : α → Nat} {lower : α → α → Bool} {rows : List α} {r : α} {b n : Nat}

/-- An order of rows by height in which some rows, not `comparable`, are higher than none and
lower than none. -/
structure HeightOrder (lower : α → α → Bool) (comparable : α → Prop) : Prop where
  irrefl : ∀ a, lower a a = false
  trans : ∀ a b c, lower a b = true → lower b c = true → lower a c = true
  between : ∀ a b c, lower a b = true → comparable c → lower a c = true ∨ lower c b = true

theorem firstPeak_mem (h : firstPeak lower rows = some r) : r ∈ rows := by
  induction rows using List.reverseRecOn with
  | nil => cases h
  | append_singleton rows q ih =>
    rw [firstPeak_concat] at h
    cases hp : firstPeak lower rows with
    | none =>
      rw [hp] at h
      simp [Option.some.inj h]
    | some p =>
      rw [hp] at h
      change (if lower p q then some q else some p) = some r at h
      split at h
      · simp [Option.some.inj h]
      · rw [Option.some.inj h] at hp
        exact List.mem_append_left _ (ih hp)

theorem firstPeak_isSome (h : rows ≠ []) : (firstPeak lower rows).isSome = true := by
  rcases List.eq_nil_or_concat' rows with rfl | ⟨init, q, rfl⟩
  · exact absurd rfl h
  · rw [firstPeak_concat]
    cases firstPeak lower init with
    | none => rfl
    | some p =>
      change (if lower p q then some q else some p).isSome = true
      split <;> rfl

/-- No row is higher than the peak, and the comparable rows before it are all lower. -/
theorem firstPeak_split {comparable : α → Prop} (horder : HeightOrder lower comparable)
    (h : firstPeak lower rows = some r) :
    (∀ q ∈ rows, lower r q = false) ∧
      ∃ before after, rows = before ++ r :: after ∧
        ∀ q ∈ before, comparable q → lower q r = true := by
  induction rows using List.reverseRecOn generalizing r with
  | nil => cases h
  | append_singleton rows q ih =>
    rw [firstPeak_concat] at h
    cases hp : firstPeak lower rows with
    | none =>
      rw [hp] at h
      obtain rfl : q = r := Option.some.inj h
      have hrows : rows = [] := by
        by_contra hne
        have hsome : (firstPeak lower rows).isSome = true := firstPeak_isSome hne
        rw [hp] at hsome
        cases hsome
      subst rows
      refine ⟨?_, [], [], rfl, nofun⟩
      intro q' hq'
      rw [List.mem_singleton.mp hq']
      exact horder.irrefl q
    | some p =>
      obtain ⟨hmax, before, after, hsplit, hbefore⟩ := ih hp
      rw [hp] at h
      change (if lower p q then some q else some p) = some r at h
      split at h
      · -- the new row is the peak, and was higher than everything before it
        rename_i hlt
        obtain rfl : q = r := Option.some.inj h
        refine ⟨?_, rows, [], rfl, ?_⟩
        · intro q' hq'
          rcases List.mem_append.mp hq' with hq' | hq'
          · cases hlow : lower q q' with
            | false => rfl
            | true =>
              have hpq := horder.trans p q q' hlt hlow
              rw [hmax q' hq'] at hpq
              cases hpq
          · rw [List.mem_singleton.mp hq']
            exact horder.irrefl q
        · intro q' hq' hcomp
          rcases horder.between p q q' hlt hcomp with hlow | hlow
          · rw [hmax q' hq'] at hlow
            cases hlow
          · exact hlow
      · rename_i hnot
        obtain rfl : p = r := Option.some.inj h
        refine ⟨?_, before, after ++ [q], by rw [hsplit]; simp, hbefore⟩
        intro q' hq'
        rcases List.mem_append.mp hq' with hq' | hq'
        · exact hmax q' hq'
        · rw [List.mem_singleton.mp hq']
          exact Bool.eq_false_iff.mpr hnot

theorem keptIn_mem (h : keptIn bucket lower rows b = some r) : r ∈ inBucket bucket rows b := by
  unfold keptIn at h
  split at h
  · exact List.mem_of_getLast? h
  · exact firstPeak_mem h

theorem keptIn_isSome (h : inBucket bucket rows b ≠ []) :
    (keptIn bucket lower rows b).isSome = true := by
  unfold keptIn
  split
  · rw [List.getLast?_eq_some_getLast h]
    rfl
  · exact firstPeak_isSome h

/-- The rows a series was put together from under one of its keys. -/
theorem filter_flatMap_key [DecidableEq κ] {key : α → κ} {f : κ → List α} {ks : List κ}
    (hnd : ks.Nodup) (hkey : ∀ k ∈ ks, ∀ a ∈ f k, key a = k) (k : κ) :
    (ks.flatMap f).filter (fun a => key a == k) = if k ∈ ks then f k else [] := by
  induction ks with
  | nil => rfl
  | cons j ks ih =>
    obtain ⟨hj, hnd⟩ := List.nodup_cons.mp hnd
    have hown : ∀ a ∈ f j, key a = j := hkey j List.mem_cons_self
    rw [List.flatMap_cons, List.filter_append,
      ih hnd fun k hk => hkey k (List.mem_cons_of_mem _ hk)]
    by_cases heq : j = k
    · subst k
      have hall : (f j).filter (fun a => key a == j) = f j :=
        List.filter_eq_self.mpr fun a ha => beq_iff_eq.mpr (hown a ha)
      rw [hall, if_neg hj, if_pos List.mem_cons_self, List.append_nil]
    · have hnone : (f j).filter (fun a => key a == k) = [] := by
        apply List.filter_eq_nil_iff.mpr
        intro a ha hk
        exact heq ((hown a ha).symm.trans (eq_of_beq hk))
      have hmem : k ∈ j :: ks ↔ k ∈ ks := by simp [Ne.symm heq]
      simp only [hnone, List.nil_append, hmem]

theorem kept_eq_flatMap (n : Nat) :
    kept bucket lower n rows =
      (List.range n).flatMap fun b => (keptIn bucket lower rows b).toList := by
  unfold kept
  induction List.range n with
  | nil => rfl
  | cons b bs ih =>
    rw [List.flatMap_cons, ← ih]
    cases h : keptIn bucket lower rows b with
    | none => rw [List.filterMap_cons_none h]; rfl
    | some r => rw [List.filterMap_cons_some h]; rfl

/-- Of each bucket the kept rows have just the one it keeps. -/
theorem inBucket_kept (hb : b < n) :
    inBucket bucket (kept bucket lower n rows) b = (keptIn bucket lower rows b).toList := by
  rw [kept_eq_flatMap]
  unfold inBucket
  rw [filter_flatMap_key List.nodup_range, if_pos (List.mem_range.mpr hb)]
  intro k _ a ha
  exact eq_of_beq (List.mem_filter.mp (keptIn_mem (Option.mem_toList.mp ha))).2

theorem length_kept_le : (kept bucket lower n rows).length ≤ n := by
  have h := List.length_filterMap_le (keptIn bucket lower rows) (List.range n)
  rwa [List.length_range] at h

/-- A series keeps as many rows as there are buckets with rows. -/
theorem length_kept :
    (kept bucket lower n rows).length =
      (List.range n).countP fun b => !(inBucket bucket rows b).isEmpty := by
  rw [kept, List.length_filterMap_eq_countP]
  apply List.countP_congr
  intro b _
  cases hrows : inBucket bucket rows b with
  | nil =>
    have hnone : keptIn bucket lower rows b = none := by
      apply Option.eq_none_iff_forall_not_mem.mpr
      intro r hr
      have hmem := keptIn_mem hr
      rw [hrows] at hmem
      exact List.not_mem_nil hmem
    simp [hnone]
  | cons r rs =>
    have hsome : (keptIn bucket lower rows b).isSome = true :=
      keptIn_isSome (hrows ▸ List.cons_ne_nil r rs)
    simp [hsome]

section Sizes

variable {size : α → Nat} {bound : Nat → Nat}

private theorem sum_kept :
    ((kept bucket lower n rows).map size).sum =
      ((List.range n).map fun b => ((keptIn bucket lower rows b).map size).getD 0).sum := by
  rw [kept_eq_flatMap]
  induction List.range n with
  | nil => rfl
  | cons b bs ih =>
    rw [List.flatMap_cons, List.map_append, List.sum_append, ih, List.map_cons, List.sum_cons]
    cases keptIn bucket lower rows b with
    | none => rfl
    | some r => rfl

/-- What is kept is no larger than the largest rows of the buckets together. -/
theorem sum_kept_le (h : ∀ b, ∀ r ∈ inBucket bucket rows b, size r ≤ bound b) :
    ((kept bucket lower n rows).map size).sum ≤ ((List.range n).map bound).sum := by
  rw [sum_kept]
  apply List.sum_le_sum
  intro b _
  cases hkept : keptIn bucket lower rows b with
  | none => exact Nat.zero_le _
  | some r => exact h b r (keptIn_mem hkept)

/-- What is kept is no smaller than the smallest rows of the buckets together. -/
theorem le_sum_kept (h : ∀ b, ∀ r ∈ inBucket bucket rows b, bound b ≤ size r)
    (hempty : ∀ b, inBucket bucket rows b = [] → bound b = 0) :
    ((List.range n).map bound).sum ≤ ((kept bucket lower n rows).map size).sum := by
  rw [sum_kept]
  apply List.sum_le_sum
  intro b _
  cases hkept : keptIn bucket lower rows b with
  | none =>
    have hnil : inBucket bucket rows b = [] := by
      by_contra hne
      have hsome := @keptIn_isSome _ bucket lower rows b hne
      rw [hkept] at hsome
      cases hsome
    rw [hempty b hnil]
    exact Nat.zero_le _
  | some r => exact h b r (keptIn_mem hkept)

end Sizes

/-- Rows in the order of their buckets are the buckets one after another. -/
theorem flatMap_inBucket (hsorted : rows.Pairwise fun a b => bucket a ≤ bucket b) :
    (List.range n).flatMap (inBucket bucket rows) = rows.filter fun a => decide (bucket a < n) := by
  induction n with
  | zero => simp
  | succ n ih =>
    rw [List.range_succ, List.flatMap_append, ih, List.flatMap_singleton]
    clear ih
    induction rows with
    | nil => rfl
    | cons a rows ih =>
      obtain ⟨ha, hsorted⟩ := List.pairwise_cons.mp hsorted
      have hrest := ih hsorted
      unfold inBucket at hrest ⊢
      rcases Nat.lt_trichotomy (bucket a) n with hlt | heq | hgt
      · have hne : (bucket a == n) = false := beq_eq_false_iff_ne.mpr (by omega)
        simp only [List.filter_cons, hlt, decide_true, hne, Nat.lt_succ_of_lt hlt, if_true,
          Bool.false_eq_true, if_false, List.cons_append, hrest]
      · -- everything after the first row of bucket `n` is in that bucket or later
        have hnone : (a :: rows).filter (fun q => decide (bucket q < n)) = [] := by
          apply List.filter_eq_nil_iff.mpr
          intro q hq hlt
          have hlt := of_decide_eq_true hlt
          rcases List.mem_cons.mp hq with rfl | hq
          · omega
          · have := ha q hq
            omega
        rw [hnone, List.nil_append]
        apply List.filter_congr
        intro q hq
        have hle : n ≤ bucket q := by
          rcases List.mem_cons.mp hq with rfl | hq
          · omega
          · have := ha q hq
            omega
        rw [Bool.eq_iff_iff, beq_iff_eq, decide_eq_true_iff]
        omega
      · have hne : (bucket a == n) = false := beq_eq_false_iff_ne.mpr (by omega)
        have hnlt : ¬ bucket a < n := by omega
        have hnlt' : ¬ bucket a < n + 1 := by omega
        simp only [List.filter_cons, hnlt, hnlt', decide_false, hne, Bool.false_eq_true, if_false,
          hrest]

theorem flatMap_sublist {f g : κ → List α} {ks : List κ} (h : ∀ k ∈ ks, (f k).Sublist (g k)) :
    (ks.flatMap f).Sublist (ks.flatMap g) := by
  induction ks with
  | nil => exact List.Sublist.refl _
  | cons k ks ih =>
    rw [List.flatMap_cons, List.flatMap_cons]
    exact (h k List.mem_cons_self).append (ih fun k hk => h k (List.mem_cons_of_mem _ hk))

/-- What a series keeps stands in the order of the series. -/
theorem kept_sublist (hsorted : rows.Pairwise fun a b => bucket a ≤ bucket b) :
    (kept bucket lower n rows).Sublist rows := by
  have hpicks : (kept bucket lower n rows).Sublist
      ((List.range n).flatMap (inBucket bucket rows)) := by
    rw [kept_eq_flatMap]
    apply flatMap_sublist
    intro b _
    cases h : keptIn bucket lower rows b with
    | none => exact List.nil_sublist _
    | some r => exact List.singleton_sublist.mpr (keptIn_mem h)
  rw [flatMap_inBucket hsorted] at hpicks
  exact hpicks.trans List.filter_sublist

/-- The kept rows go up bucket by bucket. -/
theorem kept_pairwise :
    (kept bucket lower n rows).Pairwise fun a b => bucket a < bucket b := by
  unfold kept
  rw [List.pairwise_filterMap]
  apply List.pairwise_lt_range.imp
  intro b c hbc p hp q hq
  have hpb : bucket p = b := eq_of_beq (List.mem_filter.mp (keptIn_mem hp)).2
  have hqc : bucket q = c := eq_of_beq (List.mem_filter.mp (keptIn_mem hq)).2
  omega

/-- Every row has one of its own bucket among the kept ones. -/
theorem exists_mem_kept (hr : r ∈ rows) (hn : bucket r < n) :
    ∃ p ∈ kept bucket lower n rows, bucket p = bucket r := by
  have hmem : r ∈ inBucket bucket rows (bucket r) :=
    List.mem_filter.mpr ⟨hr, beq_self_eq_true _⟩
  have hsome : (keptIn bucket lower rows (bucket r)).isSome = true :=
    keptIn_isSome (List.ne_nil_of_mem hmem)
  obtain ⟨p, hp⟩ := Option.isSome_iff_exists.mp hsome
  refine ⟨p, List.mem_filterMap.mpr ⟨bucket r, List.mem_range.mpr hn, hp⟩, ?_⟩
  exact eq_of_beq (List.mem_filter.mp (keptIn_mem hp)).2

/-- Between the buckets of two kept rows next to each other there are no rows. -/
theorem kept_isChain (hn : ∀ row ∈ rows, bucket row < n) :
    (kept bucket lower n rows).IsChain fun a b =>
      bucket a < bucket b ∧ ∀ row ∈ rows, bucket row ≤ bucket a ∨ bucket b ≤ bucket row := by
  rw [List.isChain_iff_forall_rel_of_append_cons_cons]
  intro a b before after hsplit
  have hup : (before ++ a :: b :: after).Pairwise fun a b => bucket a < bucket b :=
    hsplit ▸ kept_pairwise
  obtain ⟨-, hafter, hbefore⟩ := List.pairwise_append.mp hup
  obtain ⟨ha, hafter⟩ := List.pairwise_cons.mp hafter
  refine ⟨ha b List.mem_cons_self, ?_⟩
  intro row hrow
  obtain ⟨p, hp, hbucket⟩ : ∃ p ∈ kept bucket lower n rows, bucket p = bucket row :=
    exists_mem_kept hrow (hn row hrow)
  rw [hsplit] at hp
  rcases List.mem_append.mp hp with hp | hp
  · have := hbefore p hp a List.mem_cons_self
    omega
  · rcases List.mem_cons.mp hp with rfl | hp
    · omega
    · rcases List.mem_cons.mp hp with rfl | hp
      · omega
      · have := (List.pairwise_cons.mp hafter).1 p hp
        omega

/-- A chain that leaves a property somewhere leaves it between two neighbours. -/
theorem exists_crossing {S : α → α → Prop} {P : α → Prop} {a y : α} {l : List α}
    (hchain : (a :: l).IsChain S) (ha : P a) (hy : y ∈ l) (hnot : ¬ P y) :
    ∃ u ∈ a :: l, ∃ v ∈ a :: l, S u v ∧ P u ∧ ¬ P v := by
  induction l generalizing a with
  | nil => cases hy
  | cons c l ih =>
    obtain ⟨hac, hrest⟩ := List.isChain_cons_cons.mp hchain
    by_cases hc : P c
    · have hyl : y ∈ l := by
        rcases List.mem_cons.mp hy with rfl | hy
        · exact absurd hc hnot
        · exact hy
      obtain ⟨u, hu, v, hv, hcross⟩ := ih hrest hc hyl
      exact ⟨u, List.mem_cons_of_mem _ hu, v, List.mem_cons_of_mem _ hv, hcross⟩
    · exact ⟨a, List.mem_cons_self, c, by simp, hac, ha, hc⟩

/-- Between two buckets with rows the series has two neighbours, one not past the first and one
past it. -/
theorem exists_step {S : α → α → Prop} (hchain : rows.IsChain S)
    (hsorted : rows.Pairwise fun a b => bucket a ≤ bucket b) {x y : α} (hx : x ∈ rows)
    (hy : y ∈ rows) (hxy : bucket x < bucket y) :
    ∃ u ∈ rows, ∃ v ∈ rows, S u v ∧ bucket u ≤ bucket x ∧ bucket x < bucket v := by
  cases rows with
  | nil => cases hx
  | cons a rows =>
    have hfirst := (List.pairwise_cons.mp hsorted).1
    have ha : bucket a ≤ bucket x := by
      rcases List.mem_cons.mp hx with rfl | hx
      · exact Nat.le_refl _
      · exact hfirst x hx
    have hyr : y ∈ rows := by
      rcases List.mem_cons.mp hy with rfl | hy
      · omega
      · exact hy
    obtain ⟨u, hu, v, hv, hstep, hux, hvx⟩ := exists_crossing
      (P := fun row => bucket row ≤ bucket x) hchain ha hyr (by omega)
    exact ⟨u, hu, v, hv, hstep, hux, by omega⟩

end Kept

section Maps

variable {bucket : β → Nat} {lower : β → β → Bool} (f : α → β) (rows : List α)

theorem firstPeak_map :
    firstPeak lower (rows.map f) = (firstPeak (fun a b => lower (f a) (f b)) rows).map f := by
  induction rows using List.reverseRecOn with
  | nil => rfl
  | append_singleton rows r ih =>
    rw [List.map_append, List.map_singleton, firstPeak_concat, firstPeak_concat, ih]
    cases firstPeak (fun a b => lower (f a) (f b)) rows with
    | none => rfl
    | some p =>
      change (if lower (f p) (f r) then some (f r) else some (f p)) =
        (if lower (f p) (f r) then some r else some p).map f
      split <;> rfl

/-- Rows are kept for their buckets and their order alone. -/
theorem kept_map (n : Nat) :
    kept bucket lower n (rows.map f) =
      (kept (fun a => bucket (f a)) (fun a b => lower (f a) (f b)) n rows).map f := by
  have hin : ∀ b, keptIn bucket lower (rows.map f) b =
      (keptIn (fun a => bucket (f a)) (fun a b => lower (f a) (f b)) rows b).map f := by
    intro b
    have hbucket : inBucket bucket (rows.map f) b =
        (inBucket (fun a => bucket (f a)) rows b).map f := List.filter_map
    unfold keptIn
    rw [hbucket, List.all_map]
    change (if rows.all (fun a => decide (bucket (f a) ≤ b)) then _ else _) = _
    split
    · exact List.getLast?_map
    · exact firstPeak_map f _
  unfold kept
  rw [List.map_filterMap]
  exact List.filterMap_congr fun b _ => hin b

end Maps

section Series

variable [DecidableEq κ] {key : α → κ}

/-- Cutting the rows of every key of a list out of it leaves nothing behind. -/
theorem flatMap_filter_perm {ks : List κ} (hnd : ks.Nodup) {rows : List α}
    (h : ∀ row ∈ rows, key row ∈ ks) :
    (ks.flatMap fun k => rows.filter fun row => key row == k).Perm rows := by
  induction ks generalizing rows with
  | nil =>
    cases rows with
    | nil => exact List.Perm.refl _
    | cons row rows => exact absurd (h row List.mem_cons_self) List.not_mem_nil
  | cons k ks ih =>
    obtain ⟨hk, hnd⟩ := List.nodup_cons.mp hnd
    let others := rows.filter fun row => !(key row == k)
    have hothers : ∀ row ∈ others, key row ∈ ks := by
      intro row hrow
      obtain ⟨hmem, hne⟩ := List.mem_filter.mp hrow
      rcases List.mem_cons.mp (h row hmem) with heq | hks
      · simp [heq] at hne
      · exact hks
    have hsame : ∀ k' ∈ ks, (others.filter fun row => key row == k') =
        rows.filter fun row => key row == k' := by
      intro k' hk'
      rw [List.filter_filter]
      apply List.filter_congr
      intro row _
      by_cases heq : key row = k'
      · have hne : key row ≠ k := fun hrow => hk (hrow ▸ heq ▸ hk')
        simp [heq, heq ▸ hne]
      · simp [heq]
    have hrest := ih hnd hothers
    rw [List.flatMap_congr hsame] at hrest
    rw [List.flatMap_cons]
    exact (hrest.append_left _).trans (List.filter_append_perm _ rows)

/-- Series that are all kept whole give the list back, series by series. -/
theorem bySeries_perm_self {keep : List α → List α} {rows : List α}
    (h : ∀ k, (keep (rows.filter fun row => key row == k)) =
      rows.filter fun row => key row == k) : (bySeries key keep rows).Perm rows := by
  unfold bySeries
  simp only [h]
  apply flatMap_filter_perm (List.nodup_dedup _)
  intro row hrow
  exact List.mem_dedup.mpr (List.mem_map_of_mem hrow)

/-- The keys may be taken in any order. -/
theorem bySeries_perm (keep : List α → List α) {ks : List κ} (hnd : ks.Nodup) {rows : List α}
    (h : ∀ k, k ∈ ks ↔ k ∈ rows.map key) :
    (ks.flatMap fun k => keep (rows.filter fun row => key row == k)).Perm
      (bySeries key keep rows) := by
  apply List.Perm.flatMap_right
  apply (List.perm_ext_iff_of_nodup hnd (List.nodup_dedup _)).mpr
  intro k
  rw [h k, List.mem_dedup]

theorem bySeries_map {key : β → κ} {keep : List β → List β} {keep' : List α → List α}
    (f : α → β) (h : ∀ rows, keep (rows.map f) = (keep' rows).map f) (rows : List α) :
    bySeries key keep (rows.map f) = (bySeries (fun a => key (f a)) keep' rows).map f := by
  unfold bySeries
  rw [List.map_map, List.map_flatMap]
  apply List.flatMap_congr
  intro k _
  rw [List.filter_map, h]
  rfl

end Series
end Teiryo.Buckets
