import Mathlib.Data.List.DropRight
import Teiryo.Daemon.Scheduler

/-!
# What holds the polls back

The throttle of a poll task after any sequence of polls. Only the polls that reached the provider
count; among these the strikes are the rate limits since the last other outcome. The wait is the
configured cadence doubled once for each strike after the first, under a ceiling that never
undercuts the cadence or the provider's own `Retry-After`.
-/

namespace Teiryo

section Outcomes

variable {F : Type}

/-- The provider was reached, or a request failed trying to. -/
def Polled.reached (polled : Polled F) : Bool := decide (polled.stage = .provider)

/-- The `Retry-After` of a rate limit, for an outcome that is one. -/
def PollOutcome.rateLimit? : PollOutcome F → Option (Option StdDuration)
  | .rateLimited retryAfter => some retryAfter
  | _ => none

def Polled.isRateLimited (polled : Polled F) : Bool := polled.outcome.rateLimit?.isSome

end Outcomes

namespace Throttle

variable {F : Type}

def recordAll (t : Throttle) (polls : List (Polled F)) : Throttle := polls.foldl record t

theorem record_unreached (t : Throttle) (polled : Polled F) (h : polled.reached = false) :
    t.record polled = t := by
  cases hs : polled.stage with
  | credential => simp only [record, hs]
  | provider => simp [Polled.reached, hs] at h

theorem record_reached (t : Throttle) (polled : Polled F) (h : polled.reached = true) :
    t.record polled = match polled.outcome.rateLimit? with
      | some retryAfter => { strikes := saturatingSucc t.strikes, retryAfter }
      | none => {} := by
  have hs : polled.stage = .provider := of_decide_eq_true h
  cases ho : polled.outcome <;> simp only [record, hs, ho, PollOutcome.rateLimit?]

private theorem recordAll_filter (t : Throttle) (polls : List (Polled F)) :
    t.recordAll polls = t.recordAll (polls.filter Polled.reached) := by
  induction polls generalizing t with
  | nil => rfl
  | cons polled polls ih =>
    cases h : polled.reached with
    | true =>
      rw [List.filter_cons_of_pos h]
      exact ih (t.record polled)
    | false =>
      rw [List.filter_cons_of_neg (by simp [h])]
      change recordAll (t.record polled) polls = _
      rw [record_unreached t polled h]
      exact ih t

theorem saturatingSucc_toNat (n : UInt32) :
    (saturatingSucc n).toNat = min (n.toNat + 1) (2 ^ 32 - 1) := by
  unfold saturatingSucc
  rw [UInt32.toNat_ofNat_of_lt']
  exact lt_of_le_of_lt (Nat.min_le_right _ _) (by decide)

/-- The throttle after polls that all reached the provider, read off the end of the sequence. -/
theorem recordAll_reached (polls : List (Polled F)) (h : ∀ p ∈ polls, p.reached = true) :
    (recordAll {} polls).strikes.toNat =
        min (polls.rtakeWhile Polled.isRateLimited).length (2 ^ 32 - 1) ∧
      (recordAll {} polls).retryAfter = polls.getLast?.bind (·.outcome.rateLimit?.join) := by
  induction polls using List.reverseRecOn with
  | nil => exact ⟨rfl, rfl⟩
  | append_singleton polls last ih =>
    have hlast : last.reached = true := h last (by simp)
    obtain ⟨hstrikes, -⟩ := ih fun p hp => h p (List.mem_append_left _ hp)
    have hstep : recordAll {} (polls ++ [last]) = (recordAll {} polls).record last := by
      simp only [recordAll, List.foldl_append, List.foldl_cons, List.foldl_nil]
    rw [hstep, record_reached _ _ hlast, List.getLast?_concat]
    cases hr : last.outcome.rateLimit? with
    | none =>
      have hneg : ¬ last.isRateLimited = true := by simp [Polled.isRateLimited, hr]
      rw [List.rtakeWhile_concat_neg _ _ _ hneg]
      simp [hr]
    | some retryAfter =>
      have hpos : last.isRateLimited = true := by simp [Polled.isRateLimited, hr]
      rw [List.rtakeWhile_concat_pos _ _ _ hpos, List.length_append, List.length_singleton]
      refine ⟨?_, by simp [hr]⟩
      change (saturatingSucc (recordAll {} polls).strikes).toNat = _
      rw [saturatingSucc_toNat, hstrikes]
      omega

private theorem doubling_fits (strikes : Nat) : backoffFactor ^ min (strikes - 1) 31 < 2 ^ 32 :=
  Nat.pow_lt_pow_right (by decide) (by omega)

private theorem checkedMul_min (base : StdDuration) (n : Nat) :
    min ((base.checkedMul n).getD maxBackoff) maxBackoff = min (base * n) maxBackoff := by
  unfold StdDuration.checkedMul
  split
  · rfl
  · rename_i hover
    have hmax : maxBackoff ≤ StdDuration.max := by decide
    rw [Option.getD_none, min_self, min_eq_right (hmax.trans (le_of_not_ge hover))]

theorem delay_zero (t : Throttle) (base : StdDuration) (h : t.strikes = 0) :
    t.delay base = base := by
  simp only [delay, h, if_true]

theorem delay_pos (t : Throttle) (base : StdDuration) (h : t.strikes ≠ 0) :
    t.delay base =
      max (max base (min (base * 2 ^ min (t.strikes.toNat - 1) 31) maxBackoff))
        (t.retryAfter.getD 0) := by
  have hfit := doubling_fits t.strikes.toNat
  simp only [delay, if_neg h]
  rw [min_eq_left (Nat.le_sub_one_of_lt hfit), checkedMul_min, max_comm _ base]
  rfl

private theorem le_delay (t : Throttle) (base : StdDuration) : base ≤ t.delay base := by
  by_cases h : t.strikes = 0
  · exact le_of_eq (delay_zero t base h).symm
  · rw [delay_pos t base h]
    exact le_max_of_le_left (le_max_left _ _)

private theorem delay_le (t : Throttle) (base : StdDuration) :
    t.delay base ≤ max (max base maxBackoff) (t.retryAfter.getD 0) := by
  by_cases h : t.strikes = 0
  · rw [delay_zero t base h]
    exact le_max_of_le_left (le_max_left _ _)
  · rw [delay_pos t base h]
    exact max_le_max (max_le_max le_rfl (min_le_right _ _)) le_rfl

private theorem delay_mono (retryAfter : Option StdDuration) (base : StdDuration)
    (few many : UInt32) (h : few ≤ many) :
    (Throttle.mk few retryAfter).delay base ≤ (Throttle.mk many retryAfter).delay base := by
  by_cases hfew : few = 0
  · rw [delay_zero _ base hfew]
    exact le_delay _ base
  · have hle : few.toNat ≤ many.toNat := UInt32.le_iff_toNat_le.mp h
    have hmany : many ≠ 0 := by
      rintro rfl
      exact hfew (UInt32.toNat_inj.mp (Nat.le_zero.mp hle))
    rw [delay_pos _ base hfew, delay_pos _ base hmany]
    have hpow : base * 2 ^ min (few.toNat - 1) 31 ≤ base * 2 ^ min (many.toNat - 1) 31 :=
      Nat.mul_le_mul_left _ (Nat.pow_le_pow_right (by decide) (by omega))
    exact max_le_max (max_le_max le_rfl (min_le_min hpow le_rfl)) le_rfl

end Throttle

namespace Gate

variable {F : Type}

def recordAll (g : Gate) (polls : List (Polled F)) : Gate :=
  polls.foldl (fun g polled => (g.record polled).1) g

private theorem recordAll_throttle (g : Gate) (polls : List (Polled F)) :
    (g.recordAll polls).throttle = g.throttle.recordAll polls := by
  induction polls generalizing g with
  | nil => rfl
  | cons polled polls ih => exact ih (g.record polled).1

end Gate

/-- The throttle follows only the provider, and its wait is the capped, floored doubling. -/
theorem throttle_follows_the_provider {F : Type} (polls : List (Polled F)) :
    let reached := polls.filter Polled.reached
    let throttle := Throttle.recordAll {} polls
    (Gate.recordAll {} polls).throttle = throttle ∧
      throttle = Throttle.recordAll {} reached ∧
      throttle.strikes.toNat =
        min (reached.rtakeWhile Polled.isRateLimited).length (2 ^ 32 - 1) ∧
      throttle.retryAfter = reached.getLast?.bind (·.outcome.rateLimit?.join) ∧
      ∀ (t : Throttle) (base : StdDuration),
        (t.strikes = 0 → t.delay base = base) ∧
        (t.strikes ≠ 0 → t.delay base =
          max (max base (min (base * 2 ^ min (t.strikes.toNat - 1) 31) maxBackoff))
            (t.retryAfter.getD 0)) ∧
        backoffFactor ^ min (t.strikes.toNat - 1) 31 < 2 ^ 32 ∧
        t.delay base ≤ max (max base maxBackoff) (t.retryAfter.getD 0) ∧
        base ≤ t.delay base ∧
        ∀ more : UInt32, t.strikes ≤ more →
          t.delay base ≤ Throttle.delay { t with strikes := more } base := by
  intro reached throttle
  have hfilter : throttle = Throttle.recordAll {} reached := Throttle.recordAll_filter {} polls
  have hreached : ∀ p ∈ reached, p.reached = true := fun p hp => (List.mem_filter.mp hp).2
  obtain ⟨hstrikes, hretry⟩ := Throttle.recordAll_reached reached hreached
  refine ⟨Gate.recordAll_throttle {} polls, hfilter, ?_, ?_, ?_⟩
  · rw [hfilter, hstrikes]
  · rw [hfilter, hretry]
  · intro t base
    exact ⟨t.delay_zero base, t.delay_pos base, Throttle.doubling_fits _, t.delay_le base,
      t.le_delay base, fun more h => Throttle.delay_mono t.retryAfter base t.strikes more h⟩

end Teiryo
