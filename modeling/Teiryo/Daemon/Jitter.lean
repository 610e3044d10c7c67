import Teiryo.Daemon.Admitted
import Teiryo.Daemon.RetryAfter

/-!
# How far jitter moves a wait

`jittered` in `teiryod/src/scheduler.rs` counts a wait in milliseconds of a `u64`. A wait that fits
one is moved by at most a tenth; a longer one, which only a `Retry-After` can ask for, wraps.
-/

namespace Teiryo

/-- A jittered wait is computed within a `u64` and stays within a tenth of its base, to a
millisecond. -/
structure JitteredWithin (nanos : Subsec) (base : StdDuration) : Prop where
  noUnderflow : max (base.asMillis / 5) 1 / 2 ≤ base.asMillis
  noOverflow :
    base.asMillis - max (base.asMillis / 5) 1 / 2 + nanos.val % max (base.asMillis / 5) 1 < 2 ^ 64
  lower : 9 * base ≤ 10 * (jittered nanos base + StdDuration.fromMillis 1)
  upper : 10 * jittered nanos base ≤ 11 * base + 10 * StdDuration.fromMillis 1

private theorem tenth_bounds {base millis offset : Nat} (hmillis : millis = base / 1000000)
    (hoffset : offset < max (millis / 5) 1) :
    9 * base ≤ 10 * ((millis - max (millis / 5) 1 / 2 + offset) * 1000000 + 1 * 1000000) ∧
      10 * ((millis - max (millis / 5) 1 / 2 + offset) * 1000000) ≤
        11 * base + 10 * (1 * 1000000) := by
  omega

private theorem wrapped_bounds {base millis offset : Nat}
    (hmillis : millis = base / 1000000 % 2 ^ 64)
    (hlong : 2 ^ 64 ≤ base / 1000000) (hoffset : offset < 1000000000) :
    10 * ((millis - max (millis / 5) 1 / 2 + offset) * 1000000 + 1 * 1000000) < 9 * base := by
  omega

private theorem jittered_within {base : StdDuration} (nanos : Subsec)
    (h : base / 1000000 < 2 ^ 64) : JitteredWithin nanos base := by
  obtain ⟨hunder, hover⟩ := jittered_fits nanos base
  have hmillis : base.asMillis = base / 1000000 := Nat.mod_eq_of_lt h
  have hpos : 0 < max (base.asMillis / 5) 1 := lt_max_of_lt_right Nat.one_pos
  obtain ⟨hlower, hupper⟩ := tenth_bounds hmillis (Nat.mod_lt nanos.val hpos)
  exact ⟨hunder, hover, hlower, hupper⟩

private theorem jittered_wraps {base : StdDuration} (nanos : Subsec) (h : 2 ^ 64 ≤ base / 1000000) :
    10 * (jittered nanos base + StdDuration.fromMillis 1) < 9 * base :=
  wrapped_bounds rfl h ((Nat.mod_le _ _).trans_lt nanos.isLt)

private theorem jitteredWithin_iff (nanos : Subsec) (base : StdDuration) :
    JitteredWithin nanos base ↔ base / 1000000 < 2 ^ 64 := by
  constructor
  · intro h
    by_contra hlong
    exact absurd h.lower (Nat.not_le.mpr (jittered_wraps nanos (Nat.not_lt.mp hlong)))
  · exact jittered_within nanos

/-- Only the provider's own answer takes a wait past `u64::MAX` milliseconds. -/
theorem delay_fits_iff {secs : Nat} (hsecs : Config.Admits secs) (strikes : UInt32)
    (answer : Option UInt64) :
    (Throttle.mk strikes (answer.map fun a => Config.fromSecs a.toNat)).delay
        (Config.fromSecs secs) / 1000000 < 2 ^ 64 ↔
      strikes = 0 ∨ ∀ a ∈ answer, a.toNat * 1000 < 2 ^ 64 := by
  have hmillis (n : Nat) : Config.fromSecs n / 1000000 = n * 1000 := by
    show n * 1000000000 / 1000000 = n * 1000
    omega
  have hbase : Config.fromSecs secs / 1000000 < 2 ^ 64 := by
    have hmax : secs ≤ 2 ^ 32 - 1 := hsecs.2
    rw [hmillis]
    exact (Nat.mul_le_mul_right 1000 hmax).trans_lt (by decide)
  by_cases hstrikes : strikes = 0
  · rw [Throttle.delay_zero _ _ hstrikes]
    exact iff_of_true hbase (.inl hstrikes)
  · have hceiling : maxBackoff / 1000000 < 2 ^ 64 := by decide
    rw [delay_eq_backoff _ _ hstrikes]
    generalize hown : (Throttle.mk strikes _).backoff (Config.fromSecs secs) = own
    have hle : own ≤ max (Config.fromSecs secs) maxBackoff := by
      rw [← hown]
      exact max_le_max le_rfl (min_le_right _ _)
    have hfits : own / 1000000 < 2 ^ 64 := by
      rcases le_max_iff.mp hle with hle | hle
      · exact (Nat.div_le_div_right hle).trans_lt hbase
      · exact (Nat.div_le_div_right hle).trans_lt hceiling
    rw [or_iff_right hstrikes]
    cases answer with
    | none =>
      rw [Option.map_none, Option.getD_none, Nat.max_zero]
      exact iff_of_true hfits fun a ha => (Option.not_mem_none a ha).elim
    | some a =>
      rw [Option.map_some, Option.getD_some]
      simp only [Option.mem_some_iff, forall_eq']
      rw [← hmillis a.toNat]
      constructor
      · exact (Nat.div_le_div_right (le_max_right _ _)).trans_lt
      · intro ha
        rcases max_choice own (Config.fromSecs a.toNat) with hmax | hmax
        · rw [hmax]
          exact hfits
        · rw [hmax]
          exact ha

/-- A wait the scheduler sleeps for is jittered by at most a tenth exactly if its throttle has no
strikes or an answer of at most `u64::MAX` milliseconds. -/
theorem jittered_within_iff {Layout : Type} {toml : TomlCrates Layout} {file : ConfigFile}
    {loaded : LoadedConfig} (hload : Config.load toml file = .ok loaded) (provider : ProviderId)
    (strikes : UInt32) (answer : Option UInt64) (nanos : Subsec) :
    JitteredWithin nanos
        ((Throttle.mk strikes (answer.map fun a => Config.fromSecs a.toNat)).delay
          (loaded.config.pollInterval provider)) ↔
      strikes = 0 ∨ ∀ a ∈ answer, a.toNat * 1000 < 2 ^ 64 := by
  obtain ⟨secs, hsecs, hinterval⟩ := (Config.admitted_load hload).pollInterval provider
  rw [jitteredWithin_iff, hinterval]
  exact delay_fits_iff hsecs strikes answer

/-- An hour asked for at the default cadence, on the last nanosecond of a second. -/
theorem jittered_within_hour :
    JitteredWithin 999999999
      ((Throttle.mk 1 (some (Config.fromSecs 3600))).delay (Config.fromSecs 180)) :=
  (@jittered_within_iff Unit (TomlCrates.plain []) .missing {} rfl "claude" 1 (some 3600)
    999999999).mpr (.inr fun _ hsecs => by cases hsecs; decide)

/-- The shortest answer that does not fit a `u64` of milliseconds leaves a wait of 346 of them. -/
theorem jittered_wrapped :
    let base := (Throttle.mk 1 (some (Config.fromSecs 18446744073709552))).delay
      (Config.fromSecs 180)
    jittered 0 base = StdDuration.fromMillis 346 ∧ ¬ JitteredWithin 0 base := by
  refine ⟨by decide, fun h => ?_⟩
  have hlower := h.lower
  revert hlower
  decide

end Teiryo
