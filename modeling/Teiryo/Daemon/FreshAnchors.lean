import Teiryo.Daemon.AnchorHistory
import Teiryo.Daemon.Omission
import Teiryo.Core.RolloverRuns

/-!
# The anchor of a restart just seen

What `Status` shows of an unannounced restart right after the poll that revealed it. The anchor is
dropped in the call that sets it when the middle of its bracket is older than the window is long,
which is when the success before lies more than two such lengths back.
-/

namespace Teiryo

/-- The middle of a bracket that ends now is older than a span exactly when the bracket is wider
than two of them. -/
theorem ObservedStart.age_le_iff (before now : DateTime) (span : Duration) :
    now - (ObservedStart.mk before now).estimate ≤ span ↔ now - before ≤ 2 * span := by
  change now - (before + (now - before) / 2) ≤ span ↔ now - before ≤ 2 * span
  unfold DateTime Duration at *
  omega

namespace Daemon

variable {F : Type} [F64 F] {d : Daemon F} {event : PollEvent F} {r : WindowRollover F}

private theorem lastRollover_of_mem (hnd : (event.outcome.windows.map QuotaWindow.id).Nodup)
    (hr : r ∈ detected d.state event) :
    lastRollover (event.account, r.window) (detected d.state event) = some r := by
  obtain ⟨before, after, hdetected⟩ := detect_mem hr
  have hwindow : after.id = r.window := hdetected.window_eq.symm
  have hone : ∃ found : Option (WindowRollover F),
      (detected d.state event).filter (fun r => r.window == after.id) = found.toList := by
    refine ⟨_, filter_filterMap_key ?_ hnd hdetected.after_mem⟩
    intro a r hr
    simp only [Option.bind_eq_bind, Option.bind_eq_some_iff, Option.pure_def,
      Option.some.injEq] at hr
    obtain ⟨_, -, _, -, rfl⟩ := hr
    rfl
  obtain ⟨found, hfound⟩ := hone
  have hmem : r ∈ found.toList := by
    rw [← hfound]
    exact List.mem_filter.mpr ⟨hr, beq_iff_eq.mpr hwindow.symm⟩
  have hown : (detected d.state event).filter
      (fun s => (s.account, s.window) == (event.account, r.window)) = found.toList := by
    rw [← hfound]
    apply List.filter_congr
    intro s hs
    rw [(detected_origin hs).1, hwindow, Bool.eq_iff_iff, beq_iff_eq, beq_iff_eq, Prod.mk.injEq]
    exact and_iff_right rfl
  unfold lastRollover
  rw [hown]
  cases Option.mem_toList.mp hmem
  rfl

private theorem bracket_of_detected (hr : r ∈ detected d.state event) :
    ∃ last, d.state.latestSuccess.get event.account = some last ∧
      ObservedStart.fromRollover r = ⟨last.ts, event.ts⟩ := by
  obtain ⟨before, after, hdetected⟩ := detect_mem hr
  cases hlast : d.state.latestSuccess.get event.account with
  | none =>
    have hmem := hdetected.before_mem
    rw [hlast] at hmem
    cases hmem
  | some last =>
    refine ⟨last, rfl, ?_⟩
    rw [ObservedStart.fromRollover, hdetected.prevObservedAt_eq, hdetected.observedAt_eq, hlast]
    rfl

/-- Right after the poll that reveals an unannounced restart, `Status` shows its bracket, unless
the success before lies more than two lengths of the window back. -/
theorem fresh_restart_served (json : SerdeJson F) (faults : Storage.Faults)
    {w : QuotaWindow F} {span : Duration}
    (hnd : (event.outcome.windows.map QuotaWindow.id).Nodup) (hr : r ∈ detected d.state event)
    (hkind : r.kind = .unannounced) (hw : w ∈ event.outcome.windows) (hid : w.id = r.window)
    (hspan : w.span = some span) (hpositive : 0 < span)
    (hlisted : ∃ a ∈ d.state.accounts, a.id = event.account) :
    ∃ last, d.state.latestSuccess.get event.account = some last ∧
      servedStart (d.recordEvent json faults event) event.account w.id =
        some (if event.ts - last.ts ≤ 2 * span then some (.fromRollover r) else none) := by
  obtain ⟨last, hlast, hbracket⟩ := bracket_of_detected hr
  refine ⟨last, hlast, ?_⟩
  have hsuccess : event.outcome.errorMessage.isNone = true := by
    cases ho : event.outcome with
    | success windows => rfl
    | _ => rw [ho] at hw; cases hw
  have hlatest : (d.recordEvent json faults event).state.latestSuccess.get event.account =
      some event := by
    simp only [recordEvent, hsuccess, if_true, Dict.get_insert]
  have hserved : servedStart (d.recordEvent json faults event) event.account w.id =
      some ((d.recordEvent json faults event).state.observedStarts.get (event.account, w.id)) :=
    servedStart_eq hlisted ⟨w, by rw [hlatest]; exact hw, rfl⟩
  have hanchor : (d.recordEvent json faults event).state.observedStarts.get
      (event.account, w.id) = _ :=
    @record_anchor F _ json d (faults, event) event.account w.id rfl
  have hsurprise : unannounced r = true := by rw [unannounced, hkind]; rfl
  rw [hserved, hanchor, hid, lastRollover_of_mem hnd hr]
  have hput : anchorOf r = some (.fromRollover r) := if_pos hsurprise
  have hlongest : ¬ longestSpan event.outcome.windows ≤ 0 :=
    not_le.mpr (lt_of_lt_of_le hpositive (span_le_longestSpan hw hspan))
  have hkeeps : keepsAt event.outcome.windows event.ts r.window (.fromRollover r) =
      decide (event.ts - last.ts ≤ 2 * span) := by
    rw [keepsAt, if_neg hlongest, ← hid, get_spansOf_of_mem hnd hw hspan, hbracket]
    simp only [ObservedStart.age_le_iff]
  simp only [hput, Option.filter, hkeeps, decide_eq_true_eq]

-- The runs below are on rationals, whose operations are irreducible.
attribute [local semireducible] Rat.add Rat.mul Rat.inv Rat.sub Rat.ofScientific

/-- The daemon with one success behind it, nine tenths into the session. -/
def sessionSpent : Daemon ℚ :=
  claudeInService.recordEvent omittedJson Storage.noFaults
    (minutePoll 0 (.success [silentWindow "5h" 18000 90])).2

/-- The session has begun again, `n` minutes in. -/
def sessionAgain (n : Nat) : PollEvent ℚ := (minutePoll n (.success [silentWindow "5h" 18000 2])).2

/-- What the poll of minute `n` reveals. -/
def sessionReset (n : Nat) : WindowRollover ℚ where
  account := ⟨"claude:a"⟩
  window := ⟨"5h"⟩
  poll := Fin.ofNat (2 ^ 128) (n + 1)
  observedAt := millisToTs (60000 * n)
  kind := .unannounced
  prevResetAt := none
  newResetAt := none
  prevUsed := 90
  newUsed := 2
  prevObservedAt := some 0

theorem fresh_restart_served_after_ten_hours :
    ∃ last, sessionSpent.state.latestSuccess.get ⟨"claude:a"⟩ = some last ∧
      servedStart (sessionSpent.recordEvent omittedJson Storage.noFaults (sessionAgain 600))
        ⟨"claude:a"⟩ ⟨"5h"⟩ =
        some (if millisToTs 36000000 - last.ts ≤ 2 * Duration.seconds 18000 then
          some (.fromRollover (sessionReset 600)) else none) :=
  @fresh_restart_served ℚ _ sessionSpent (sessionAgain 600) (sessionReset 600) omittedJson
    Storage.noFaults (silentWindow "5h" 18000 2) (Duration.seconds 18000) (by decide)
    (by decide) rfl (by decide) rfl (by decide) (by decide)
    (by decide)

/-- The session with an announced end, `n` minutes in. -/
def sessionUntil (used : ℚ) (n : Nat) : QuotaWindow ℚ :=
  { silentWindow "5h" 18000 used with resetAt := some (millisToTs (60000 * n)) }

def sessionAnnounced : Daemon ℚ :=
  claudeInService.recordEvent omittedJson Storage.noFaults
    (minutePoll 0 (.success [sessionUntil 90 300])).2

/-- A payload that lists the session twice, first without its end and then with the next one. -/
def sessionTwice : PollEvent ℚ :=
  (minutePoll 3 (.success [silentWindow "5h" 18000 2, sessionUntil 2 303])).2

/-- What the first of the two reveals. -/
def sessionTwiceReset : WindowRollover ℚ :=
  { sessionReset 3 with prevResetAt := some (millisToTs 18000000) }

/-- The same daemon after its account went from the list. -/
def sessionUnlisted : Daemon ℚ :=
  { sessionSpent with state := { sessionSpent.state with accounts := [] } }

/-- A minute past two lengths of the session nothing is shown of its restart. Nor is it where the
payload lists the session once more, with a reset that moved, or where the account is not
listed. -/
theorem fresh_restart_dropped :
    (¬ ∀ (json : SerdeJson ℚ) (faults : Storage.Faults) (d : Daemon ℚ) (event : PollEvent ℚ)
      (r : WindowRollover ℚ) (w : QuotaWindow ℚ) (span : Duration),
      (event.outcome.windows.map QuotaWindow.id).Nodup → r ∈ detected d.state event →
      r.kind = .unannounced → w ∈ event.outcome.windows → w.id = r.window →
      w.span = some span → 0 < span → (∃ a ∈ d.state.accounts, a.id = event.account) →
      servedStart (d.recordEvent json faults event) event.account w.id =
        some (some (.fromRollover r))) ∧
    (¬ ∀ (json : SerdeJson ℚ) (faults : Storage.Faults) (d : Daemon ℚ) (event : PollEvent ℚ)
      (r : WindowRollover ℚ) (w : QuotaWindow ℚ) (span : Duration),
      event.ts - (ObservedStart.fromRollover r).notBefore ≤ 2 * span → r ∈ detected d.state event →
      r.kind = .unannounced → w ∈ event.outcome.windows → w.id = r.window →
      w.span = some span → 0 < span → (∃ a ∈ d.state.accounts, a.id = event.account) →
      servedStart (d.recordEvent json faults event) event.account w.id =
        some (some (.fromRollover r))) ∧
    ¬ ∀ (json : SerdeJson ℚ) (faults : Storage.Faults) (d : Daemon ℚ) (event : PollEvent ℚ)
      (r : WindowRollover ℚ) (w : QuotaWindow ℚ) (span : Duration),
      event.ts - (ObservedStart.fromRollover r).notBefore ≤ 2 * span →
      (event.outcome.windows.map QuotaWindow.id).Nodup → r ∈ detected d.state event →
      r.kind = .unannounced → w ∈ event.outcome.windows → w.id = r.window →
      w.span = some span → 0 < span →
      servedStart (d.recordEvent json faults event) event.account w.id =
        some (some (.fromRollover r)) := by
  refine ⟨?_, ?_, ?_⟩
  · intro h
    have hshown := h omittedJson Storage.noFaults sessionSpent (sessionAgain 601)
      (sessionReset 601) (silentWindow "5h" 18000 2) (Duration.seconds 18000) (by decide)
      (by decide) rfl (by decide) rfl (by decide) (by decide)
      (by decide)
    have hnone : servedStart (sessionSpent.recordEvent omittedJson Storage.noFaults
        (sessionAgain 601)) (sessionAgain 601).account (silentWindow "5h" 18000 2).id =
        some none := by
      decide
    rw [hnone] at hshown
    cases hshown
  · intro h
    have hshown := h omittedJson Storage.noFaults sessionAnnounced sessionTwice sessionTwiceReset
      (silentWindow "5h" 18000 2) (Duration.seconds 18000) (by decide) (by decide)
      rfl (by decide) rfl (by decide) (by decide) (by decide)
    have hnone : servedStart (sessionAnnounced.recordEvent omittedJson Storage.noFaults
        sessionTwice) sessionTwice.account (silentWindow "5h" 18000 2).id = some none := by
      decide
    rw [hnone] at hshown
    cases hshown
  · intro h
    have hshown := h omittedJson Storage.noFaults sessionUnlisted (sessionAgain 3)
      (sessionReset 3) (silentWindow "5h" 18000 2) (Duration.seconds 18000) (by decide)
      (by decide) (by decide) rfl (by decide) rfl (by decide)
      (by decide)
    have hnone : servedStart (sessionUnlisted.recordEvent omittedJson Storage.noFaults
        (sessionAgain 3)) (sessionAgain 3).account (silentWindow "5h" 18000 2).id = none := by
      decide
    rw [hnone] at hshown
    cases hshown

end Daemon
end Teiryo
