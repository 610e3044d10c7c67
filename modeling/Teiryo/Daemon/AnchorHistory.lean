import Teiryo.Daemon.Anchors

/-!
# What the anchors say

The anchor map against the history of what was detected, over runs of polls of any accounts.
-/

namespace Teiryo

open Register (replay)

variable {F : Type}

/-- The most recent rollover of one window of one account. -/
def lastRollover (key : AccountId × WindowId) (rs : List (WindowRollover F)) :
    Option (WindowRollover F) :=
  (rs.filter fun r => (r.account, r.window) == key).getLast?

/-- The anchor that is left when a rollover is the most recent one. -/
def anchorOf (r : WindowRollover F) : Option ObservedStart :=
  if unannounced r then some (.fromRollover r) else none

private theorem lastRollover_concat (key : AccountId × WindowId) (rs : List (WindowRollover F))
    (r : WindowRollover F) :
    lastRollover key (rs ++ [r]) =
      if key = (r.account, r.window) then some r else lastRollover key rs := by
  by_cases hkey : key = (r.account, r.window)
  · subst hkey
    simp [lastRollover, List.filter_append]
  · have hne : ((r.account, r.window) == key) = false := beq_eq_false_iff_ne.mpr (Ne.symm hkey)
    simp [lastRollover, List.filter_append, hne, hkey]

private theorem lastRollover_append (key : AccountId × WindowId) (rs ss : List (WindowRollover F)) :
    lastRollover key (rs ++ ss) = (lastRollover key ss).or (lastRollover key rs) := by
  simp only [lastRollover, List.filter_append, List.getLast?_append]

private theorem lastRollover_eq_none {key : AccountId × WindowId} {rs : List (WindowRollover F)}
    (h : ∀ r ∈ rs, (r.account, r.window) ≠ key) : lastRollover key rs = none := by
  have hfilter : rs.filter (fun r => (r.account, r.window) == key) = [] := by
    rw [List.filter_eq_nil_iff]
    intro r hr
    simpa using h r hr
  rw [lastRollover, hfilter, List.getLast?_nil]

private theorem replay_writeAt (key : AccountId × WindowId) (start : Option ObservedStart)
    (rs : List (WindowRollover F)) :
    replay start (rs.map (writeAt key)) =
      match lastRollover key rs with
      | some r => anchorOf r
      | none => start := by
  induction rs using List.reverseRecOn with
  | nil => rfl
  | append_singleton rs r ih =>
    rw [List.map_append, Register.replay_append, ih, lastRollover_concat]
    simp only [List.map_singleton, replay, List.foldl_cons, List.foldl_nil, writeAt]
    by_cases hkey : key = (r.account, r.window)
    · simp only [if_pos hkey, anchorOf]
      cases unannounced r <;> rfl
    · rw [if_neg hkey, if_neg hkey]
      rfl

private theorem get_pruneAnchors_frame (starts : Dict (AccountId × WindowId) ObservedStart)
    {account : AccountId} (windows : List (QuotaWindow F)) (now : DateTime)
    {key : AccountId × WindowId} (hne : key.1 ≠ account) :
    (pruneAnchors starts account windows now).get key = starts.get key := by
  unfold pruneAnchors
  by_cases hlongest : longestSpan windows ≤ 0
  · rw [if_pos hlongest]
  · rw [if_neg hlongest, Dict.get_retain]
    cases starts.get key <;> simp [Option.filter, hne]

namespace Daemon

variable [F64 F] {json : SerdeJson F} {d : Daemon F}

/-- The anchor of a window of the polled account after a poll. -/
theorem record_anchor {poll : RecordedPoll F} {account : AccountId} {w : WindowId}
    (haccount : poll.2.account = account) :
    (record json d poll).state.observedStarts.get (account, w) =
      (match lastRollover (account, w) (detected d.state poll.2) with
        | some r => anchorOf r
        | none => d.state.observedStarts.get (account, w)).filter
        (keepsAt poll.2.outcome.windows poll.2.ts w) := by
  rw [record_observedStarts haccount, Register.step, anchorStep, replay_writeAt]

private theorem record_observedStarts_frame (json : SerdeJson F) (d : Daemon F)
    {poll : RecordedPoll F} {key : AccountId × WindowId} (hne : key.1 ≠ poll.2.account) :
    (record json d poll).state.observedStarts.get key = d.state.observedStarts.get key := by
  have hother : ∀ r ∈ detected d.state poll.2, (r.account, r.window) ≠ key := by
    intro r hr heq
    apply hne
    rw [← (detected_origin hr).1, ← heq]
  have hlast := lastRollover_eq_none hother
  simp only [record, recordEvent, nextStarts]
  rw [get_pruneAnchors_frame _ _ _ hne, get_foldl_applyRollover, replay_writeAt, hlast]

/-- Each anchor is the bracket of the most recent rollover detected for its window, which was
unannounced. -/
theorem anchor_of_last (hfresh : ∀ key, d.state.observedStarts.get key = none)
    (run : List (RecordedPoll F)) {key : AccountId × WindowId} {start : ObservedStart}
    (h : (recordAll json d run).state.observedStarts.get key = some start) :
    ∃ r, lastRollover key (detections json d run) = some r ∧ anchorOf r = some start := by
  induction run using List.reverseRecOn with
  | nil =>
    rw [recordAll, List.foldl_nil, hfresh] at h
    cases h
  | append_singleton run poll ih =>
    rw [recordAll_concat] at h
    rw [detections_append, detections_cons, lastRollover_append, detections, detectedAlong,
      List.flatMap_nil, List.append_nil]
    by_cases haccount : poll.2.account = key.1
    · rw [record_anchor haccount] at h
      obtain ⟨h, -⟩ := Option.filter_eq_some_iff.mp h
      cases hlast : lastRollover key (detected (recordAll json d run).state poll.2) with
      | some r =>
        rw [hlast] at h
        exact ⟨r, rfl, h⟩
      | none =>
        rw [hlast] at h
        exact ih h
    · have hother : ∀ r ∈ detected (recordAll json d run).state poll.2,
          (r.account, r.window) ≠ key := by
        intro r hr heq
        apply haccount
        rw [← (detected_origin hr).1, ← heq]
      rw [record_observedStarts_frame json _ (Ne.symm haccount)] at h
      rw [lastRollover_eq_none hother, Option.none_or]
      exact ih h

private theorem anchor_within_span {poll : RecordedPoll F}
    (hnd : (poll.2.outcome.windows.map QuotaWindow.id).Nodup) {v : QuotaWindow F}
    (hv : v ∈ poll.2.outcome.windows) {span : Duration} (hspan : v.span = some span)
    (hpositive : span = 0 → 0 < longestSpan poll.2.outcome.windows) {start : ObservedStart}
    (h : (record json d poll).state.observedStarts.get (poll.2.account, v.id) = some start) :
    poll.2.ts - start.estimate ≤ span := by
  rw [record_anchor rfl] at h
  obtain ⟨-, hkeep⟩ := Option.filter_eq_some_iff.mp h
  have hlong : 0 < longestSpan poll.2.outcome.windows := by
    have hnonneg := QuotaWindow.span_nonneg hspan
    have hle := span_le_longestSpan hv hspan
    by_cases hzero : span = 0
    · exact hpositive hzero
    · unfold Duration at *
      omega
  by_contra hlate
  have hdrop : keepsAt poll.2.outcome.windows poll.2.ts v.id start = false :=
    keepsAt_eq_false_iff.mpr ⟨hlong, span, get_spansOf_of_mem hnd hv hspan, not_le.mp hlate⟩
  rw [hdrop] at hkeep
  cases hkeep

/-- What the anchor map says after a run that began without anchors. -/
structure AnchorsExplained (json : SerdeJson F) (d : Daemon F) (run : List (RecordedPoll F)) :
    Prop where
  /-- An anchor is the bracket of the last rollover of its window, which was unannounced. -/
  bracket : ∀ key start, (recordAll json d run).state.observedStarts.get key = some start →
    ∃ r, lastRollover key (detections json d run) = some r ∧ r.kind = .unannounced ∧
      start = { notBefore := r.prevObservedAt.getD r.observedAt, notAfter := r.observedAt }
  /-- A window whose last rollover was announced has no anchor. -/
  announced : ∀ key r, lastRollover key (detections json d run) = some r →
    r.kind ≠ .unannounced → (recordAll json d run).state.observedStarts.get key = none
  /-- After a successful poll no anchor of its windows is older than the window's span. -/
  within_span : ∀ init poll, run = init ++ [poll] → poll.2.outcome.isSuccess = true →
    ∀ v ∈ poll.2.outcome.windows, ∀ span, v.span = some span →
      (span = 0 → 0 < longestSpan poll.2.outcome.windows) → ∀ start,
        (recordAll json d run).state.observedStarts.get (poll.2.account, v.id) = some start →
          poll.2.ts - start.estimate ≤ span
  /-- A poll of one account leaves the anchors of the others alone. -/
  others : ∀ init poll, run = init ++ [poll] → ∀ key, key.1 ≠ poll.2.account →
    (recordAll json d run).state.observedStarts.get key =
      (recordAll json d init).state.observedStarts.get key

/-- The anchors after any run of polls, of any accounts, written or not. -/
theorem anchors_explained (hfresh : ∀ key, d.state.observedStarts.get key = none)
    (run : List (RecordedPoll F))
    (hnd : ∀ e ∈ eventsOf run, (e.outcome.windows.map QuotaWindow.id).Nodup) :
    AnchorsExplained json d run where
  bracket := by
    intro key start h
    obtain ⟨r, hlast, hanchor⟩ := anchor_of_last hfresh run h
    unfold anchorOf at hanchor
    split at hanchor
    · rename_i hunannounced
      exact ⟨r, hlast, of_decide_eq_true hunannounced, (Option.some.inj hanchor).symm⟩
    · cases hanchor
  announced := by
    intro key r hlast hkind
    rw [Option.eq_none_iff_forall_ne_some]
    intro start h
    obtain ⟨r', hlast', hanchor⟩ := anchor_of_last hfresh run h
    rw [hlast] at hlast'
    cases hlast'
    have hunannounced : unannounced r = false := decide_eq_false hkind
    rw [anchorOf, hunannounced] at hanchor
    cases hanchor
  within_span := by
    intro init poll hrun _ v hv span hspan hpositive start h
    subst hrun
    rw [recordAll_concat] at h
    exact anchor_within_span (hnd poll.2 mem_eventsOf_concat) hv hspan hpositive h
  others := by
    intro init poll hrun key hne
    subst hrun
    rw [recordAll_concat]
    exact record_observedStarts_frame json _ hne

theorem anchors_explained_silentReset :
    AnchorsExplained silentResetJson claudeDaemon silentReset :=
  anchors_explained (fun _ => rfl) silentReset (by decide)

-- The runs below are on rationals, whose operations are irreducible.
attribute [local semireducible] Rat.add Rat.mul Rat.inv Rat.sub Rat.ofScientific

/-- The reset of a window of length zero, alone in its payload. -/
def lonelyReset : List (RecordedPoll ℚ) := [
  minutePoll 0 (.success [silentWindow "burst" 0 90]),
  minutePoll 1 (.success [silentWindow "burst" 0 2])]

/-- Right after the second poll the anchor is half a minute old, and its window lasts no time at
all. -/
theorem lonely_anchor_outlives_span :
    (eventsOf lonelyReset).all (·.outcome.isSuccess) = true ∧
      (∀ e ∈ eventsOf lonelyReset, (e.outcome.windows.map QuotaWindow.id).Nodup) ∧
      (silentWindow "burst" 0 2).span = some 0 ∧
      ((recordAll (runJson ["first", "second"] lonelyReset) claudeDaemon
        lonelyReset).state.latestSuccess.get claudeAccount.id).map (·.outcome) =
          some (.success [silentWindow "burst" 0 2]) ∧
      ∃ start, (recordAll (runJson ["first", "second"] lonelyReset) claudeDaemon
        lonelyReset).state.observedStarts.get (claudeAccount.id, ⟨"burst"⟩) = some start ∧
          0 < millisToTs 60000 - start.estimate := by
  refine ⟨by decide, by decide, by decide, by decide,
    { notBefore := 0, notAfter := millisToTs 60000 }, by decide, by decide⟩

end Daemon
end Teiryo
