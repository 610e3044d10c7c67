import Teiryo.Daemon.Restart
import Teiryo.Framework.Register

/-!
# Anchors across a restart

The anchor of one window is a register: each poll writes to it what its rollovers say and then
drops it once the window outlived it. A restart replays the stored writes under the scales of the
last payload and drops once.
-/

namespace Teiryo

open Register (replay)

section Registers

variable {F : Type}

/-- What a rollover detected by a poll does to one anchor. -/
def writeAt (key : AccountId × WindowId) (r : WindowRollover F) : Write ObservedStart :=
  if key = (r.account, r.window) then
    if unannounced r then .put (.fromRollover r) else .drop
  else .keep

/-- What a stored rollover does to one anchor. -/
def replayAt [F64 F] (scales : Dict WindowId (QuotaWindow F)) (key : AccountId × WindowId)
    (r : WindowRollover F) : Write ObservedStart :=
  if key = (r.account, r.window) then
    if (scales.get r.window).any (replaysAsAReset r) then .put (.fromRollover r)
    else if unannounced r then .keep
    else .drop
  else .keep

/-- Whether `pruneAnchors` leaves an anchor of this window. -/
def keepsAt (windows : List (QuotaWindow F)) (now : DateTime) (w : WindowId)
    (start : ObservedStart) : Bool :=
  if longestSpan windows ≤ 0 then true
  else
    match (Dict.collect (spansOf windows)).get w with
    | some span => decide (now - start.estimate ≤ span)
    | none => true

private theorem get_applyRollover (starts : Dict (AccountId × WindowId) ObservedStart)
    (r : WindowRollover F) (key : AccountId × WindowId) :
    (applyRollover starts r).get key = Register.write (starts.get key) (writeAt key r) := by
  unfold applyRollover writeAt
  by_cases hkey : key = (r.account, r.window)
  · subst hkey
    cases unannounced r with
    | true => simp [Register.write]
    | false => simp [Register.write, Dict.get_erase]
  · cases unannounced r with
    | true => simp [hkey, Register.write, Dict.get_insert]
    | false => simp [hkey, Register.write, Dict.get_erase]

theorem get_foldl_applyRollover (rs : List (WindowRollover F))
    (starts : Dict (AccountId × WindowId) ObservedStart) (key : AccountId × WindowId) :
    (rs.foldl applyRollover starts).get key = replay (starts.get key) (rs.map (writeAt key)) :=
  Register.read_foldl (·.get key) (fun starts r => get_applyRollover starts r key) starts rs

private theorem get_replayRollover [F64 F] (scales : Dict WindowId (QuotaWindow F))
    (starts : Dict (AccountId × WindowId) ObservedStart) (r : WindowRollover F)
    (key : AccountId × WindowId) :
    (replayRollover scales starts r).get key =
      Register.write (starts.get key) (replayAt scales key r) := by
  unfold replayRollover replayAt
  by_cases hkey : key = (r.account, r.window)
  · subst hkey
    cases (scales.get r.window).any (replaysAsAReset r) with
    | true => simp [Register.write]
    | false => cases unannounced r <;> simp [Register.write, Dict.get_erase]
  · cases (scales.get r.window).any (replaysAsAReset r) with
    | true => simp [hkey, Register.write, Dict.get_insert]
    | false => cases unannounced r <;> simp [hkey, Register.write, Dict.get_erase]

theorem get_foldl_replayRollover [F64 F] (scales : Dict WindowId (QuotaWindow F))
    (rs : List (WindowRollover F)) (starts : Dict (AccountId × WindowId) ObservedStart)
    (key : AccountId × WindowId) :
    (rs.foldl (replayRollover scales) starts).get key =
      replay (starts.get key) (rs.map (replayAt scales key)) :=
  Register.read_foldl (·.get key) (fun starts r => get_replayRollover scales starts r key) starts rs

theorem get_pruneAnchors (starts : Dict (AccountId × WindowId) ObservedStart)
    (account : AccountId) (windows : List (QuotaWindow F)) (now : DateTime) (w : WindowId) :
    (pruneAnchors starts account windows now).get (account, w) =
      (starts.get (account, w)).filter (keepsAt windows now w) := by
  unfold pruneAnchors keepsAt
  by_cases hlongest : longestSpan windows ≤ 0
  · simp only [if_pos hlongest]
    cases starts.get (account, w) <;> simp [Option.filter]
  · simp only [if_neg hlongest, Dict.get_retain]
    congr 1
    funext start
    cases hspan : (Dict.collect (spansOf windows)).get w with
    | none => simp
    | some span => simp

/-! ## Spans and expiry -/

theorem QuotaWindow.span_nonneg {v : QuotaWindow F} {span : Duration} (h : v.span = some span) :
    0 ≤ span := by
  cases hkind : v.resetKind with
  | rolling length =>
    simp only [QuotaWindow.span, hkind, Duration.fromStd] at h
    split at h
    · cases h
      exact Int.natCast_nonneg length
    · cases h

theorem mem_of_get_spansOf {windows : List (QuotaWindow F)} {w : WindowId} {span : Duration}
    (h : (Dict.collect (spansOf windows)).get w = some span) :
    ∃ v ∈ windows, v.id = w ∧ v.span = some span := by
  obtain ⟨v, hv, hspan⟩ := List.mem_filterMap.mp (Dict.mem_of_get_collect h)
  obtain ⟨s, hs, heq⟩ := Option.map_eq_some_iff.mp hspan
  cases heq
  exact ⟨v, hv, rfl, hs⟩

private theorem spansOf_keys_sublist (windows : List (QuotaWindow F)) :
    ((spansOf windows).map Prod.fst).Sublist (windows.map QuotaWindow.id) := by
  induction windows with
  | nil => exact List.Sublist.refl _
  | cons v windows ih =>
    cases hspan : v.span with
    | none => simpa [spansOf, hspan] using ih.cons v.id
    | some span => simpa [spansOf, hspan] using ih

theorem get_spansOf_of_mem {windows : List (QuotaWindow F)} {v : QuotaWindow F}
    {span : Duration} (hnd : (windows.map QuotaWindow.id).Nodup) (hv : v ∈ windows)
    (hspan : v.span = some span) : (Dict.collect (spansOf windows)).get v.id = some span := by
  apply Dict.get_collect_of_mem
  · exact (spansOf_keys_sublist windows).nodup hnd
  · exact List.mem_filterMap.mpr ⟨v, hv, by simp [hspan]⟩

private theorem le_foldl_max (spans : List (WindowId × Duration)) (longest : Duration) :
    longest ≤ spans.foldl (fun longest s => max longest s.2) longest ∧
      ∀ s ∈ spans, s.2 ≤ spans.foldl (fun longest s => max longest s.2) longest := by
  induction spans generalizing longest with
  | nil => exact ⟨Int.le_refl _, fun s hs => by cases hs⟩
  | cons s spans ih =>
    obtain ⟨hinit, hrest⟩ := ih (max longest s.2)
    rw [List.foldl_cons]
    refine ⟨(le_max_left _ _).trans hinit, ?_⟩
    intro t ht
    rcases List.mem_cons.mp ht with rfl | ht
    · exact (le_max_right _ _).trans hinit
    · exact hrest t ht

theorem span_le_longestSpan {windows : List (QuotaWindow F)} {v : QuotaWindow F}
    {span : Duration} (hv : v ∈ windows) (hspan : v.span = some span) :
    span ≤ longestSpan windows := by
  have hmem : (v.id, span) ∈ spansOf windows := List.mem_filterMap.mpr ⟨v, hv, by simp [hspan]⟩
  exact (le_foldl_max (spansOf windows) 0).2 _ hmem

theorem keepsAt_eq_false_iff {windows : List (QuotaWindow F)} {now : DateTime} {w : WindowId}
    {start : ObservedStart} :
    keepsAt windows now w start = false ↔
      0 < longestSpan windows ∧
        ∃ span, (Dict.collect (spansOf windows)).get w = some span ∧
          span < now - start.estimate := by
  unfold keepsAt
  by_cases hlongest : longestSpan windows ≤ 0
  · rw [if_pos hlongest]
    constructor
    · intro h
      cases h
    · rintro ⟨hpositive, -⟩
      exact absurd hlongest (not_le.mpr hpositive)
  · rw [if_neg hlongest]
    cases hget : (Dict.collect (spansOf windows)).get w with
    | none =>
      constructor
      · intro h
        cases h
      · rintro ⟨-, span, hspan, -⟩
        cases hspan
    | some span =>
      constructor
      · intro h
        have hlong : ¬ now - start.estimate ≤ span := of_decide_eq_false h
        exact ⟨not_le.mp hlongest, span, rfl, not_le.mp hlong⟩
      · rintro ⟨-, span', hspan, hlong⟩
        cases hspan
        exact decide_eq_false (not_le.mpr hlong)

private theorem keepsAt_of_later {windows last : List (QuotaWindow F)} {v : QuotaWindow F}
    {ts now : DateTime} {start : ObservedStart} (hv : v ∈ last)
    (hnd : (last.map QuotaWindow.id).Nodup)
    (hsame : ∀ u ∈ windows, u.id = v.id → u.span = v.span)
    (hpositive : v.span = some 0 → 0 < longestSpan last) (hle : ts ≤ now)
    (h : keepsAt last now v.id start = true) : keepsAt windows ts v.id start = true := by
  unfold keepsAt
  by_cases hlongest : longestSpan windows ≤ 0
  · rw [if_pos hlongest]
  · rw [if_neg hlongest]
    cases hget : (Dict.collect (spansOf windows)).get v.id with
    | none => rfl
    | some span =>
      obtain ⟨u, hu, hid, huspan⟩ := mem_of_get_spansOf hget
      have hspan : v.span = some span := by rw [← hsame u hu hid, huspan]
      have hbound := span_le_longestSpan hv hspan
      have hnonneg := QuotaWindow.span_nonneg hspan
      have hlast : ¬ longestSpan last ≤ 0 := by
        by_cases hzero : span = 0
        · rw [hzero] at hspan
          have hpos := hpositive hspan
          unfold Duration at *
          omega
        · unfold Duration at *
          omega
      unfold keepsAt at h
      rw [if_neg hlast, get_spansOf_of_mem hnd hv hspan] at h
      have hfits : now - start.estimate ≤ span := of_decide_eq_true h
      apply decide_eq_true
      unfold DateTime Duration at *
      omega

private theorem lastById_of_nodup {windows : List (QuotaWindow F)}
    (hnd : (windows.map QuotaWindow.id).Nodup) : lastById windows = windows := by
  induction windows with
  | nil => rfl
  | cons v windows ih =>
    rw [List.map_cons, List.nodup_cons] at hnd
    have hfresh : windows.any (fun u => u.id == v.id) = false := by
      rw [List.any_eq_false]
      intro u hu heq
      exact hnd.1 (List.mem_map.mpr ⟨u, hu, eq_of_beq heq⟩)
    rw [lastById, hfresh, ih hnd.2]
    rfl

end Registers

namespace Daemon

variable {F : Type} [F64 F]

/-- The polls of a run, each with the rollovers it reveals. -/
def detectedAlong (json : SerdeJson F) :
    Daemon F → List (RecordedPoll F) → List (PollEvent F × List (WindowRollover F))
  | _, [] => []
  | d, poll :: run =>
    (poll.2, detected d.state poll.2) :: detectedAlong json (record json d poll) run

/-- The rollovers the polls of a run reveal, in order. -/
def detections (json : SerdeJson F) (d : Daemon F) (run : List (RecordedPoll F)) :
    List (WindowRollover F) :=
  (detectedAlong json d run).flatMap (·.2)

omit [F64 F] in
/-- What a poll with these rollovers does to one anchor. -/
def anchorStep (key : AccountId × WindowId) (poll : PollEvent F × List (WindowRollover F)) :
    Register.Step ObservedStart where
  writes := poll.2.map (writeAt key)
  keep := keepsAt poll.1.outcome.windows poll.1.ts key.2

def anchorSteps (json : SerdeJson F) (key : AccountId × WindowId) (d : Daemon F)
    (run : List (RecordedPoll F)) : List (Register.Step ObservedStart) :=
  (detectedAlong json d run).map (anchorStep key)

variable {json : SerdeJson F} {account : Account} {d : Daemon F} {run : List (RecordedPoll F)}

private theorem detectedAlong_append (d : Daemon F) (run more : List (RecordedPoll F)) :
    detectedAlong json d (run ++ more) =
      detectedAlong json d run ++ detectedAlong json (recordAll json d run) more := by
  induction run generalizing d with
  | nil => rfl
  | cons poll run ih =>
    rw [List.cons_append, detectedAlong, detectedAlong, ih, List.cons_append]
    rfl

theorem detections_append (d : Daemon F) (run more : List (RecordedPoll F)) :
    detections json d (run ++ more) =
      detections json d run ++ detections json (recordAll json d run) more := by
  simp only [detections, detectedAlong_append, List.flatMap_append]

theorem detections_cons (d : Daemon F) (poll : RecordedPoll F) (run : List (RecordedPoll F)) :
    detections json d (poll :: run) =
      detected d.state poll.2 ++ detections json (record json d poll) run := rfl

theorem anchorSteps_writes (key : AccountId × WindowId) (d : Daemon F)
    (run : List (RecordedPoll F)) :
    (anchorSteps json key d run).flatMap (·.writes) =
      (detections json d run).map (writeAt key) := by
  rw [anchorSteps, detections, List.flatMap_map, List.map_flatMap]
  rfl

private theorem fst_mem_eventsOf {p : PollEvent F × List (WindowRollover F)}
    (hp : p ∈ detectedAlong json d run) : p.1 ∈ eventsOf run := by
  induction run generalizing d with
  | nil => cases hp
  | cons poll run ih =>
    rcases List.mem_cons.mp hp with rfl | hp
    · exact List.mem_cons_self
    · exact List.mem_cons_of_mem _ (ih hp)

/-- One poll moves the anchor of a window as a register step. -/
theorem record_observedStarts {poll : RecordedPoll F} {account : AccountId} {w : WindowId}
    (haccount : poll.2.account = account) :
    (record json d poll).state.observedStarts.get (account, w) =
      Register.step (d.state.observedStarts.get (account, w))
        (anchorStep (account, w) (poll.2, detected d.state poll.2)) := by
  subst haccount
  simp only [record, recordEvent, nextStarts]
  rw [get_pruneAnchors, get_foldl_applyRollover]
  rfl

/-- The anchor of a window after a run. -/
theorem recordAll_observedStarts {account : AccountId} {w : WindowId}
    (haccount : ∀ e ∈ eventsOf run, e.account = account) :
    (recordAll json d run).state.observedStarts.get (account, w) =
      Register.run (d.state.observedStarts.get (account, w))
        (anchorSteps json (account, w) d run) := by
  induction run generalizing d with
  | nil => rfl
  | cons poll run ih =>
    have hpoll : poll.2.account = account := haccount _ List.mem_cons_self
    have hrest := ih (d := record json d poll) fun e he => haccount e (List.mem_cons_of_mem _ he)
    rw [anchorSteps, detectedAlong, List.map_cons, Register.run_cons,
      ← record_observedStarts hpoll]
    exact hrest

/-- A rollover says which poll revealed it. -/
theorem detected_origin {e : PollEvent F} {r : WindowRollover F} (hr : r ∈ detected d.state e) :
    r.account = e.account ∧ r.observedAt = e.ts := by
  obtain ⟨before, after, hdetected⟩ := detect_mem hr
  exact ⟨hdetected.account_eq, hdetected.observedAt_eq⟩

theorem exists_of_mem_detections {r : WindowRollover F} (hr : r ∈ detections json d run) :
    ∃ e ∈ eventsOf run, r.account = e.account ∧ r.observedAt = e.ts := by
  induction run generalizing d with
  | nil => cases hr
  | cons poll run ih =>
    rw [detections_cons] at hr
    rcases List.mem_append.mp hr with hr | hr
    · exact ⟨poll.2, List.mem_cons_self, detected_origin hr⟩
    · obtain ⟨e, he, hsaid⟩ := ih hr
      exact ⟨e, List.mem_cons_of_mem _ he, hsaid⟩

private theorem detections_sorted (h : (eventsOf run).Pairwise fun a b => a.ts < b.ts) :
    (detections json d run).Pairwise fun a b => a.observedAt ≤ b.observedAt := by
  induction run generalizing d with
  | nil => exact List.Pairwise.nil
  | cons poll run ih =>
    obtain ⟨hfirst, hrest⟩ := List.pairwise_cons.mp h
    rw [detections_cons, List.pairwise_append]
    refine ⟨?_, ih hrest, ?_⟩
    · apply List.pairwise_of_forall_mem_list
      intro r hr r' hr'
      rw [(detected_origin hr).2, (detected_origin hr').2]
    · intro r hr r' hr'
      obtain ⟨e, he, -, hobserved⟩ := exists_of_mem_detections hr'
      rw [(detected_origin hr).2, hobserved]
      exact le_of_lt (hfirst e he)

/-! ## What the run left in the database -/

theorem Persisted.storage_windowRollover (h : Persisted json d run) :
    (recordAll json d run).state.storage.windowRollover =
      d.state.storage.windowRollover ++ (detections json d run).map Storage.rolloverRow := by
  induction run using List.reverseRecOn with
  | nil => simp [recordAll, detections, detectedAlong]
  | append_singleton run poll ih =>
    rw [h.recorded.windowRollover_eq, ih h.init, detections_append, List.map_append]
    simp [detections, detectedAlong]

/-- A payload that was persisted carries no window twice. -/
theorem Persisted.windows_nodup (h : Persisted json d run) :
    ∀ e ∈ eventsOf run, (e.outcome.windows.map QuotaWindow.id).Nodup := by
  induction run using List.reverseRecOn with
  | nil =>
    intro e he
    cases he
  | append_singleton run poll ih =>
    intro e he
    rcases mem_eventsOf_append.mp he with he | he
    · exact ih h.init e he
    · rw [List.mem_singleton.mp he]
      exact h.recorded.windows_nodup

private theorem AccountRun.mem_of_latestSuccess (h : AccountRun json account d run)
    {e : PollEvent F} (he : (recordAll json d run).state.latestSuccess.get account.id = some e) :
    e ∈ eventsOf run := by
  rw [h.liveCaches.latestSuccess] at he
  exact List.mem_of_mem_filter (List.mem_of_getLast? he)

private theorem AccountRun.detected_of_mem (h : AccountRun json account d run)
    {r : WindowRollover F} (hr : r ∈ detections json d run) :
    ∃ last ∈ eventsOf run, ∃ e ∈ eventsOf run, ∃ before after,
      Detected account.id last.outcome.windows e.outcome.windows e.id (some last.ts) e.ts r
        before after := by
  induction run using List.reverseRecOn with
  | nil => cases hr
  | append_singleton run poll ih =>
    have hmem : ∀ e ∈ eventsOf run, e ∈ eventsOf (run ++ [poll]) :=
      fun e he => mem_eventsOf_append.mpr (.inl he)
    rw [detections_append] at hr
    rcases List.mem_append.mp hr with hr | hr
    · obtain ⟨last, hlast, e, he, hdetected⟩ := ih h.init hr
      exact ⟨last, hmem _ hlast, e, hmem _ he, hdetected⟩
    · rw [detections_cons, detections, detectedAlong, List.flatMap_nil, List.append_nil, detected,
        h.ofAccount _ mem_eventsOf_concat, h.init.liveCaches.latestSuccess] at hr
      obtain ⟨before, after, hdetected⟩ := detect_mem hr
      cases hlast : ((eventsOf run).filter (·.outcome.isSuccess)).getLast? with
      | none =>
        rw [hlast] at hdetected
        cases hdetected.before_mem
      | some last =>
        rw [hlast] at hdetected
        have hmem_last := h.init.mem_of_latestSuccess (h.init.liveCaches.latestSuccess.trans hlast)
        exact ⟨last, hmem _ hmem_last, poll.2, mem_eventsOf_concat, before, after, hdetected⟩

/-! ## Judging the stored rollovers again -/

end Daemon

/-- Two readings of a window on one scale and of one length. -/
structure QuotaWindow.SameShape {F : Type} (v w : QuotaWindow F) : Prop where
  unit : v.unit = w.unit
  limit : v.limit = w.limit
  span : v.span = w.span

instance {F : Type} [DecidableEq F] (v w : QuotaWindow F) : Decidable (v.SameShape w) :=
  decidable_of_iff (v.unit = w.unit ∧ v.limit = w.limit ∧ v.span = w.span)
    ⟨fun h => ⟨h.1, h.2.1, h.2.2⟩, fun h => ⟨h.unit, h.limit, h.span⟩⟩

/-- Each window keeps its unit, limit and span throughout. -/
def Steady {F : Type} (events : List (PollEvent F)) : Prop :=
  ∀ e ∈ events, ∀ e' ∈ events, ∀ v ∈ e.outcome.windows, ∀ w ∈ e'.outcome.windows,
    v.id = w.id → v.SameShape w

instance {F : Type} [DecidableEq F] (events : List (PollEvent F)) : Decidable (Steady events) :=
  inferInstanceAs (Decidable (∀ e ∈ events, ∀ e' ∈ events, ∀ v ∈ e.outcome.windows,
    ∀ w ∈ e'.outcome.windows, v.id = w.id → v.SameShape w))

namespace Daemon

variable {F : Type} [F64 F]

private theorem replaysAsAReset_of_collapsed {before after scale : QuotaWindow F}
    {r : WindowRollover F} (hr : unannounced r = true) (hprev : r.prevUsed = before.used)
    (hnew : r.newUsed = after.used) (hbefore : before.SameShape scale)
    (hafter : after.SameShape scale) (h : collapsed before after = true) :
    replaysAsAReset r scale = true := by
  have hutil_before : QuotaWindow.utilization { scale with used := r.prevUsed } =
      before.utilization := by
    simp only [QuotaWindow.utilization, hprev, hbefore.unit, hbefore.limit]
  have hutil_after : QuotaWindow.utilization { scale with used := r.newUsed } =
      after.utilization := by
    simp only [QuotaWindow.utilization, hnew, hafter.unit, hafter.limit]
  unfold replaysAsAReset
  simp only [hr, hutil_before, hutil_after]
  exact h

omit [F64 F] in
private theorem fromRollover_stored {r : WindowRollover F} (hobserved : WholeMillis r.observedAt)
    (hprev : ∀ ts ∈ r.prevObservedAt, WholeMillis ts) :
    ObservedStart.fromRollover r.stored = .fromRollover r := by
  unfold WholeMillis at hobserved
  cases hts : r.prevObservedAt with
  | none => simp [ObservedStart.fromRollover, WindowRollover.stored, hts, hobserved]
  | some ts =>
    have hwhole : millisToTs (tsToMillis ts) = ts := hprev ts hts
    simp [ObservedStart.fromRollover, WindowRollover.stored, hts, hobserved, hwhole]

/-- A run whose polls come one after the other, at instants the database holds, and whose windows
keep their shape. -/
structure SteadyRun (json : SerdeJson F) (account : Account) (d : Daemon F)
    (run : List (RecordedPoll F)) : Prop extends AccountRun json account d run where
  ordered : (eventsOf run).Pairwise fun a b => a.ts < b.ts
  wholeMillis : ∀ e ∈ eventsOf run, WholeMillis e.ts
  steady : Steady (eventsOf run)

variable {json : SerdeJson F} {account : Account} {d : Daemon F} {run : List (RecordedPoll F)}

private theorem SteadyRun.fromRollover_stored (h : SteadyRun json account d run)
    {r : WindowRollover F} (hr : r ∈ detections json d run) :
    ObservedStart.fromRollover r.stored = .fromRollover r := by
  obtain ⟨last, hlast, e, he, before, after, hdetected⟩ := h.toAccountRun.detected_of_mem hr
  apply Daemon.fromRollover_stored
  · rw [hdetected.observedAt_eq]
    exact h.wholeMillis e he
  · intro ts hts
    rw [hdetected.prevObservedAt_eq] at hts
    cases hts
    exact h.wholeMillis last hlast

/-- A stored rollover of the run reads as the reset it was detected as, on the scale of any
payload of the run. -/
theorem SteadyRun.replaysAsAReset_stored (h : SteadyRun json account d run) {e : PollEvent F}
    (he : e ∈ eventsOf run) {v : QuotaWindow F} (hv : v ∈ e.outcome.windows)
    {r : WindowRollover F} (hr : r ∈ detections json d run) (hid : r.window = v.id) :
    replaysAsAReset r.stored v = unannounced r := by
  obtain ⟨last, hlast, next, hnext, before, after, hdetected⟩ := h.toAccountRun.detected_of_mem hr
  have hunannounced : unannounced r.stored = unannounced r := rfl
  cases hkind : unannounced r with
  | true =>
    have hcollapsed : collapsed before after = true := by
      apply collapsed_of_classify
      rw [hdetected.kind_eq, of_decide_eq_true hkind]
    have hafter_id : after.id = v.id := by rw [← hdetected.window_eq, hid]
    have hafter := h.steady next hnext e he after hdetected.after_mem v hv hafter_id
    have hbefore := h.steady last hlast e he before hdetected.before_mem v hv
      (hdetected.before_id.trans hafter_id)
    exact replaysAsAReset_of_collapsed (hunannounced.trans hkind) hdetected.prevUsed_eq
      hdetected.newUsed_eq hbefore hafter hcollapsed
  | false =>
    unfold replaysAsAReset
    rw [hunannounced, hkind]
    rfl

private theorem replayAt_stored (h : SteadyRun json account d run) {e : PollEvent F}
    (he : e ∈ eventsOf run) {v : QuotaWindow F} (hv : v ∈ e.outcome.windows)
    {r : WindowRollover F} (hr : r ∈ detections json d run) :
    replayAt (windowsById e.outcome.windows) (account.id, v.id) r.stored =
      writeAt (account.id, v.id) r := by
  have hstored : (r.stored.account, r.stored.window) = (r.account, r.window) := rfl
  have hunannounced : unannounced r.stored = unannounced r := rfl
  unfold replayAt writeAt
  rw [hstored]
  by_cases hkey : (account.id, v.id) = (r.account, r.window)
  · have hid : r.window = v.id := (congrArg Prod.snd hkey).symm
    have hscale : (windowsById e.outcome.windows).get r.stored.window = some v := by
      change (windowsById e.outcome.windows).get r.window = some v
      rw [hid]
      exact windowsById_get_of_mem (h.persisted.windows_nodup e he) hv
    rw [if_pos hkey, if_pos hkey, hscale, Option.any_some, h.replaysAsAReset_stored he hv hr hid,
      h.fromRollover_stored hr, hunannounced]
    cases unannounced r <;> rfl
  · rw [if_neg hkey, if_neg hkey]

/-- The rollovers of a run come out of the database as they were detected. -/
theorem SteadyRun.rollovers_eq (h : SteadyRun json account d run) {now : DateTime}
    (hend : ∀ e ∈ eventsOf run, e.ts ≤ now)
    (hlookback : ∀ e ∈ eventsOf run, now - anchorLookback ≤ e.ts) :
    (recordAll json d run).state.storage.rollovers account.id none (now - anchorLookback) now =
      .ok ((detections json d run).map (·.stored)) := by
  have haccount : ∀ r ∈ detections json d run, r.account = account.id := by
    intro r hr
    obtain ⟨e, he, haccount, -⟩ := exists_of_mem_detections hr
    rw [haccount, h.ofAccount e he]
  apply Storage.rollovers_eq
  · have hold : d.state.storage.windowRollover.filter (·.accountId == account.id) = [] := by
      rw [List.filter_eq_nil_iff]
      intro row hrow
      simpa using h.unstored.windowRollover row hrow
    have hnew : ((detections json d run).map Storage.rolloverRow).filter
        (·.accountId == account.id) = (detections json d run).map Storage.rolloverRow := by
      rw [List.filter_eq_self]
      intro row hrow
      obtain ⟨r, hr, rfl⟩ := List.mem_map.mp hrow
      simpa [Storage.rolloverRow] using haccount r hr
    rw [h.persisted.storage_windowRollover, List.filter_append, hold, hnew, List.nil_append]
  · exact haccount
  · exact detections_sorted h.ordered
  · intro r hr
    obtain ⟨e, he, -, hobserved⟩ := exists_of_mem_detections hr
    rw [hobserved]
    exact hlookback e he
  · intro r hr
    obtain ⟨e, he, -, hobserved⟩ := exists_of_mem_detections hr
    rw [hobserved]
    exact hend e he

private theorem hydrated_anchor (h : SteadyRun json account d run) {now : DateTime}
    (hend : ∀ e ∈ eventsOf run, e.ts ≤ now)
    (hlookback : ∀ e ∈ eventsOf run, now - anchorLookback ≤ e.ts) {e : PollEvent F}
    (he : (recordAll json d run).state.latestSuccess.get account.id = some e)
    {v : QuotaWindow F} (hv : v ∈ e.outcome.windows) {fresh : Daemon F}
    (hfresh : Unseen fresh account)
    (hstorage : fresh.state.storage = (recordAll json d run).state.storage) :
    (fresh.hydrateAccount json account now).state.observedStarts.get (account.id, v.id) =
      (replay none ((detections json d run).map (writeAt (account.id, v.id)))).filter
        (keepsAt e.outcome.windows now v.id) := by
  have hlast := h.toAccountRun.liveCaches.latestSuccess.symm.trans he
  have hmem := h.toAccountRun.mem_of_latestSuccess he
  have hrows := h.toAccountRun.rows
  rw [← hstorage] at hrows
  obtain ⟨-, hsuccess, -⟩ := hydrated_caches hfresh hrows now
  rw [hlast, Option.map_some] at hsuccess
  have hfound := h.rollovers_eq hend hlookback
  rw [← hstorage] at hfound
  have hreplayed : ((detections json d run).map (·.stored)).map
      (replayAt (windowsById e.outcome.windows) (account.id, v.id)) =
      (detections json d run).map (writeAt (account.id, v.id)) := by
    rw [List.map_map]
    exact List.map_congr_left fun r hr => replayAt_stored h hmem hv hr
  have hstarts : (fresh.hydrateAccount json account now).state.observedStarts =
      pruneAnchors (((detections json d run).map (·.stored)).foldl
        (replayRollover (windowsById e.outcome.windows)) fresh.state.observedStarts) account.id
        (lastById e.outcome.windows) now := by
    change restoreStarts { fresh.state with
      latestPoll := (fresh.hydrateAccount json account now).state.latestPoll
      latestSuccess := (fresh.hydrateAccount json account now).state.latestSuccess } account now = _
    simp only [restoreStarts, hsuccess, hfound]
    rfl
  rw [hstarts, get_pruneAnchors, get_foldl_replayRollover, hfresh.starts, hreplayed,
    lastById_of_nodup (h.persisted.windows_nodup e hmem)]

private theorem anchorSteps_keep_of_later (h : SteadyRun json account d run) {now : DateTime}
    (hend : ∀ e ∈ eventsOf run, e.ts ≤ now) {e : PollEvent F} (he : e ∈ eventsOf run)
    {v : QuotaWindow F} (hv : v ∈ e.outcome.windows)
    (hspan : v.span = some 0 → 0 < longestSpan e.outcome.windows) :
    ∀ s ∈ anchorSteps json (account.id, v.id) d run, ∀ start,
      keepsAt e.outcome.windows now v.id start = true → s.keep start = true := by
  intro s hs start hkeep
  obtain ⟨p, hp, rfl⟩ := List.mem_map.mp hs
  have hearlier := fst_mem_eventsOf hp
  apply keepsAt_of_later hv (h.persisted.windows_nodup e he) _ hspan (hend p.1 hearlier) hkeep
  intro u hu hid
  exact (h.steady p.1 hearlier e he u hu v hv hid).span

/-- A restart gives every window of the last payload the anchor the live daemon has once it has
dropped the expired ones, unless the payload has no window of a positive length. -/
theorem restart_anchor_eq (h : SteadyRun json account d run) {now : DateTime}
    (hend : ∀ e ∈ eventsOf run, e.ts ≤ now)
    (hlookback : ∀ e ∈ eventsOf run, now - anchorLookback ≤ e.ts) (path : String)
    (known : List ProviderId) (start : DateTime) {e : PollEvent F}
    (he : (recordAll json d run).state.latestSuccess.get account.id = some e)
    {v : QuotaWindow F} (hv : v ∈ e.outcome.windows)
    (hspan : v.span = some 0 → 0 < longestSpan e.outcome.windows) :
    ((new (recordAll json d run).state.storage path known start).hydrateAccount json account
        now).state.observedStarts.get (account.id, v.id) =
      (pruneAnchors (recordAll json d run).state.observedStarts account.id e.outcome.windows
        now).get (account.id, v.id) := by
  have hmem := h.toAccountRun.mem_of_latestSuccess he
  rw [get_pruneAnchors, recordAll_observedStarts h.ofAccount, h.unseen.starts,
    Register.filter_run none (anchorSteps_keep_of_later h hend hmem hv hspan),
    anchorSteps_writes]
  exact hydrated_anchor h hend hlookback he hv (unseen_new _ _ _ _ _) rfl

/-! ## A silent reset and a restart -/

-- The runs below are on rationals, whose operations are irreducible.
attribute [local semireducible] Rat.add Rat.mul Rat.inv Rat.sub Rat.ofScientific

/-- A percent window of this length, in seconds, that never announces a reset. -/
def silentWindow (id : String) (length : Nat) (used : ℚ) : QuotaWindow ℚ where
  id := ⟨id⟩
  label := id
  scope := .accountWide
  resetKind := .rolling (length * 1000000000)
  unit := .percent
  used
  limit := none
  resetAt := none

/-- The `n`-th poll of the account, `n` minutes in. -/
def minutePoll (n : Nat) (outcome : PollOutcome ℚ) : RecordedPoll ℚ :=
  (Storage.noFaults, {
    id := Fin.ofNat (2 ^ 128) (n + 1), ts := millisToTs (60000 * n), provider := "claude"
    account := ⟨"claude:a"⟩, trigger := .scheduled, outcome, latencyMs := 0 })

/-- The codec on the outcomes of a run, each under a text of its own. -/
def runJson (texts : List String) (run : List (RecordedPoll ℚ)) : SerdeJson ℚ :=
  .table [("\"Scheduled\"", .scheduled)] (texts.zip (run.map fun poll => poll.2.outcome))

/-- The weekly window resets in the second minute, and the third poll fails. -/
def silentReset : List (RecordedPoll ℚ) := [
  minutePoll 0 (.success [silentWindow "5h" 18000 10, silentWindow "7d" 604800 90]),
  minutePoll 1 (.success [silentWindow "5h" 18000 11, silentWindow "7d" 604800 2]),
  minutePoll 2 (.networkError "timeout")]

def silentResetJson : SerdeJson ℚ := runJson ["first", "second", "third"] silentReset

theorem steadyRun_silentReset :
    SteadyRun silentResetJson claudeAccount claudeDaemon silentReset where
  unseen := unseen_new _ _ _ _ _
  unstored := ⟨by decide, by decide⟩
  ofAccount := by decide
  ofProvider := by decide
  ids := by decide
  roundTrips := by decide
  persisted := by decide
  ordered := by decide
  wholeMillis := by decide
  steady := by decide

theorem restart_anchor_eq_silentReset :
    ((new (recordAll silentResetJson claudeDaemon silentReset).state.storage "config.toml"
        ["claude"] 0).hydrateAccount silentResetJson claudeAccount
        (millisToTs 180000)).state.observedStarts.get (claudeAccount.id, ⟨"7d"⟩) =
      (pruneAnchors (recordAll silentResetJson claudeDaemon silentReset).state.observedStarts
        claudeAccount.id [silentWindow "5h" 18000 11, silentWindow "7d" 604800 2]
        (millisToTs 180000)).get (claudeAccount.id, ⟨"7d"⟩) := by
  have he : (recordAll silentResetJson claudeDaemon silentReset).state.latestSuccess.get
      claudeAccount.id = some (minutePoll 1
        (.success [silentWindow "5h" 18000 11, silentWindow "7d" 604800 2])).2 := by
    decide
  have hv : silentWindow "7d" 604800 2 ∈ (minutePoll 1
      (.success [silentWindow "5h" 18000 11, silentWindow "7d" 604800 2])).2.outcome.windows := by
    decide
  exact restart_anchor_eq steadyRun_silentReset (by decide) (by decide)
    "config.toml" ["claude"] 0 he hv (by decide)

/-- A window of length zero resets next to a longer one, which the last payload leaves out. -/
def zeroLengthReset : List (RecordedPoll ℚ) := [
  minutePoll 0 (.success [silentWindow "burst" 0 90, silentWindow "5h" 18000 10]),
  minutePoll 1 (.success [silentWindow "burst" 0 2, silentWindow "5h" 18000 11]),
  minutePoll 2 (.success [silentWindow "burst" 0 2])]

def zeroLengthJson : SerdeJson ℚ := runJson ["first", "second", "third"] zeroLengthReset

/-- The second poll drops the anchor at once. The restart replays it, and its one test does not
look at a payload without a window of positive length. -/
theorem restart_revives_zero_length_anchor :
    SteadyRun zeroLengthJson claudeAccount claudeDaemon zeroLengthReset ∧
      (∀ e ∈ eventsOf zeroLengthReset, e.ts ≤ millisToTs 120000) ∧
      (∀ e ∈ eventsOf zeroLengthReset, millisToTs 120000 - anchorLookback ≤ e.ts) ∧
      ((recordAll zeroLengthJson claudeDaemon zeroLengthReset).state.latestSuccess.get
        claudeAccount.id).map (·.outcome) = some (.success [silentWindow "burst" 0 2]) ∧
      (pruneAnchors (recordAll zeroLengthJson claudeDaemon zeroLengthReset).state.observedStarts
        claudeAccount.id [silentWindow "burst" 0 2] (millisToTs 120000)).get
        (claudeAccount.id, ⟨"burst"⟩) = none ∧
      ((new (recordAll zeroLengthJson claudeDaemon zeroLengthReset).state.storage "config.toml"
        ["claude"] 0).hydrateAccount zeroLengthJson claudeAccount
        (millisToTs 120000)).state.observedStarts.get (claudeAccount.id, ⟨"burst"⟩) =
        some { notBefore := 0, notAfter := millisToTs 60000 } := by
  refine ⟨?_, by decide, by decide, by decide, by decide,
    by decide +kernel⟩
  exact {
    unseen := unseen_new _ _ _ _ _
    unstored := ⟨by decide, by decide⟩
    ofAccount := by decide
    ofProvider := by decide
    ids := by decide
    roundTrips := by decide
    persisted := by decide
    ordered := by decide
    wholeMillis := by decide
    steady := by decide }

end Daemon
end Teiryo
