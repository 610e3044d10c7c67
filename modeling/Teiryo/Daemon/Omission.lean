import Teiryo.Daemon.Anchors
import Teiryo.Daemon.Scheduler

/-!
# Payloads that leave a window out

A payload without a window says nothing about that window's anchor, but it becomes the baseline of
the next poll and, if it is the last one, the scale of a restart.
-/

namespace Teiryo
namespace Daemon

variable {F : Type} [F64 F]

/-- The rollovers of one window. -/
def rolloversOf (w : WindowId) (rs : List (WindowRollover F)) : List (WindowRollover F) :=
  rs.filter (·.window == w)

/-- The stored rollovers of one window of an account. -/
def rolloverRowsOf (storage : Storage F) (account : AccountId) (w : WindowId) :
    List (WindowRolloverRow F) :=
  storage.windowRollover.filter fun row => row.accountId == account && row.windowId == w

/-- The window is not in the last successful payload. -/
def Omits (d : Daemon F) (account : AccountId) (w : WindowId) : Prop :=
  ∀ v ∈ previousWindows (d.state.latestSuccess.get account), v.id ≠ w

variable {json : SerdeJson F} {account : AccountId} {w : WindowId} {d d' : Daemon F}

omit [F64 F] in
private theorem rolloversOf_append (w : WindowId) (rs ss : List (WindowRollover F)) :
    rolloversOf w (rs ++ ss) = rolloversOf w rs ++ rolloversOf w ss :=
  List.filter_append rs ss

omit [F64 F] in
private theorem rolloversOf_eq_nil {rs : List (WindowRollover F)} (h : ∀ r ∈ rs, r.window ≠ w) :
    rolloversOf w rs = [] := by
  rw [rolloversOf, List.filter_eq_nil_iff]
  intro r hr
  simpa using h r hr

private theorem record_latestSuccess {poll : RecordedPoll F} (haccount : poll.2.account = account)
    (hsuccess : poll.2.outcome.isSuccess) :
    (record json d poll).state.latestSuccess.get account = some poll.2 := by
  have hmsg := poll.2.outcome.errorMessage_eq_none_iff.mpr hsuccess
  simp [record, recordEvent, hmsg, haccount]

private theorem detected_congr {e : PollEvent F} (haccount : e.account = account)
    (h : d.state.latestSuccess.get account = d'.state.latestSuccess.get account) :
    detected d.state e = detected d'.state e := by
  simp only [detected, haccount, h]

private theorem window_ne_of_mem_detected {e : PollEvent F} (haccount : e.account = account)
    (h : Omits d account w ∨ ∀ v ∈ e.outcome.windows, v.id ≠ w) :
    ∀ r ∈ detected d.state e, r.window ≠ w := by
  intro r hr
  rw [detected, haccount] at hr
  obtain ⟨before, after, hdetected⟩ := detect_mem hr
  rw [hdetected.window_eq]
  rcases h with h | h
  · rw [← hdetected.before_id]
    exact h before hdetected.before_mem
  · exact h after hdetected.after_mem

private theorem detectedAlong_congr {run : List (RecordedPoll F)}
    (hsuccess : ∀ e ∈ eventsOf run, e.outcome.isSuccess)
    (haccount : ∀ e ∈ eventsOf run, e.account = account)
    (h : d.state.latestSuccess.get account = d'.state.latestSuccess.get account) :
    detectedAlong json d run = detectedAlong json d' run := by
  induction run generalizing d d' with
  | nil => rfl
  | cons poll run ih =>
    have hpoll := haccount poll.2 List.mem_cons_self
    have hok := hsuccess poll.2 List.mem_cons_self
    have hnext : (record json d poll).state.latestSuccess.get account =
        (record json d' poll).state.latestSuccess.get account := by
      rw [record_latestSuccess hpoll hok, record_latestSuccess hpoll hok]
    rw [detectedAlong, detectedAlong, detected_congr hpoll h,
      ih (fun e he => hsuccess e (List.mem_cons_of_mem _ he))
        (fun e he => haccount e (List.mem_cons_of_mem _ he)) hnext]

/-- The rollovers of the window that the first poll of `post` reveals after `pre`. -/
def revealedNext (json : SerdeJson F) (d : Daemon F) (w : WindowId)
    (pre post : List (RecordedPoll F)) : List (WindowRollover F) :=
  match post with
  | [] => []
  | next :: _ => rolloversOf w (detected (recordAll json d pre).state next.2)

/-- The rollovers of the window that the later polls of `post` reveal. -/
def revealedLater (json : SerdeJson F) (d : Daemon F) (w : WindowId)
    (pre post : List (RecordedPoll F)) : List (WindowRollover F) :=
  match post with
  | [] => []
  | next :: rest => rolloversOf w (detections json (recordAll json d (pre ++ [next])) rest)

omit [F64 F] in
private theorem writes_keep {rs : List (WindowRollover F)} (h : ∀ r ∈ rs, r.window ≠ w) :
    ∀ write ∈ rs.map (writeAt (account, w)), write = .keep := by
  intro write hwrite
  obtain ⟨r, hr, rfl⟩ := List.mem_map.mp hwrite
  have hkey : (account, w) ≠ (r.account, r.window) := by
    intro heq
    exact h r hr (congrArg Prod.snd heq).symm
  exact if_neg hkey

omit [F64 F] in
private theorem step_anchorStep_eq_self {p : PollEvent F × List (WindowRollover F)}
    (hrollovers : ∀ r ∈ p.2, r.window ≠ w) (hwindows : ∀ v ∈ p.1.outcome.windows, v.id ≠ w)
    (start : Option ObservedStart) :
    Register.step start (anchorStep (account, w) p) = start := by
  apply Register.step_eq_self
  · exact writes_keep hrollovers
  · intro start
    have hget : (Dict.collect (spansOf p.1.outcome.windows)).get w = none := by
      cases hget : (Dict.collect (spansOf p.1.outcome.windows)).get w with
      | none => rfl
      | some span =>
        obtain ⟨v, hv, hid, -⟩ := mem_of_get_spansOf hget
        exact absurd hid (hwindows v hv)
    simp [anchorStep, keepsAt, hget]

omit [F64 F] in
/-- A payload moves the anchor alike whatever it was compared with, as long as it reveals no
rollover of the window. -/
theorem step_anchorStep_congr {e : PollEvent F} {rs ss : List (WindowRollover F)}
    (hrs : ∀ r ∈ rs, r.window ≠ w) (hss : ∀ r ∈ ss, r.window ≠ w)
    (start : Option ObservedStart) :
    Register.step start (anchorStep (account, w) (e, rs)) =
      Register.step start (anchorStep (account, w) (e, ss)) := by
  simp only [Register.step, anchorStep]
  rw [Register.replay_of_keep (writes_keep hrs), Register.replay_of_keep (writes_keep hss)]

private theorem run_anchorSteps_congr {run : List (RecordedPoll F)}
    (haccount : ∀ e ∈ eventsOf run, e.account = account)
    (hrevealed : rolloversOf w (detections json d run) ≠ []) (start start' : Option ObservedStart) :
    Register.run start (anchorSteps json (account, w) d run) =
      Register.run start' (anchorSteps json (account, w) d run) := by
  apply Register.run_eq_of_written
  obtain ⟨r, hr⟩ := List.exists_mem_of_ne_nil _ hrevealed
  obtain ⟨hmem, hwindow⟩ := List.mem_filter.mp hr
  obtain ⟨e, he, hraccount, -⟩ := exists_of_mem_detections hmem
  have hkey : (account, w) = (r.account, r.window) := by
    rw [hraccount, haccount e he, eq_of_beq hwindow]
  have hwritten : writeAt (account, w) r ≠ .keep := by
    rw [writeAt, if_pos hkey]
    cases unannounced r <;> simp
  have hlog : writeAt (account, w) r ∈
      (anchorSteps json (account, w) d run).flatMap (·.writes) := by
    rw [anchorSteps_writes]
    exact List.mem_map_of_mem hmem
  obtain ⟨s, hs, hwrite⟩ := List.mem_flatMap.mp hlog
  exact ⟨s, hs, _, hwrite, hwritten⟩

section Insertion

variable {pre post : List (RecordedPoll F)} {x : RecordedPoll F}

private theorem rolloversOf_without (json : SerdeJson F) (d : Daemon F) (w : WindowId)
    (pre post : List (RecordedPoll F)) :
    rolloversOf w (detections json d (pre ++ post)) =
      rolloversOf w (detections json d pre) ++ revealedNext json d w pre post ++
        revealedLater json d w pre post := by
  rw [detections_append, rolloversOf_append, List.append_assoc]
  congr 1
  cases post with
  | nil => rfl
  | cons next rest =>
    rw [detections_cons, rolloversOf_append, revealedNext, revealedLater, recordAll_concat]

private theorem omits_record (haccount : x.2.account = account) (hsuccess : x.2.outcome.isSuccess)
    (hx : ∀ v ∈ x.2.outcome.windows, v.id ≠ w) : Omits (record json d x) account w := by
  rw [Omits, record_latestSuccess haccount hsuccess]
  exact hx

private theorem detectedAlong_after {next : RecordedPoll F} {rest : List (RecordedPoll F)}
    (hsuccess : ∀ e ∈ eventsOf (x :: next :: rest), e.outcome.isSuccess)
    (haccount : ∀ e ∈ eventsOf (x :: next :: rest), e.account = account) :
    detectedAlong json (record json (record json d x) next) rest =
      detectedAlong json (record json d next) rest := by
  have hnext : next.2 ∈ eventsOf (x :: next :: rest) :=
    List.mem_cons_of_mem _ List.mem_cons_self
  have hrest : ∀ e ∈ eventsOf rest, e ∈ eventsOf (x :: next :: rest) :=
    fun e he => List.mem_cons_of_mem _ (List.mem_cons_of_mem _ he)
  apply detectedAlong_congr (fun e he => hsuccess e (hrest e he))
    (fun e he => haccount e (hrest e he))
  rw [record_latestSuccess (haccount _ hnext) (hsuccess _ hnext),
    record_latestSuccess (haccount _ hnext) (hsuccess _ hnext)]

private theorem rolloversOf_within (hsuccess : ∀ e ∈ eventsOf (x :: post), e.outcome.isSuccess)
    (haccount : ∀ e ∈ eventsOf (x :: post), e.account = account)
    (hx : ∀ v ∈ x.2.outcome.windows, v.id ≠ w) :
    rolloversOf w (detections json d (pre ++ x :: post)) =
      rolloversOf w (detections json d pre) ++ revealedLater json d w pre post := by
  have hxaccount := haccount x.2 List.mem_cons_self
  have hxsuccess := hsuccess x.2 List.mem_cons_self
  have hsilent : rolloversOf w (detected (recordAll json d pre).state x.2) = [] :=
    rolloversOf_eq_nil (window_ne_of_mem_detected hxaccount (.inr hx))
  rw [detections_append, rolloversOf_append, detections_cons, rolloversOf_append, hsilent,
    List.nil_append]
  congr 1
  cases post with
  | nil => rfl
  | cons next rest =>
    have hnext : next.2.account = account :=
      haccount next.2 (List.mem_cons_of_mem _ List.mem_cons_self)
    have hmissed : rolloversOf w
        (detected (record json (recordAll json d pre) x).state next.2) = [] :=
      rolloversOf_eq_nil (window_ne_of_mem_detected hnext
        (.inl (omits_record hxaccount hxsuccess hx)))
    rw [detections_cons, rolloversOf_append, hmissed, List.nil_append, revealedLater,
      recordAll_concat, detections, detectedAlong_after hsuccess haccount]
    rfl

private theorem observedStarts_within (hsuccess : ∀ e ∈ eventsOf (x :: post), e.outcome.isSuccess)
    (haccount : ∀ e ∈ eventsOf (x :: post), e.account = account)
    (hx : ∀ v ∈ x.2.outcome.windows, v.id ≠ w)
    (hrevealed : revealedNext json d w pre post = [] ∨ revealedLater json d w pre post ≠ []) :
    (recordAll json d (pre ++ x :: post)).state.observedStarts.get (account, w) =
      (recordAll json d (pre ++ post)).state.observedStarts.get (account, w) := by
  have hxaccount := haccount x.2 List.mem_cons_self
  have hxsuccess := hsuccess x.2 List.mem_cons_self
  have hpost : ∀ e ∈ eventsOf post, e.account = account :=
    fun e he => haccount e (List.mem_cons_of_mem _ he)
  have hwithin : recordAll json d (pre ++ x :: post) =
      recordAll json (record json (recordAll json d pre) x) post := by
    simp only [recordAll, List.foldl_append, List.foldl_cons]
  have hwithout : recordAll json d (pre ++ post) = recordAll json (recordAll json d pre) post := by
    simp only [recordAll, List.foldl_append]
  have hsame : (record json (recordAll json d pre) x).state.observedStarts.get (account, w) =
      (recordAll json d pre).state.observedStarts.get (account, w) := by
    rw [record_observedStarts hxaccount]
    exact step_anchorStep_eq_self (window_ne_of_mem_detected hxaccount (.inr hx)) hx _
  rw [hwithin, hwithout, recordAll_observedStarts hpost, recordAll_observedStarts hpost, hsame]
  cases post with
  | nil => rfl
  | cons next rest =>
    have hnext : next.2.account = account := hpost next.2 List.mem_cons_self
    have homits : Omits (record json (recordAll json d pre) x) account w :=
      omits_record hxaccount hxsuccess hx
    have hmissed : ∀ r ∈ detected (record json (recordAll json d pre) x).state next.2,
        r.window ≠ w := window_ne_of_mem_detected hnext (.inl homits)
    simp only [anchorSteps, detectedAlong, List.map_cons, Register.run_cons]
    rw [detectedAlong_after hsuccess haccount]
    rcases hrevealed with hnone | hlater
    · have hsilent : ∀ r ∈ detected (recordAll json d pre).state next.2, r.window ≠ w := by
        intro r hr hwindow
        have hmem : r ∈ revealedNext json d w pre (next :: rest) :=
          List.mem_filter.mpr ⟨hr, beq_iff_eq.mpr hwindow⟩
        rw [hnone] at hmem
        cases hmem
      rw [step_anchorStep_congr hmissed hsilent]
    · rw [revealedLater, recordAll_concat] at hlater
      exact run_anchorSteps_congr (fun e he => hpost e (List.mem_cons_of_mem _ he)) hlater _ _

omit [F64 F] in
private theorem rolloverRowsOf_append {storage : Storage F} {old : List (WindowRolloverRow F)}
    {rs : List (WindowRollover F)}
    (hrows : storage.windowRollover = old ++ rs.map Storage.rolloverRow)
    (haccount : ∀ r ∈ rs, r.account = account) :
    rolloverRowsOf storage account w =
      old.filter (fun row => row.accountId == account && row.windowId == w) ++
        (rolloversOf w rs).map Storage.rolloverRow := by
  have hnew : (rs.map Storage.rolloverRow).filter
      (fun row => row.accountId == account && row.windowId == w) =
      (rolloversOf w rs).map Storage.rolloverRow := by
    rw [List.filter_map, rolloversOf]
    congr 1
    apply List.filter_congr
    intro r hr
    simp [Storage.rolloverRow, haccount r hr]
  rw [rolloverRowsOf, hrows, List.filter_append, hnew]

private theorem rolloverRowsOf_recordAll {run : List (RecordedPoll F)}
    (haccount : ∀ e ∈ eventsOf run, e.account = account) (h : Persisted json d run) :
    rolloverRowsOf (recordAll json d run).state.storage account w =
      rolloverRowsOf d.state.storage account w ++
        (rolloversOf w (detections json d run)).map Storage.rolloverRow := by
  apply rolloverRowsOf_append h.storage_windowRollover
  intro r hr
  obtain ⟨e, he, hraccount, -⟩ := exists_of_mem_detections hr
  rw [hraccount, haccount e he]

/-- A poll that leaves the window out costs the rollovers of the window that the next poll would
have revealed, and no others. The anchor is the same unless such a rollover was the last one. -/
theorem silent_poll_rollovers (json : SerdeJson F) (d : Daemon F)
    (hsuccess : ∀ e ∈ eventsOf (pre ++ x :: post), e.outcome.isSuccess)
    (haccount : ∀ e ∈ eventsOf (pre ++ x :: post), e.account = account)
    (hx : ∀ v ∈ x.2.outcome.windows, v.id ≠ w) :
    (rolloversOf w (detections json d (pre ++ post)) =
        rolloversOf w (detections json d pre) ++ revealedNext json d w pre post ++
          revealedLater json d w pre post ∧
      rolloversOf w (detections json d (pre ++ x :: post)) =
        rolloversOf w (detections json d pre) ++ revealedLater json d w pre post) ∧
    (Persisted json d (pre ++ post) → Persisted json d (pre ++ x :: post) →
      rolloverRowsOf (recordAll json d (pre ++ post)).state.storage account w =
          rolloverRowsOf d.state.storage account w ++
            (rolloversOf w (detections json d pre) ++ revealedNext json d w pre post ++
              revealedLater json d w pre post).map Storage.rolloverRow ∧
        rolloverRowsOf (recordAll json d (pre ++ x :: post)).state.storage account w =
          rolloverRowsOf d.state.storage account w ++
            (rolloversOf w (detections json d pre) ++
              revealedLater json d w pre post).map Storage.rolloverRow) ∧
    (revealedNext json d w pre post = [] ∨ revealedLater json d w pre post ≠ [] →
      (recordAll json d (pre ++ x :: post)).state.observedStarts.get (account, w) =
        (recordAll json d (pre ++ post)).state.observedStarts.get (account, w)) := by
  have htail : ∀ e ∈ eventsOf (x :: post), e ∈ eventsOf (pre ++ x :: post) :=
    fun e he => mem_eventsOf_append.mpr (.inr he)
  have hshort : ∀ e ∈ eventsOf (pre ++ post), e ∈ eventsOf (pre ++ x :: post) := by
    intro e he
    rcases mem_eventsOf_append.mp he with he | he
    · exact mem_eventsOf_append.mpr (.inl he)
    · exact htail e (List.mem_cons_of_mem _ he)
  have hwithout := rolloversOf_without json d w pre post
  have hwithin : rolloversOf w (detections json d (pre ++ x :: post)) =
      rolloversOf w (detections json d pre) ++ revealedLater json d w pre post :=
    rolloversOf_within (fun e he => hsuccess e (htail e he))
      (fun e he => haccount e (htail e he)) hx
  refine ⟨⟨hwithout, hwithin⟩, ?_, ?_⟩
  · intro hpersisted hpersisted'
    rw [rolloverRowsOf_recordAll (fun e he => haccount e (hshort e he)) hpersisted,
      rolloverRowsOf_recordAll haccount hpersisted', hwithout, hwithin]
    exact ⟨rfl, rfl⟩
  · intro hrevealed
    exact observedStarts_within (fun e he => hsuccess e (htail e he))
      (fun e he => haccount e (htail e he)) hx hrevealed

end Insertion

/-- The weekly window falls from 90 to 2 percent between the first minute and the third. -/
def weeklyBefore : RecordedPoll ℚ := minutePoll 0 (.success [silentWindow "7d" 604800 90])

def weeklyAfter : RecordedPoll ℚ := minutePoll 2 (.success [silentWindow "7d" 604800 2])

/-- A payload between the two that has only the short window. -/
def sessionOnly : RecordedPoll ℚ := minutePoll 1 (.success [silentWindow "5h" 18000 10])

def weeklyJson : SerdeJson ℚ :=
  runJson ["first", "second", "third"] [weeklyBefore, sessionOnly, weeklyAfter]

theorem silent_poll_rollovers_weekly :
    rolloversOf ⟨"7d"⟩ (detections weeklyJson claudeDaemon
        ([weeklyBefore] ++ sessionOnly :: [weeklyAfter])) =
      rolloversOf ⟨"7d"⟩ (detections weeklyJson claudeDaemon [weeklyBefore]) ++
        revealedLater weeklyJson claudeDaemon ⟨"7d"⟩ [weeklyBefore] [weeklyAfter] :=
  (silent_poll_rollovers weeklyJson claudeDaemon (by decide)
    (by decide : ∀ e ∈ eventsOf ([weeklyBefore] ++ sessionOnly :: [weeklyAfter]),
      e.account = claudeAccount.id) (by decide)).1.2

-- The runs below are on rationals, whose operations are irreducible.
attribute [local semireducible] Rat.add Rat.mul Rat.inv Rat.sub Rat.ofScientific

/-- With the poll in between, the reset of the weekly window is neither recorded nor anchored. -/
theorem silent_poll_hides_reset :
    Persisted weeklyJson claudeDaemon [weeklyBefore, weeklyAfter] ∧
      Persisted weeklyJson claudeDaemon [weeklyBefore, sessionOnly, weeklyAfter] ∧
      (∀ v ∈ sessionOnly.2.outcome.windows, v.id ≠ ⟨"7d"⟩) ∧
      (rolloverRowsOf (recordAll weeklyJson claudeDaemon
        [weeklyBefore, weeklyAfter]).state.storage claudeAccount.id ⟨"7d"⟩).map (·.kind) =
        ["unannounced"] ∧
      rolloverRowsOf (recordAll weeklyJson claudeDaemon
        [weeklyBefore, sessionOnly, weeklyAfter]).state.storage claudeAccount.id ⟨"7d"⟩ = [] ∧
      (recordAll weeklyJson claudeDaemon [weeklyBefore, weeklyAfter]).state.observedStarts.get
        (claudeAccount.id, ⟨"7d"⟩) = some { notBefore := 0, notAfter := millisToTs 120000 } ∧
      (recordAll weeklyJson claudeDaemon
        [weeklyBefore, sessionOnly, weeklyAfter]).state.observedStarts.get
        (claudeAccount.id, ⟨"7d"⟩) = none := by
  decide

/-- The start `Status` shows for a window, if it shows the window. -/
def servedStart (d : Daemon F) (account : AccountId) (w : WindowId) :
    Option (Option ObservedStart) :=
  (((d.status none (some account)).flatMap (·.windows)).find? (·.window.id == w)).map
    (·.observedStart)

omit [F64 F] in
theorem servedStart_eq (hlisted : ∃ a ∈ d.state.accounts, a.id = account)
    (hreported : ∃ v ∈ previousWindows (d.state.latestSuccess.get account), v.id = w) :
    servedStart d account w = some (d.state.observedStarts.get (account, w)) := by
  have hview : ∀ view ∈ (d.status none (some account)).flatMap (·.windows),
      view.window.id = w → view.observedStart = d.state.observedStarts.get (account, w) := by
    intro view hview hid
    obtain ⟨shown, hshown, hview⟩ := List.mem_flatMap.mp hview
    obtain ⟨a, ha, rfl⟩ := List.mem_map.mp hshown
    obtain ⟨v, -, rfl⟩ := List.mem_map.mp hview
    have hselected : account = a.id := by simpa using (List.mem_filter.mp ha).2
    rw [hselected, ← hid]
  have hshown : ((d.status none (some account)).flatMap (·.windows)).find?
      (·.window.id == w) ≠ none := by
    obtain ⟨a, ha, rfl⟩ := hlisted
    obtain ⟨v, hv, rfl⟩ := hreported
    intro hnone
    rw [List.find?_eq_none] at hnone
    refine hnone _ (List.mem_flatMap.mpr ⟨_, List.mem_map.mpr ⟨a, ?_, rfl⟩,
      List.mem_map.mpr ⟨v, hv, rfl⟩⟩) (beq_self_eq_true v.id)
    exact List.mem_filter.mpr ⟨ha, by simp⟩
  obtain ⟨view, hfound⟩ := Option.ne_none_iff_exists'.mp hshown
  have hid : view.window.id = w := by simpa using List.find?_some hfound
  rw [servedStart, hfound, Option.map_some, hview view (List.mem_of_find?_eq_some hfound) hid]

/-- The daemon after a restart on the same database, with the account in service again. -/
def restart (json : SerdeJson F) (live : Daemon F) (account : Account)
    (presenter : QuotaWindow F → RenderHint ℚ) (path : String) (known : List ProviderId)
    (upsertFault : Option String) (start now : DateTime) : Daemon F :=
  ((new live.state.storage path known start).startAccount json account presenter upsertFault now).1

private theorem hydrated_none {fresh : Daemon F} {account : Account} {now : DateTime}
    (hfresh : Unseen fresh account)
    (homits : Omits (fresh.hydrateAccount json account now) account.id w) :
    (fresh.hydrateAccount json account now).state.observedStarts.get (account.id, w) = none := by
  change (restoreStarts { fresh.state with
    latestPoll := (fresh.hydrateAccount json account now).state.latestPoll
    latestSuccess := (fresh.hydrateAccount json account now).state.latestSuccess } account now).get
    (account.id, w) = none
  have hscale : (windowsById (previousWindows ((fresh.hydrateAccount json account
      now).state.latestSuccess.get account.id))).get w = none := windowsById_get_eq_none homits
  simp only [restoreStarts]
  cases fresh.state.storage.rollovers account.id none (now - anchorLookback) now with
  | error e => exact hfresh.starts w
  | ok found =>
    simp only [get_pruneAnchors, get_foldl_replayRollover, hfresh.starts]
    rw [Register.replay_none_of_no_put]
    · rfl
    · intro start hput
      obtain ⟨r, -, hwrite⟩ := List.mem_map.mp hput
      unfold replayAt at hwrite
      by_cases hkey : (account.id, w) = (r.account, r.window)
      · have hwindow : w = r.window := congrArg Prod.snd hkey
        rw [if_pos hkey, ← hwindow, hscale] at hwrite
        cases hkind : unannounced r <;> simp [hkind] at hwrite
      · rw [if_neg hkey] at hwrite
        cases hwrite

private theorem exists_hydrated (json : SerdeJson F) (live : Daemon F) (account : Account)
    (presenter : QuotaWindow F → RenderHint ℚ) (path : String) (known : List ProviderId)
    (upsertFault : Option String) (start now : DateTime) :
    ∃ fresh : Daemon F, Unseen fresh account ∧
      fresh.state.storage.pollEvent = live.state.storage.pollEvent ∧
      (restart json live account presenter path known upsertFault start
        now).state.latestSuccess = (fresh.hydrateAccount json account now).state.latestSuccess ∧
      (restart json live account presenter path known upsertFault start
        now).state.observedStarts = (fresh.hydrateAccount json account now).state.observedStarts ∧
      account ∈ (restart json live account presenter path known upsertFault start
        now).state.accounts := by
  let st := (new live.state.storage path known start).state
  let key := (account.provider, account.id)
  refine ⟨{ new live.state.storage path known start with
    state := { st with
      storage := if upsertFault.isSome then st.storage else st.storage.upsertAccount account
      accounts := st.accounts ++ [account]
      health := st.health.insert key ((st.health.get key).getD {}) } },
    ⟨rfl, rfl, ?_, fun _ => rfl⟩, ?_, rfl, rfl, List.mem_singleton.mpr rfl⟩
  · simp only [key, Dict.get_insert_self]
    rfl
  · cases upsertFault with
    | none => exact Storage.upsertAccount_pollEvent _ _
    | some e => rfl

private theorem recordAll_accounts (json : SerdeJson F) (d : Daemon F)
    (run : List (RecordedPoll F)) : (recordAll json d run).state.accounts = d.state.accounts := by
  induction run generalizing d with
  | nil => rfl
  | cons poll run ih => exact ih (record json d poll)

/-- What `Status` shows of a window once a successful poll that reports it is recorded, when the
last successful payload left it out. -/
theorem servedStart_record {live : Daemon F} {account : Account}
    (hlisted : account ∈ live.state.accounts) (homits : Omits live account.id w)
    {poll : RecordedPoll F} (haccount : poll.2.account = account.id)
    (hsuccess : poll.2.outcome.isSuccess)
    (hreported : ∃ v ∈ poll.2.outcome.windows, v.id = w) :
    servedStart (record json live poll) account.id w =
      some ((live.state.observedStarts.get (account.id, w)).filter
        (keepsAt poll.2.outcome.windows poll.2.ts w)) := by
  have hshown : servedStart (record json live poll) account.id w =
      some ((record json live poll).state.observedStarts.get (account.id, w)) := by
    apply servedStart_eq
    · exact ⟨account, hlisted, rfl⟩
    · rw [record_latestSuccess haccount hsuccess]
      exact hreported
  have hsilent : ∀ r ∈ detected live.state poll.2, r.window ≠ w :=
    window_ne_of_mem_detected haccount (.inl homits)
  rw [hshown, record_observedStarts haccount, Register.step, anchorStep,
    Register.replay_of_keep (writes_keep hsilent)]

/-- The poll after a restart shows the start the live daemon would have shown exactly when the
live daemon's anchor expires with that poll. -/
theorem restart_served_iff {account : Account} {run : List (RecordedPoll F)}
    (h : AccountRun json account d run) (hlisted : account ∈ d.state.accounts)
    (homits : Omits (recordAll json d run) account.id w) {b : ObservedStart}
    (hanchor : (recordAll json d run).state.observedStarts.get (account.id, w) = some b)
    {poll : RecordedPoll F} (haccount : poll.2.account = account.id)
    (hsuccess : poll.2.outcome.isSuccess)
    (hreported : ∃ v ∈ poll.2.outcome.windows, v.id = w)
    (presenter : QuotaWindow F → RenderHint ℚ) (path : String) (known : List ProviderId)
    (upsertFault : Option String) (start now : DateTime) :
    servedStart (record json (restart json (recordAll json d run) account presenter path known
        upsertFault start now) poll) account.id w =
      servedStart (record json (recordAll json d run) poll) account.id w ↔
    0 < longestSpan poll.2.outcome.windows ∧
      ∃ span, (Dict.collect (spansOf poll.2.outcome.windows)).get w = some span ∧
        span < poll.2.ts - b.estimate := by
  obtain ⟨fresh, hfresh, hstorage, hlast, hstarts, hlisted'⟩ := exists_hydrated json
    (recordAll json d run) account presenter path known upsertFault start now
  obtain ⟨-, hrestored, -⟩ := hydrated_caches hfresh (h.rows.congr hstorage) now
  have homits' : Omits (fresh.hydrateAccount json account now) account.id w := by
    intro v hv
    rw [hrestored, ← h.liveCaches.latestSuccess] at hv
    apply homits v
    cases hget : (recordAll json d run).state.latestSuccess.get account.id with
    | none =>
      rw [hget] at hv
      cases hv
    | some e =>
      rw [hget] at hv
      exact hv
  have hnone := hydrated_none hfresh homits'
  rw [← hstarts] at hnone
  have homits_restart : Omits (restart json (recordAll json d run) account presenter path known
      upsertFault start now) account.id w := by
    rw [Omits, hlast]
    exact homits'
  rw [← recordAll_accounts json d run] at hlisted
  rw [servedStart_record hlisted' homits_restart haccount hsuccess hreported,
    servedStart_record hlisted homits haccount hsuccess hreported, hnone, hanchor,
    ← keepsAt_eq_false_iff]
  cases hkeep : keepsAt poll.2.outcome.windows poll.2.ts w b <;> simp [Option.filter, hkeep]

/-- The weekly window resets in the second minute, and the payload of the third leaves it out. -/
def omittedWeekly : List (RecordedPoll ℚ) := [
  minutePoll 0 (.success [silentWindow "5h" 18000 10, silentWindow "7d" 604800 90]),
  minutePoll 1 (.success [silentWindow "5h" 18000 11, silentWindow "7d" 604800 2]),
  minutePoll 2 (.success [silentWindow "5h" 18000 12])]

/-- The weekly window is back, `n` minutes in. -/
def weeklyAgain (n : Nat) : RecordedPoll ℚ :=
  minutePoll n (.success [silentWindow "5h" 18000 13, silentWindow "7d" 604800 3])

def omittedJson : SerdeJson ℚ :=
  runJson ["first", "second", "third", "fourth"] (omittedWeekly ++ [weeklyAgain 4])

/-- The daemon with the account in service and nothing recorded yet. -/
def claudeInService : Daemon ℚ :=
  restart omittedJson claudeDaemon claudeAccount (fun _ => defaultHint) "config.toml" ["claude"]
    none 0 0

def claudeLive : Daemon ℚ := recordAll omittedJson claudeInService omittedWeekly

/-- The restart in the fourth minute. -/
def claudeRestarted : Daemon ℚ :=
  restart omittedJson claudeLive claudeAccount (fun _ => defaultHint) "config.toml" ["claude"]
    none 0 (millisToTs 180000)

private theorem unseen_claudeInService : Unseen claudeInService claudeAccount := by
  have hsuccess : claudeInService.state.latestSuccess.get claudeAccount.id = none := by
    decide
  refine ⟨by decide, hsuccess, by decide, ?_⟩
  intro w
  obtain ⟨fresh, hfresh, -, hlast, hstarts, -⟩ := exists_hydrated omittedJson claudeDaemon
    claudeAccount (fun _ => defaultHint) "config.toml" ["claude"] none 0 0
  have homits : Omits (fresh.hydrateAccount omittedJson claudeAccount 0) claudeAccount.id w := by
    rw [Omits, ← hlast]
    change ∀ v ∈ previousWindows (claudeInService.state.latestSuccess.get claudeAccount.id), _
    rw [hsuccess]
    intro v hv
    cases hv
  have hnone := hydrated_none hfresh homits
  rw [← hstarts] at hnone
  exact hnone

private theorem steadyRun_omittedWeekly :
    SteadyRun omittedJson claudeAccount claudeInService omittedWeekly where
  unseen := unseen_claudeInService
  unstored := ⟨by decide, by decide⟩
  ofAccount := by decide
  ofProvider := by decide
  ids := by decide
  roundTrips := by decide
  persisted := by decide
  ordered := by decide
  wholeMillis := by decide
  steady := by decide

private theorem omits_weekly : Omits claudeLive claudeAccount.id ⟨"7d"⟩ := by
  unfold Omits
  decide

/-- Eight days later the anchor has expired on both sides. -/
theorem restart_served_expired :
    servedStart (record omittedJson claudeRestarted (weeklyAgain 11520)) claudeAccount.id ⟨"7d"⟩ =
      servedStart (record omittedJson claudeLive (weeklyAgain 11520)) claudeAccount.id
        ⟨"7d"⟩ := by
  have hanchor : claudeLive.state.observedStarts.get (claudeAccount.id, ⟨"7d"⟩) =
      some { notBefore := 0, notAfter := millisToTs 60000 } := by
    decide
  have hspan : (Dict.collect (spansOf (weeklyAgain 11520).2.outcome.windows)).get ⟨"7d"⟩ =
      some (Duration.days 7) := by
    decide
  exact (restart_served_iff steadyRun_omittedWeekly.toAccountRun (by decide) omits_weekly
    hanchor (by decide) (by decide) (by decide) (fun _ => defaultHint)
    "config.toml" ["claude"] none 0 (millisToTs 180000)).mpr
    ⟨by decide, _, hspan, by decide⟩

/-- Two minutes later the live daemon still shows its anchor, and the restarted one shows none. -/
theorem restart_loses_omitted_anchor :
    SteadyRun omittedJson claudeAccount claudeInService omittedWeekly ∧
      claudeAccount ∈ claudeInService.state.accounts ∧
      (∀ e ∈ eventsOf omittedWeekly, e.ts ≤ millisToTs 180000) ∧
      (∀ e ∈ eventsOf omittedWeekly, millisToTs 180000 - anchorLookback ≤ e.ts) ∧
      Omits claudeLive claudeAccount.id ⟨"7d"⟩ ∧
      claudeLive.persists omittedJson (weeklyAgain 4).1 (weeklyAgain 4).2 ∧
      servedStart (record omittedJson claudeLive (weeklyAgain 4)) claudeAccount.id ⟨"7d"⟩ =
        some (some { notBefore := 0, notAfter := millisToTs 60000 }) ∧
      servedStart (record omittedJson claudeRestarted (weeklyAgain 4)) claudeAccount.id ⟨"7d"⟩ =
        some none :=
  ⟨steadyRun_omittedWeekly, by decide, by decide, by decide, omits_weekly,
    by decide +kernel, by decide +kernel, by decide +kernel⟩

end Daemon
end Teiryo
