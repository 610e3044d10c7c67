import Teiryo.Daemon.Anchors

/-!
# The evidence for a stored rollover

A rollover is detected against a payload in memory, which may never have been stored. The poll
that reveals it is stored with it or not at all.
-/

namespace Teiryo

variable {F : Type} [F64 F]

namespace Storage

/-- The poll that revealed a rollover is stored, with the reading it saw. -/
structure EvidenceFor (st : Storage F) (row : WindowRolloverRow F) : Prop where
  pollEvent : ∃ p ∈ st.pollEvent, p.id = row.pollId
  quotaSnapshot : ∃ q ∈ st.quotaSnapshot,
    q.pollId = row.pollId ∧ q.windowId = row.windowId ∧ q.used = row.newUsed

/-- Every stored rollover has its evidence. -/
def Evidenced (st : Storage F) : Prop := ∀ row ∈ st.windowRollover, st.EvidenceFor row

variable {json : SerdeJson F} {st st' : Storage F} {event : PollEvent F}
  {windows : List (QuotaWindow F)} {rollovers : List (WindowRollover F)}

omit [F64 F] in
private theorem evidenced_of_windowRollover_eq_nil (h : st.windowRollover = []) : st.Evidenced := by
  intro row hrow
  rw [h] at hrow
  cases hrow

private theorem Recorded.evidenceFor (h : Recorded json st st' event windows rollovers)
    {row : WindowRolloverRow F} (hrow : st.EvidenceFor row) : st'.EvidenceFor row := by
  obtain ⟨p, hp, hpoll⟩ := hrow.pollEvent
  obtain ⟨q, hq, hreading⟩ := hrow.quotaSnapshot
  refine ⟨⟨p, ?_, hpoll⟩, q, ?_, hreading⟩
  · rw [h.pollEvent_eq]
    exact List.mem_append_left _ hp
  · rw [h.quotaSnapshot_eq]
    exact List.mem_append_left _ hq

private theorem Recorded.evidenceFor_rolloverRow (h : Recorded json st st' event windows rollovers)
    {r : WindowRollover F} (hpoll : r.poll = event.id) {w : QuotaWindow F} (hw : w ∈ windows)
    (hwindow : r.window = w.id) (hused : r.newUsed = w.used) :
    st'.EvidenceFor (rolloverRow r) := by
  refine ⟨⟨eventRow json event, ?_, hpoll.symm⟩, snapshotRow event.id w, ?_, hpoll.symm,
    hwindow.symm, hused.symm⟩
  · rw [h.pollEvent_eq]
    exact List.mem_append_right _ (List.mem_singleton.mpr rfl)
  · rw [h.quotaSnapshot_eq]
    exact List.mem_append_right _ (List.mem_map_of_mem hw)

end Storage

namespace Daemon

variable {json : SerdeJson F} {d : Daemon F}

private theorem evidenced_record (h : d.state.storage.Evidenced) (poll : RecordedPoll F) :
    (record json d poll).state.storage.Evidenced := by
  cases hwritten : (d.state.storage.recordPoll json poll.1 poll.2 poll.2.outcome.windows
      (detected d.state poll.2)).1 with
  | error e =>
    have hkept := Storage.recordPoll_error hwritten
    simp only [record, recordEvent, hkept]
    exact h
  | ok =>
    have hrecorded := Storage.recordPoll_ok hwritten
    intro row hrow
    have hrow' : row ∈ d.state.storage.windowRollover ++
        (detected d.state poll.2).map Storage.rolloverRow := by
      rw [← hrecorded.windowRollover_eq]
      exact hrow
    rcases List.mem_append.mp hrow' with hold | hnew
    · exact hrecorded.evidenceFor (h row hold)
    · obtain ⟨r, hr, rfl⟩ := List.mem_map.mp hnew
      obtain ⟨before, after, hfound⟩ := detect_mem hr
      exact hrecorded.evidenceFor_rolloverRow hfound.poll_eq hfound.after_mem hfound.window_eq
        hfound.newUsed_eq

/-- Whatever statements fail along a run of polls, every stored rollover has its evidence, and a
write that fails leaves the tables as they were. -/
theorem rollovers_evidenced (h : d.state.storage.Evidenced) (run : List (RecordedPoll F)) :
    (recordAll json d run).state.storage.Evidenced ∧
      ∀ (st : Storage F) faults event windows rollovers e,
        (st.recordPoll json faults event windows rollovers).1 = .error e →
          (st.recordPoll json faults event windows rollovers).2 = st := by
  constructor
  · apply @foldl_invariant _ _ _ (fun d => d.state.storage.Evidenced) d run h
    intro d poll hinv
    exact evidenced_record hinv poll
  · intro st faults event windows rollovers e
    exact Storage.recordPoll_error

/-- The reset of the weekly window again, with a database that fails in the second poll's last
insert. -/
def unwrittenReset : List (RecordedPoll ℚ) :=
  silentReset.map fun poll =>
    (fun n => if poll.2.id = 2 ∧ n = 4 then some "disk I/O error" else none, poll.2)

theorem rollovers_evidenced_unwrittenReset :
    (recordAll silentResetJson claudeDaemon unwrittenReset).state.storage.Evidenced ∧
      ∀ (st : Storage ℚ) faults event windows rollovers e,
        (st.recordPoll silentResetJson faults event windows rollovers).1 = .error e →
          (st.recordPoll silentResetJson faults event windows rollovers).2 = st :=
  rollovers_evidenced (Storage.evidenced_of_windowRollover_eq_nil rfl) unwrittenReset

end Daemon
end Teiryo
