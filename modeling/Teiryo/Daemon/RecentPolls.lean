import Mathlib.Data.List.Sort
import Teiryo.Daemon.HistoryFrame

/-!
# Recent polls

`recent_polls` in `teiryo-core/src/storage.rs`, over whatever was written: the activity log shows
the newest polls of all accounts, whether or not the accounts are still around.
-/

namespace Teiryo

variable {F : Type}

namespace Storage

/-- `ORDER BY id DESC LIMIT ?`. -/
def recentPolls (json : SerdeJson F) (st : Storage F) (limit : UInt32) :
    Except StorageError (List (PollEvent F)) :=
  ((st.pollEvent.mergeSort fun a b => decide (b.id ≤ a.id)).take limit.toNat).mapM
    (rowToEvent json)

theorem length_recentPolls_le {json : SerdeJson F} {st : Storage F} {limit : UInt32}
    {events : List (PollEvent F)} (h : st.recentPolls json limit = .ok events) :
    events.length ≤ limit.toNat := by
  rw [length_of_mapM h]
  exact List.length_take_le _ _

/-- The newest of some polls, newest first and as the database gives them back. -/
structure NewestOf (limit : Nat) (events polls : List (PollEvent F)) : Prop where
  newestFirst : polls.Pairwise fun a b => b.id < a.id
  stored : ∀ p ∈ polls, ∃ e ∈ events, p = e.stored
  length : polls.length = min limit events.length
  newest : ∀ e ∈ events, e.stored ∈ polls ∨ ∀ p ∈ polls, e.id < p.id

private theorem recentPolls_of_rows {json : SerdeJson F} {st : Storage F}
    {events : List (PollEvent F)}
    (hrows : st.pollEvent = events.map (eventRow json)) (hids : (events.map (·.id)).Nodup)
    (hjson : ∀ e ∈ events, json.RoundTrips e) (limit : UInt32) :
    ∃ polls, st.recentPolls json limit = .ok polls ∧ NewestOf limit.toNat events polls := by
  let newer (a b : PollEvent F) : Bool := decide (b.id ≤ a.id)
  let sorted := events.mergeSort newer
  have hperm : sorted.Perm events := List.mergeSort_perm _ _
  have hsorted : sorted.Pairwise fun a b => b.id < a.id := by
    have hle : sorted.Pairwise fun a b => b.id ≤ a.id := by
      refine (List.pairwise_mergeSort ?_ ?_ events).imp of_decide_eq_true
      · intro a b c hab hbc
        exact decide_eq_true ((of_decide_eq_true hbc).trans (of_decide_eq_true hab))
      · intro a b
        rw [Bool.or_eq_true, decide_eq_true_iff, decide_eq_true_iff]
        exact le_total b.id a.id
    have hnodup : (sorted.map (·.id)).Nodup := (hperm.map _).nodup_iff.mpr hids
    have hne : sorted.Pairwise fun a b => a.id ≠ b.id := List.pairwise_map.mp hnodup
    exact (hle.and hne).imp fun h => lt_of_le_of_ne h.1 h.2.symm
  have hmap : (st.pollEvent.mergeSort fun a b => decide (b.id ≤ a.id)) =
      sorted.map (eventRow json) := by
    rw [hrows]
    exact (@List.map_mergeSort _ _ newer (fun a b => decide (b.id ≤ a.id)) (eventRow json) events
      fun a _ b _ => rfl).symm
  refine ⟨(sorted.take limit.toNat).map PollEvent.stored, ?_, ?_⟩
  · rw [recentPolls, hmap, ← List.map_take, List.mapM_map]
    apply mapM_eq_ok_map
    intro e he
    exact rowToEvent_eventRow (hjson e (hperm.mem_iff.mp (List.mem_of_mem_take he)))
  · refine ⟨?_, ?_, ?_, ?_⟩
    · rw [List.pairwise_map]
      exact hsorted.sublist (List.take_sublist _ _)
    · intro p hp
      obtain ⟨e, he, rfl⟩ := List.mem_map.mp hp
      exact ⟨e, hperm.mem_iff.mp (List.mem_of_mem_take he), rfl⟩
    · rw [List.length_map, List.length_take, hperm.length_eq]
    · intro e he
      have hmem : e ∈ sorted.take limit.toNat ++ sorted.drop limit.toNat := by
        rw [List.take_append_drop]
        exact hperm.mem_iff.mpr he
      rcases List.mem_append.mp hmem with hmem | hmem
      · exact .inl (List.mem_map_of_mem hmem)
      · right
        intro p hp
        obtain ⟨e', he', rfl⟩ := List.mem_map.mp hp
        rw [← List.take_append_drop limit.toNat sorted] at hsorted
        exact (List.pairwise_append.mp hsorted).2.2 e' he' e hmem

variable [F64 F]

/-- The poll that a write gets into the database, if any. -/
def persisted (json : SerdeJson F) (st : Storage F) : StorageWrite F → List (PollEvent F)
  | .upsertAccount _ => []
  | .recordPoll faults event windows rollovers =>
    match (st.recordPoll json faults event windows rollovers).1 with
    | .ok () => [event]
    | .error _ => []

/-- The polls that a run of writes gets into the database, oldest write first. -/
def persistedBy (json : SerdeJson F) : Storage F → List (StorageWrite F) → List (PollEvent F)
  | _, [] => []
  | st, write :: writes => persisted json st write ++ persistedBy json (st.apply json write) writes

/-- The rows of the polls persisted so far. -/
structure Holds (json : SerdeJson F) (st : Storage F) (events : List (PollEvent F)) : Prop where
  rows : st.pollEvent = events.map (eventRow json)
  ids : (events.map (·.id)).Nodup

theorem Holds.run {json : SerdeJson F} {st : Storage F} {events : List (PollEvent F)}
    (h : Holds json st events) (writes : List (StorageWrite F)) :
    Holds json (writes.foldl (Storage.apply json) st) (events ++ persistedBy json st writes) := by
  induction writes generalizing st events with
  | nil =>
    rw [persistedBy, List.append_nil]
    exact h
  | cons write writes ih =>
    rw [persistedBy, List.foldl_cons, ← List.append_assoc]
    apply ih
    cases write with
    | upsertAccount account =>
      rw [persisted, List.append_nil]
      exact ⟨(upsertAccount_pollEvent st account).trans h.rows, h.ids⟩
    | recordPoll faults event windows rollovers =>
      change Holds json (st.recordPoll json faults event windows rollovers).2 _
      rw [persisted]
      cases hwritten : (st.recordPoll json faults event windows rollovers).1 with
      | error e =>
        rw [recordPoll_error hwritten, List.append_nil]
        exact h
      | ok =>
        have hrecorded := recordPoll_ok hwritten
        constructor
        · rw [hrecorded.pollEvent_eq, h.rows, List.map_append]
          rfl
        · rw [List.map_append, List.nodup_append]
          refine ⟨h.ids, List.nodup_singleton _, ?_⟩
          rintro id hid id' hid' rfl
          obtain rfl := List.mem_singleton.mp hid'
          obtain ⟨e, he, heq⟩ := List.mem_map.mp hid
          refine hrecorded.fresh (eventRow json e) ?_ heq
          rw [h.rows]
          exact List.mem_map_of_mem he

/-- However a database was written, `RecentPolls` gives the newest polls of those it persisted. -/
theorem recentPolls_newest (json : SerdeJson F) (writes : List (StorageWrite F)) (limit : UInt32)
    (hjson : ∀ e ∈ persistedBy json .empty writes, json.RoundTrips e) :
    ∃ polls, (writes.foldl (Storage.apply json) .empty).recentPolls json limit = .ok polls ∧
      NewestOf limit.toNat (persistedBy json .empty writes) polls := by
  have hempty : Holds json (.empty : Storage F) [] := ⟨rfl, List.nodup_nil⟩
  have hrun := hempty.run writes
  rw [List.nil_append] at hrun
  exact recentPolls_of_rows hrun.rows hrun.ids hjson limit

theorem recentPolls_newest_three_polls : ∃ polls,
    ((steadyWrites 3).foldl (Storage.apply steadyJson) .empty).recentPolls steadyJson 2 =
        .ok polls ∧
      NewestOf 2 (persistedBy steadyJson .empty (steadyWrites 3)) polls :=
  recentPolls_newest steadyJson (steadyWrites 3) 2 (by decide)

end Storage
end Teiryo
