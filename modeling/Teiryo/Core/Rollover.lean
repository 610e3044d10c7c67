import Teiryo.Core.Domain
import Teiryo.Framework.Dict

/-!
# Window rollovers

Which windows restarted between two consecutive successful polls, and whether the provider
announced it, following `teiryo-core/src/rollover.rs`.
-/

namespace Teiryo

/-- Tolerance for clock skew and provider-side rounding of `reset_at`. -/
def resetTolerance : Duration := Duration.seconds 120

inductive RolloverKind where
  | scheduled
  | early
  | retracted
  | unannounced
  deriving DecidableEq, Repr

namespace RolloverKind

/-- The string stored in the `kind` column. -/
def asStr : RolloverKind → String
  | scheduled => "scheduled"
  | early => "early"
  | retracted => "retracted"
  | unannounced => "unannounced"

def fromColumn (s : String) : Option RolloverKind :=
  match s with
  | "scheduled" => some scheduled
  | "early" => some early
  | "retracted" => some retracted
  | "unannounced" => some unannounced
  | _ => none

@[simp] theorem fromColumn_asStr (k : RolloverKind) : fromColumn k.asStr = some k := by
  cases k <;> rfl

end RolloverKind

/-- One observed rollover of one window, tied to the poll that revealed it. -/
structure WindowRollover (F : Type) where
  account : AccountId
  window : WindowId
  poll : PollId
  observedAt : DateTime
  kind : RolloverKind
  prevResetAt : Option DateTime
  newResetAt : Option DateTime
  prevUsed : F
  newUsed : F
  prevObservedAt : Option DateTime
  deriving DecidableEq, Repr

/-- Where a window is known to have begun: after one poll and not after the next. -/
structure ObservedStart where
  notBefore : DateTime
  notAfter : DateTime
  deriving DecidableEq, Repr

namespace ObservedStart

variable {F : Type}

def fromRollover (r : WindowRollover F) : ObservedStart where
  notBefore := r.prevObservedAt.getD r.observedAt
  notAfter := r.observedAt

/-- The bracket's midpoint. Halving a chrono duration rounds towards the past. -/
def estimate (b : ObservedStart) : DateTime :=
  b.notBefore + (b.notAfter - b.notBefore) / 2

end ObservedStart

section Detection

variable {F : Type} [F64 F]

/-- What may be left of the usage for a fall to be a reset. -/
def resetCollapseRatio : F := 0.5

/-- How much of the window must vanish before a fall is considered at all. -/
def minResetDrop : F := 0.05

/-- Whether a fall from `prev` to `new`, both utilizations, is a reset rather than a
correction. -/
def isCollapse (prev new : F) : Bool :=
  decide (minResetDrop ≤ prev - new) && decide (new ≤ prev * resetCollapseRatio)

def collapsed (before after : QuotaWindow F) : Bool :=
  match before.utilization, after.utilization with
  | some prev, some new => isCollapse prev new
  | _, _ => false

/-- Which rollover, if any, one window underwent between two polls. -/
def classify (before after : QuotaWindow F) (observedAt : DateTime) : Option RolloverKind :=
  let unmoved := if collapsed before after then some .unannounced else none
  match before.resetAt, after.resetAt with
  | some prev, some new =>
      if prev + resetTolerance < new then
        if observedAt + resetTolerance < prev then some .early else some .scheduled
      else if new < prev - resetTolerance then some .retracted
      else unmoved
  | _, _ => unmoved

theorem collapsed_of_classify {before after : QuotaWindow F} {ts : DateTime}
    (h : classify before after ts = some .unannounced) : collapsed before after = true := by
  have hunmoved : (if collapsed before after then some RolloverKind.unannounced else none) =
      some .unannounced → collapsed before after = true := by
    intro h
    by_contra hnot
    rw [if_neg hnot] at h
    cases h
  unfold classify at h
  cases hprev : before.resetAt with
  | none =>
    rw [hprev] at h
    exact hunmoved h
  | some prev =>
    cases hnew : after.resetAt with
    | none =>
      rw [hprev, hnew] at h
      exact hunmoved h
    | some new =>
      simp only [hprev, hnew] at h
      by_cases hahead : prev + resetTolerance < new
      · rw [if_pos hahead] at h
        split at h <;> cases h
      · rw [if_neg hahead] at h
        by_cases hback : new < prev - resetTolerance
        · rw [if_pos hback] at h
          cases h
        · rw [if_neg hback] at h
          exact hunmoved h

omit [F64 F] in
/-- The windows of a payload, by id. -/
def windowsById (windows : List (QuotaWindow F)) : Dict WindowId (QuotaWindow F) :=
  Dict.collect (windows.map fun w => (w.id, w))

/-- Every window that rolled over between two consecutive successful polls. A window present
in only one of them is skipped. -/
def detect (account : AccountId) (prev next : List (QuotaWindow F)) (poll : PollId)
    (prevObservedAt : Option DateTime) (observedAt : DateTime) : List (WindowRollover F) :=
  let before := windowsById prev
  next.filterMap fun after => do
    let before ← before.get after.id
    let kind ← classify before after observedAt
    return {
      account, window := after.id, poll, observedAt, kind
      prevResetAt := before.resetAt, newResetAt := after.resetAt
      prevUsed := before.used, newUsed := after.used, prevObservedAt }

omit [F64 F] in
theorem windowsById_get_id {windows : List (QuotaWindow F)} {id : WindowId} {w : QuotaWindow F}
    (h : (windowsById windows).get id = some w) : w ∈ windows ∧ w.id = id := by
  have hmem := Dict.mem_of_get_collect h
  obtain ⟨w', hw', heq⟩ := List.mem_map.mp hmem
  cases heq
  exact ⟨hw', rfl⟩

omit [F64 F] in
theorem windowsById_get_of_mem {windows : List (QuotaWindow F)} {w : QuotaWindow F}
    (hnd : (windows.map QuotaWindow.id).Nodup) (hw : w ∈ windows) :
    (windowsById windows).get w.id = some w := by
  apply Dict.get_collect_of_mem
  · simpa [Function.comp_def] using hnd
  · exact List.mem_map.mpr ⟨w, hw, rfl⟩

omit [F64 F] in
theorem windowsById_get_eq_none {windows : List (QuotaWindow F)} {id : WindowId}
    (h : ∀ w ∈ windows, w.id ≠ id) : (windowsById windows).get id = none := by
  apply Dict.get_collect_eq_none
  intro hmem
  obtain ⟨kv, hkv, rfl⟩ := List.mem_map.mp hmem
  obtain ⟨w, hw, rfl⟩ := List.mem_map.mp hkv
  exact h w hw rfl

/-- What a detected rollover says, read back from the two payloads it compares. -/
structure Detected (account : AccountId) (prev next : List (QuotaWindow F)) (poll : PollId)
    (prevObservedAt : Option DateTime) (observedAt : DateTime) (r : WindowRollover F)
    (before after : QuotaWindow F) : Prop where
  before_mem : before ∈ prev
  before_id : before.id = after.id
  after_mem : after ∈ next
  kind_eq : classify before after observedAt = some r.kind
  rollover_eq : r = {
    account, window := after.id, poll, observedAt, kind := r.kind
    prevResetAt := before.resetAt, newResetAt := after.resetAt
    prevUsed := before.used, newUsed := after.used, prevObservedAt }

section

variable {account : AccountId} {prev next : List (QuotaWindow F)} {poll : PollId}
  {prevObservedAt : Option DateTime} {observedAt : DateTime} {r : WindowRollover F}
  {before after : QuotaWindow F}

theorem Detected.account_eq
    (h : Detected account prev next poll prevObservedAt observedAt r before after) :
    r.account = account := congrArg WindowRollover.account h.rollover_eq

theorem Detected.window_eq
    (h : Detected account prev next poll prevObservedAt observedAt r before after) :
    r.window = after.id := congrArg WindowRollover.window h.rollover_eq

theorem Detected.poll_eq
    (h : Detected account prev next poll prevObservedAt observedAt r before after) :
    r.poll = poll := congrArg WindowRollover.poll h.rollover_eq

theorem Detected.observedAt_eq
    (h : Detected account prev next poll prevObservedAt observedAt r before after) :
    r.observedAt = observedAt := congrArg WindowRollover.observedAt h.rollover_eq

theorem Detected.prevObservedAt_eq
    (h : Detected account prev next poll prevObservedAt observedAt r before after) :
    r.prevObservedAt = prevObservedAt := congrArg WindowRollover.prevObservedAt h.rollover_eq

theorem Detected.prevUsed_eq
    (h : Detected account prev next poll prevObservedAt observedAt r before after) :
    r.prevUsed = before.used := congrArg WindowRollover.prevUsed h.rollover_eq

theorem Detected.newUsed_eq
    (h : Detected account prev next poll prevObservedAt observedAt r before after) :
    r.newUsed = after.used := congrArg WindowRollover.newUsed h.rollover_eq

end

theorem detect_mem {account : AccountId} {prev next : List (QuotaWindow F)} {poll : PollId}
    {prevObservedAt : Option DateTime} {observedAt : DateTime} {r : WindowRollover F}
    (hr : r ∈ detect account prev next poll prevObservedAt observedAt) :
    ∃ before after, Detected account prev next poll prevObservedAt observedAt r before after := by
  obtain ⟨after, hafter, hr⟩ := List.mem_filterMap.mp hr
  simp only [Option.bind_eq_bind, Option.bind_eq_some_iff, Option.pure_def,
    Option.some.injEq] at hr
  obtain ⟨before, hbefore, kind, hkind, rfl⟩ := hr
  obtain ⟨hmem, hid⟩ := windowsById_get_id hbefore
  exact ⟨before, after, hmem, hid, hafter, hkind, rfl⟩

@[simp] theorem detect_next_nil (account : AccountId) (prev : List (QuotaWindow F))
    (poll : PollId) (prevObservedAt : Option DateTime) (observedAt : DateTime) :
    detect account prev [] poll prevObservedAt observedAt = [] := rfl

end Detection
end Teiryo
