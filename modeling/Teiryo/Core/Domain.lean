import Mathlib.Algebra.Order.Field.Basic
import Mathlib.Algebra.Order.Ring.Rat
import Mathlib.Tactic.Common

/-!
# Domain model

Providers, accounts, quota windows and poll events, as `teiryo-core/src/domain.rs` declares
them. Readings are `f64` in the source. Everything here is stated over any type carrying the
`f64` operations the code applies, so it holds of `Float` itself and can be evaluated over `ℚ`.
-/

namespace Teiryo

/-- The `f64` operations applied to readings. No law is assumed of them. -/
class F64 (F : Type) extends Sub F, Mul F, Div F, LE F, LT F, OfScientific F where
  decLe (x y : F) : Decidable (x ≤ y)
  decLt (x y : F) : Decidable (x < y)

instance F64.decidableLe {F : Type} [F64 F] (x y : F) : Decidable (x ≤ y) := F64.decLe x y

instance F64.decidableLt {F : Type} [F64 F] (x y : F) : Decidable (x < y) := F64.decLt x y

instance : F64 Float where
  decLe _ _ := inferInstance
  decLt _ _ := inferInstance

instance : F64 ℚ where
  decLe _ _ := inferInstance
  decLt _ _ := inferInstance

namespace F64

variable {F : Type} [F64 F]

/-- `f64::clamp`; a NaN passes through unchanged. -/
def clamp (x lo hi : F) : F :=
  if x < lo then lo else if hi < x then hi else x

/-- `f64::is_nan`, by the one comparison only a NaN fails. -/
def isNaN (x : F) : Bool := !decide (x ≤ x)

end F64

/-- `chrono::DateTime<Utc>`, in nanoseconds since the Unix epoch. -/
abbrev DateTime := Int

/-- `chrono::Duration`, in nanoseconds. -/
abbrev Duration := Int

/-- `std::time::Duration`, in nanoseconds. -/
abbrev StdDuration := Nat

namespace Duration

def milliseconds (n : Int) : Duration := n * 1000000

def seconds (n : Int) : Duration := n * 1000000000

def days (n : Int) : Duration := seconds (n * 86400)

/-- `chrono::Duration::num_seconds`. -/
def numSeconds (d : Duration) : Int := Int.tdiv d 1000000000

/-- `chrono::Duration::num_milliseconds`. -/
def numMilliseconds (d : Duration) : Int := Int.tdiv d 1000000

/-- `chrono::Duration::from_std(d).ok()`: chrono holds at most `i64::MAX` milliseconds. -/
def fromStd (d : StdDuration) : Option Duration :=
  if d ≤ (2 ^ 63 - 1) * 1000000 then some d else none

end Duration

structure AccountId where
  val : String
  deriving DecidableEq, Repr

structure WindowId where
  val : String
  deriving DecidableEq, Repr

abbrev ProviderId := String

/-- A ULID: 48 bits of milliseconds followed by 80 random bits. Its text form sorts as its
number does, so the `ORDER BY id` of the queries is the order of `PollId`. -/
abbrev PollId := Fin (2 ^ 128)

instance neZero_pollIds : NeZero (2 ^ 128) := ⟨by decide⟩

structure Account where
  id : AccountId
  provider : ProviderId
  label : String
  deriving DecidableEq, Repr

inductive WindowScope where
  | accountWide
  | model (name : String)
  deriving DecidableEq, Repr

inductive ResetKind where
  | rolling (length : StdDuration)
  deriving DecidableEq, Repr

inductive QuotaUnit where
  | percent
  | messages
  | tokens
  | hours
  deriving DecidableEq, Repr

/-- One quota window of one account, as reported by a single poll. -/
structure QuotaWindow (F : Type) where
  id : WindowId
  label : String
  scope : WindowScope
  resetKind : ResetKind
  unit : QuotaUnit
  used : F
  limit : Option F
  resetAt : Option DateTime
  deriving DecidableEq, Repr

section Windows

variable {F : Type} [F64 F]

/-- Utilization ratio of a reading. `Percent` describes itself; any other unit needs a
positive limit. -/
def utilizationOf (unit : QuotaUnit) (used : F) (limit : Option F) : Option F :=
  match unit, limit with
  | .percent, _ => some (F64.clamp (used / 100.0) 0.0 1.0)
  | _, some limit =>
      if 0.0 < limit then some (F64.clamp (used / limit) 0.0 1.0) else none
  | _, none => none

namespace QuotaWindow

def utilization (w : QuotaWindow F) : Option F := utilizationOf w.unit w.used w.limit

omit [F64 F] in
/-- How long the window rolls over; `none` when chrono cannot hold it. -/
def span (w : QuotaWindow F) : Option Duration :=
  match w.resetKind with
  | .rolling d => Duration.fromStd d

end QuotaWindow
end Windows

inductive ClientKind where
  | tui
  | other (name : String)
  deriving DecidableEq, Repr

inductive PollTrigger where
  | scheduled
  | manual (client : ClientKind)
  | startup
  deriving DecidableEq, Repr

inductive PollOutcome (F : Type) where
  | success (windows : List (QuotaWindow F))
  | authError (message : String)
  | networkError (message : String)
  | schemaDrift (message : String)
  | rateLimited (retryAfter : Option StdDuration)
  deriving DecidableEq, Repr

namespace PollOutcome

variable {F : Type}

def errorMessage : PollOutcome F → Option String
  | success _ => none
  | authError m => some m
  | networkError m => some m
  | schemaDrift m => some m
  | rateLimited _ => some "rate limited"

/-- The windows a poll reports; a failure carries none. -/
def windows : PollOutcome F → List (QuotaWindow F)
  | success windows => windows
  | _ => []

def isSuccess : PollOutcome F → Bool
  | success _ => true
  | _ => false

theorem errorMessage_eq_none_iff (o : PollOutcome F) :
    o.errorMessage = none ↔ o.isSuccess = true := by
  cases o <;> simp [errorMessage, isSuccess]

end PollOutcome

/-- One completed poll of one account. -/
structure PollEvent (F : Type) where
  id : PollId
  ts : DateTime
  provider : ProviderId
  account : AccountId
  trigger : PollTrigger
  outcome : PollOutcome F
  latencyMs : UInt32
  deriving DecidableEq, Repr

end Teiryo
