import Teiryo.Core.Rollover

/-!
# Wire types

What clients and the daemon exchange: every request and every response, following
`teiryo-core/src/protocol/wire.rs` and the presentation half of `adapter.rs`.
-/

namespace Teiryo

/-- One atomic settings change. -/
inductive ConfigEdit where
  | globalPollInterval (secs : Option UInt32)
  | providerPollInterval (provider : ProviderId) (secs : Option UInt32)
  | providerEnabled (provider : ProviderId) (enabled : Bool)
  deriving DecidableEq, Repr

structure ProviderSettings where
  provider : ProviderId
  enabled : Bool
  pollIntervalSecs : Option UInt32
  effectivePollIntervalSecs : UInt32
  deriving DecidableEq, Repr

structure ConfigView where
  pollIntervalSecs : Option UInt32
  defaultPollIntervalSecs : UInt32
  minPollIntervalSecs : UInt32
  providers : List ProviderSettings
  deriving DecidableEq, Repr

/-- The settings in effect, and how the last read of the file went. The generation is a `u64` that
counts the loads one by one, so that no run comes to its end. -/
structure ConfigState where
  path : String
  generation : Nat
  effective : ConfigView
  loadedAt : DateTime
  warnings : List String
  error : Option String
  deriving DecidableEq, Repr

inductive ErrorKind where
  | unknownProvider
  | unknownAccount
  | badRequest
  | storage
  | internal
  deriving DecidableEq, Repr

inductive BarStyle where
  | percent
  | fractionOfLimit
  | countOnly
  deriving DecidableEq, Repr

/-- How the TUI should draw a window, with thresholds of a type of floats. -/
structure RenderHint (S : Type) where
  style : BarStyle
  warnThreshold : S
  criticalThreshold : S
  note : Option String
  deriving DecidableEq, Repr

structure WindowView (F S : Type) where
  window : QuotaWindow F
  hint : RenderHint S
  observedStart : Option ObservedStart
  deriving DecidableEq, Repr

structure AccountStatus (F S : Type) where
  account : Account
  windows : List (WindowView F S)
  lastPoll : Option (PollEvent F)
  lastSuccess : Option DateTime
  pollIntervalSecs : UInt32
  deriving DecidableEq, Repr

section Thresholds

variable {F S T : Type} (convert : S → T)

/-- A hint with its thresholds as floats of another type. -/
def RenderHint.map (h : RenderHint S) : RenderHint T where
  style := h.style
  warnThreshold := convert h.warnThreshold
  criticalThreshold := convert h.criticalThreshold
  note := h.note

def AccountStatus.map (a : AccountStatus F S) : AccountStatus F T where
  account := a.account
  windows := a.windows.map fun w => {
    window := w.window, hint := w.hint.map convert, observedStart := w.observedStart }
  lastPoll := a.lastPoll
  lastSuccess := a.lastSuccess
  pollIntervalSecs := a.pollIntervalSecs

end Thresholds

/-- One stored reading of one window. -/
structure QuotaSnapshot (F : Type) where
  pollId : PollId
  ts : DateTime
  window : WindowId
  label : String
  unit : QuotaUnit
  used : F
  limit : Option F
  resetAt : Option DateTime
  deriving DecidableEq, Repr

/-- One page of history: the slice that was asked for, and where the stored series starts. -/
structure HistoryPage (F : Type) where
  snapshots : List (QuotaSnapshot F)
  earliest : Option DateTime
  rollovers : List (WindowRollover F)
  deriving DecidableEq, Repr

structure AccountHealth where
  account : AccountId
  consecutiveFailures : UInt32
  lastError : Option String
  lastPollTs : Option DateTime
  pollIntervalSecs : UInt32
  deriving DecidableEq, Repr

structure ProviderHealth where
  provider : ProviderId
  accounts : List AccountHealth
  consecutiveFailures : UInt32
  lastError : Option String
  discoveryError : Option String
  deriving DecidableEq, Repr

inductive Request where
  | status (provider : Option ProviderId) (account : Option AccountId)
  | pollNow (provider : ProviderId) (account : Option AccountId)
  /-- `configGen` is a generation the client was told, and travels as a `u64` does. -/
  | awaitUpdate (since : PollId) (configGen : Nat) (timeoutMs : UInt32)
  | history (account : AccountId) (window : Option WindowId) (since : DateTime)
      («until» : Option DateTime) (maxPoints : Option UInt32)
  | recentPolls (limit : UInt32)
  | providers
  | shutdown
  | getConfig
  | setConfig (edit : ConfigEdit)
  deriving DecidableEq, Repr

inductive Response (F S : Type) where
  | status (accounts : List (AccountStatus F S))
  | pollAccepted (pollId : PollId)
  | update (event : PollEvent F)
  | noUpdate
  | history (page : HistoryPage F)
  | recentPolls (events : List (PollEvent F))
  | providers (health : List ProviderHealth)
  | ack
  | err (kind : ErrorKind) (message : String)
  | config (state : ConfigState)
  deriving DecidableEq, Repr

def Response.map {F S T : Type} (convert : S → T) : Response F S → Response F T
  | .status accounts => .status (accounts.map (·.map convert))
  | .pollAccepted pollId => .pollAccepted pollId
  | .update event => .update event
  | .noUpdate => .noUpdate
  | .history page => .history page
  | .recentPolls events => .recentPolls events
  | .providers health => .providers health
  | .ack => .ack
  | .err kind message => .err kind message
  | .config state => .config state

def Response.isErr {F S : Type} : Response F S → Bool
  | .err _ _ => true
  | _ => false

end Teiryo
