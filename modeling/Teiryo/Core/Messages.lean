import Teiryo.Core.Codec
import Teiryo.Framework.BincodeCodec

/-!
# Messages

The format of every request and every response, in the order their fields and variants are declared
in `teiryo-core/src/protocol/wire.rs`: bincode is positional. A double and a
threshold go as the bytes of their floats, a duration as seconds and nanoseconds, an id and an
instant as their texts. The floats and the two texts' readers come with the format.
-/

namespace Teiryo

def Request.variant : Request → Nat
  | .status _ _ => 0
  | .pollNow _ _ => 1
  | .awaitUpdate _ _ _ => 2
  | .history _ _ _ _ _ => 3
  | .recentPolls _ => 4
  | .providers => 5
  | .shutdown => 6
  | .getConfig => 7
  | .setConfig _ => 8

def Response.variant {F S : Type} : Response F S → Nat
  | .status _ => 0
  | .pollAccepted _ => 1
  | .update _ => 2
  | .noUpdate => 3
  | .history _ => 4
  | .recentPolls _ => 5
  | .providers _ => 6
  | .ack => 7
  | .err _ _ => 8
  | .config _ => 9

namespace Wire

/-- The instants a `DateTime<Utc>` holds: the years from -262143 to 262142. -/
def Instant (t : DateTime) : Prop :=
  Rfc3339.days (-262143) 1 1 * 86400000000000 ≤ t ∧
    t < Rfc3339.days 262143 1 1 * 86400000000000

instance (t : DateTime) : Decidable (Instant t) := by
  unfold Instant
  infer_instance

/-- The bytes of the floats, and how chrono reads an instant and `ulid` an id: back from the text
each of them writes, and from whatever other texts it takes. -/
structure Formats (F S : Type) where
  /-- The numbers eight bytes stand for. -/
  IsDouble : F → Prop
  double : F → Vector UInt8 8
  ofDouble : Vector UInt8 8 → F
  ofDouble_double : ∀ x, IsDouble x → ofDouble (double x) = x
  isDouble_ofDouble : ∀ v, IsDouble (ofDouble v)
  single : S → Vector UInt8 4
  ofSingle : Vector UInt8 4 → S
  ofSingle_single : ∀ x, ofSingle (single x) = x
  parseInstant : String → Option DateTime
  parseInstant_format : ∀ t, Instant t → parseInstant (Rfc3339.format t) = some t
  instant_of_parse : ∀ s t, parseInstant s = some t → Instant t
  parseUlid : String → Option PollId
  parseUlid_text : ∀ id, parseUlid (ulidText id) = some id

open Bincode

theorem word_fits {n : Nat} (h : n < 2 ^ 32) : word.Fits n := h

section Leaves

variable {F S : Type} (f : Formats F S)

def double : Codec F :=
  (bytes 8).partialMap (fun v => some (f.ofDouble v)) f.double f.IsDouble
    (fun x hx => ⟨trivial, congrArg some (f.ofDouble_double x hx)⟩) fun v x _ h => by
      cases h
      exact f.isDouble_ofDouble v

def single : Codec S :=
  (bytes 4).partialMap (fun v => some (f.ofSingle v)) f.single (fun _ => True)
    (fun x _ => ⟨trivial, congrArg some (f.ofSingle_single x)⟩) fun _ _ _ _ => trivial

theorem format_fits {t : DateTime} (h : Instant t) : string.Fits (Rfc3339.format t) := by
  have hchars := @Rfc3339.length_format_le t
    (le_trans (by decide) h.1) (le_trans h.2.le (by decide))
  have hle := Utf8.length_encode_le (Rfc3339.format t).toList
  change (Utf8.encode (Rfc3339.format t).toList).length < 2 ^ 64
  omega

def instant : Codec DateTime :=
  string.partialMap f.parseInstant Rfc3339.format Instant
    (fun t ht => ⟨format_fits ht, f.parseInstant_format t ht⟩)
    fun s t _ h => f.instant_of_parse s t h

theorem ulidText_fits (id : PollId) : string.Fits (ulidText id) := by
  change (Utf8.encode (ulidText id).toList).length < 2 ^ 64
  rw [length_encode_ulidText]
  decide

def pollId : Codec PollId :=
  string.partialMap f.parseUlid ulidText (fun _ => True)
    (fun id _ => ⟨ulidText_fits id, f.parseUlid_text id⟩) fun _ _ _ _ => trivial

end Leaves

/-- `std::time::Duration`: a read whose nanoseconds carry the seconds past a `u64` fails. -/
def duration : Codec StdDuration :=
  (long.pair word).partialMap
    (fun v =>
      if (v.1 * 1000000000 + v.2) / 1000000000 < 2 ^ 64 then some (v.1 * 1000000000 + v.2)
      else none)
    (fun d => (d / 1000000000, d % 1000000000)) (fun d => d / 1000000000 < 2 ^ 64)
    (fun d hd => by
      have hnanos : d % 1000000000 < 2 ^ 32 := (Nat.mod_lt d (by decide)).trans (by decide)
      refine ⟨⟨hd, hnanos⟩, ?_⟩
      dsimp only
      rw [Nat.div_add_mod' d 1000000000, if_pos hd])
    fun v d _ h => by
      split at h
      · rename_i hlt
        cases h
        exact hlt
      · cases h

def accountId : Codec AccountId := string.iso AccountId.mk AccountId.val

def windowId : Codec WindowId := string.iso WindowId.mk WindowId.val

def account : Codec Account :=
  (accountId.pair (string.pair string)).iso (fun v => ⟨v.1, v.2.1, v.2.2⟩)
    fun a => (a.id, a.provider, a.label)

def quotaUnit : Codec QuotaUnit :=
  .listed word [.percent, .messages, .tokens, .hours] QuotaUnit.variant fun unit => by
    cases unit <;> exact ⟨word_fits (by decide), rfl⟩

def barStyle : Codec BarStyle :=
  .listed word [.percent, .fractionOfLimit, .countOnly]
    (fun | .percent => 0 | .fractionOfLimit => 1 | .countOnly => 2) fun style => by
      cases style <;> exact ⟨word_fits (by decide), rfl⟩

def rolloverKind : Codec RolloverKind :=
  .listed word [.scheduled, .early, .retracted, .unannounced] RolloverKind.variant fun kind => by
    cases kind <;> exact ⟨word_fits (by decide), rfl⟩

def errorKind : Codec ErrorKind :=
  .listed word [.unknownProvider, .unknownAccount, .badRequest, .storage, .internal]
    (fun | .unknownProvider => 0 | .unknownAccount => 1 | .badRequest => 2 | .storage => 3
         | .internal => 4) fun kind => by
      cases kind <;> exact ⟨word_fits (by decide), rfl⟩

def windowScope : Codec WindowScope :=
  .variants word (fun | .accountWide => 0 | .model _ => 1)
    [.of .unit (fun _ => .accountWide)
      fun | .accountWide => some () | _ => none,
     .of string .model
      fun | .model name => some name | _ => none]

def resetKind : Codec ResetKind :=
  .variants word (fun | .rolling _ => 0)
    [.of duration .rolling
      fun | .rolling length => some length]

def clientKind : Codec ClientKind :=
  .variants word (fun | .tui => 0 | .other _ => 1)
    [.of .unit (fun _ => .tui)
      fun | .tui => some () | _ => none,
     .of string .other
      fun | .other name => some name | _ => none]

def pollTrigger : Codec PollTrigger :=
  .variants word (fun | .scheduled => 0 | .manual _ => 1 | .startup => 2)
    [.of .unit (fun _ => .scheduled)
      fun | .scheduled => some () | _ => none,
     .of clientKind .manual
      fun | .manual client => some client | _ => none,
     .of .unit (fun _ => .startup)
      fun | .startup => some () | _ => none]

section Domain

variable {F S : Type} (f : Formats F S)

def quotaWindow : Codec (QuotaWindow F) :=
  (windowId.pair (string.pair (windowScope.pair (resetKind.pair (quotaUnit.pair
    ((double f).pair ((optional (double f)).pair (optional (instant f))))))))).iso
      (fun v => ⟨v.1, v.2.1, v.2.2.1, v.2.2.2.1, v.2.2.2.2.1, v.2.2.2.2.2.1, v.2.2.2.2.2.2.1,
        v.2.2.2.2.2.2.2⟩)
      fun w => (w.id, w.label, w.scope, w.resetKind, w.unit, w.used, w.limit, w.resetAt)

def pollOutcome : Codec (PollOutcome F) :=
  .variants word
    (fun | .success _ => 0 | .authError _ => 1 | .networkError _ => 2 | .schemaDrift _ => 3
         | .rateLimited _ => 4)
    [.of (list (quotaWindow f)) .success
      fun | .success windows => some windows | _ => none,
     .of string .authError
      fun | .authError message => some message | _ => none,
     .of string .networkError
      fun | .networkError message => some message | _ => none,
     .of string .schemaDrift
      fun | .schemaDrift message => some message | _ => none,
     .of (optional duration) .rateLimited
      fun | .rateLimited retryAfter => some retryAfter | _ => none]

def pollEvent : Codec (PollEvent F) :=
  ((pollId f).pair ((instant f).pair (string.pair (accountId.pair (pollTrigger.pair
    ((pollOutcome f).pair u32)))))).iso
      (fun v => ⟨v.1, v.2.1, v.2.2.1, v.2.2.2.1, v.2.2.2.2.1, v.2.2.2.2.2.1, v.2.2.2.2.2.2⟩)
      fun e => (e.id, e.ts, e.provider, e.account, e.trigger, e.outcome, e.latencyMs)

def quotaSnapshot : Codec (QuotaSnapshot F) :=
  ((pollId f).pair ((instant f).pair (windowId.pair (string.pair (quotaUnit.pair
    ((double f).pair ((optional (double f)).pair (optional (instant f))))))))).iso
      (fun v => ⟨v.1, v.2.1, v.2.2.1, v.2.2.2.1, v.2.2.2.2.1, v.2.2.2.2.2.1, v.2.2.2.2.2.2.1,
        v.2.2.2.2.2.2.2⟩)
      fun s => (s.pollId, s.ts, s.window, s.label, s.unit, s.used, s.limit, s.resetAt)

def windowRollover : Codec (WindowRollover F) :=
  (accountId.pair (windowId.pair ((pollId f).pair ((instant f).pair (rolloverKind.pair
    ((optional (instant f)).pair ((optional (instant f)).pair ((double f).pair
      ((double f).pair (optional (instant f))))))))))).iso
        (fun v => ⟨v.1, v.2.1, v.2.2.1, v.2.2.2.1, v.2.2.2.2.1, v.2.2.2.2.2.1, v.2.2.2.2.2.2.1,
          v.2.2.2.2.2.2.2.1, v.2.2.2.2.2.2.2.2.1, v.2.2.2.2.2.2.2.2.2⟩)
        fun r => (r.account, r.window, r.poll, r.observedAt, r.kind, r.prevResetAt, r.newResetAt,
          r.prevUsed, r.newUsed, r.prevObservedAt)

def observedStart : Codec ObservedStart :=
  ((instant f).pair (instant f)).iso (fun v => ⟨v.1, v.2⟩) fun o => (o.notBefore, o.notAfter)

def renderHint : Codec (RenderHint S) :=
  (barStyle.pair ((single f).pair ((single f).pair (optional string)))).iso
    (fun v => ⟨v.1, v.2.1, v.2.2.1, v.2.2.2⟩)
    fun h => (h.style, h.warnThreshold, h.criticalThreshold, h.note)

end Domain

def configEdit : Codec ConfigEdit :=
  .variants word
    (fun | .globalPollInterval _ => 0 | .providerPollInterval _ _ => 1 | .providerEnabled _ _ => 2)
    [.of (optional u32) .globalPollInterval
      fun | .globalPollInterval secs => some secs | _ => none,
     .of (string.pair (optional u32)) (fun v => .providerPollInterval v.1 v.2)
      fun | .providerPollInterval provider secs => some (provider, secs) | _ => none,
     .of (string.pair bool) (fun v => .providerEnabled v.1 v.2)
      fun | .providerEnabled provider enabled => some (provider, enabled)
                      | _ => none]

def providerSettings : Codec ProviderSettings :=
  (string.pair (bool.pair ((optional u32).pair u32))).iso
    (fun v => ⟨v.1, v.2.1, v.2.2.1, v.2.2.2⟩)
    fun p => (p.provider, p.enabled, p.pollIntervalSecs, p.effectivePollIntervalSecs)

def configView : Codec ConfigView :=
  ((optional u32).pair (u32.pair (u32.pair (list providerSettings)))).iso
    (fun v => ⟨v.1, v.2.1, v.2.2.1, v.2.2.2⟩)
    fun c => (c.pollIntervalSecs, c.defaultPollIntervalSecs, c.minPollIntervalSecs, c.providers)

section Messages

variable {F S : Type} (f : Formats F S)

def configState : Codec ConfigState :=
  (string.pair (long.pair (configView.pair ((instant f).pair ((list string).pair
    (optional string)))))).iso
      (fun v => ⟨v.1, v.2.1, v.2.2.1, v.2.2.2.1, v.2.2.2.2.1, v.2.2.2.2.2⟩)
      fun c => (c.path, c.generation, c.effective, c.loadedAt, c.warnings, c.error)

def accountHealth : Codec AccountHealth :=
  (accountId.pair (u32.pair ((optional string).pair ((optional (instant f)).pair u32)))).iso
    (fun v => ⟨v.1, v.2.1, v.2.2.1, v.2.2.2.1, v.2.2.2.2⟩)
    fun h => (h.account, h.consecutiveFailures, h.lastError, h.lastPollTs, h.pollIntervalSecs)

def providerHealth : Codec ProviderHealth :=
  (string.pair ((list (accountHealth f)).pair (u32.pair ((optional string).pair
    (optional string))))).iso
      (fun v => ⟨v.1, v.2.1, v.2.2.1, v.2.2.2.1, v.2.2.2.2⟩)
      fun p => (p.provider, p.accounts, p.consecutiveFailures, p.lastError, p.discoveryError)

def windowView : Codec (WindowView F S) :=
  ((quotaWindow f).pair ((renderHint f).pair (optional (observedStart f)))).iso
    (fun v => ⟨v.1, v.2.1, v.2.2⟩) fun w => (w.window, w.hint, w.observedStart)

def accountStatus : Codec (AccountStatus F S) :=
  (account.pair ((list (windowView f)).pair ((optional (pollEvent f)).pair
    ((optional (instant f)).pair u32)))).iso
      (fun v => ⟨v.1, v.2.1, v.2.2.1, v.2.2.2.1, v.2.2.2.2⟩)
      fun a => (a.account, a.windows, a.lastPoll, a.lastSuccess, a.pollIntervalSecs)

def historyPage : Codec (HistoryPage F) :=
  ((list (quotaSnapshot f)).pair ((optional (instant f)).pair (list (windowRollover f)))).iso
    (fun v => ⟨v.1, v.2.1, v.2.2⟩) fun p => (p.snapshots, p.earliest, p.rollovers)

/-- The variants of a request, in order. -/
def requestArms : List (Codec.Arm Request) :=
  [.of ((optional string).pair (optional accountId)) (fun v => .status v.1 v.2)
      fun | .status provider account => some (provider, account) | _ => none,
   .of (string.pair (optional accountId)) (fun v => .pollNow v.1 v.2)
      fun | .pollNow provider account => some (provider, account) | _ => none,
   .of ((pollId f).pair (long.pair u32)) (fun v => .awaitUpdate v.1 v.2.1 v.2.2)
      fun
       | .awaitUpdate since configGen timeoutMs => some (since, configGen, timeoutMs)
       | _ => none,
   .of
      (accountId.pair ((optional windowId).pair ((instant f).pair
        ((optional (instant f)).pair (optional u32)))))
      (fun v => .history v.1 v.2.1 v.2.2.1 v.2.2.2.1 v.2.2.2.2)
      fun
       | .history account window since «until» maxPoints =>
         some (account, window, since, «until», maxPoints)
       | _ => none,
   .of u32 .recentPolls
      fun | .recentPolls limit => some limit | _ => none,
   .of .unit (fun _ => .providers)
      fun | .providers => some () | _ => none,
   .of .unit (fun _ => .shutdown)
      fun | .shutdown => some () | _ => none,
   .of .unit (fun _ => .getConfig)
      fun | .getConfig => some () | _ => none,
   .of configEdit .setConfig
      fun | .setConfig edit => some edit | _ => none]

theorem indexed_requestArms : Codec.Indexed Request.variant 0 (requestArms f) := by
  repeat' first | exact trivial | (intro _; rfl) | apply And.intro

def request : Codec Request :=
  .variants word Request.variant (requestArms f) (indexed_requestArms f)

/-- The variants of a response, in order. -/
def responseArms : List (Codec.Arm (Response F S)) :=
  [.of (list (accountStatus f)) .status
      fun | .status accounts => some accounts | _ => none,
   .of (pollId f) .pollAccepted
      fun | .pollAccepted id => some id | _ => none,
   .of (pollEvent f) .update
      fun | .update event => some event | _ => none,
   .of .unit (fun _ => .noUpdate)
      fun | .noUpdate => some () | _ => none,
   .of (historyPage f) .history
      fun | .history page => some page | _ => none,
   .of (list (pollEvent f)) .recentPolls
      fun | .recentPolls events => some events | _ => none,
   .of (list (providerHealth f)) .providers
      fun | .providers health => some health | _ => none,
   .of .unit (fun _ => .ack)
      fun | .ack => some () | _ => none,
   .of (errorKind.pair string) (fun v => .err v.1 v.2)
      fun | .err kind message => some (kind, message) | _ => none,
   .of (configState f) .config
      fun | .config state => some state | _ => none]

theorem indexed_responseArms : Codec.Indexed Response.variant 0 (responseArms f) := by
  repeat' first | exact trivial | (intro _; rfl) | apply And.intro

def response : Codec (Response F S) :=
  .variants word Response.variant (responseArms f) (indexed_responseArms f)

end Messages
end Wire
end Teiryo
