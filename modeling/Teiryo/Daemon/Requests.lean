import Teiryo.Core.WireFormat
import Teiryo.Daemon.Health
import Teiryo.Daemon.RecentPolls

/-!
# Requests and their replies

`handle_request` in `teiryod/src/server.rs`: every request the wire knows, on the whole daemon.
Only `AwaitUpdate` may suspend. `SetConfig` also reads and replaces `config.toml`.
-/

namespace Teiryo

open Toml

variable {F S Layout : Type}

/-- What request handlers work on. -/
structure Service (F : Type) where
  discovery : Discovery F
  file : ConfigFile

/-- What the outside adds to one request: the clock, read twice, and whether the file can be
written. -/
structure RequestEnv where
  now : DateTime
  now' : DateTime
  writeFault : Option String := none

namespace Service

def daemon (s : Service F) : Daemon F := s.discovery.polls.daemon

def setDaemon (s : Service F) (d : Daemon F) : Service F :=
  { s with discovery := { s.discovery with polls := { s.discovery.polls with daemon := d } } }

section Handle

variable [F64 F] (toml : TomlCrates Layout) (json : SerdeJson F) (single : ℚ → S)

/-- Dispatch one request: a reply, its thresholds rounded to the `f32` they are, or where
`AwaitUpdate` suspends. -/
def handleRequest (s : Service F) (env : RequestEnv) :
    Request → (Response F S ⊕ Daemon.Await) × Service F
  | .status provider account =>
    (.inl (.status ((s.daemon.status provider account).map (·.map single))), s)
  | .pollNow provider account =>
    let polled := s.daemon.pollNow provider account
    (.inl (polled.1.map single), s.setDaemon polled.2)
  | .awaitUpdate since configGen _ =>
    match s.daemon.awaitUpdate since configGen with
    | .inl reply => (.inl (reply.map single), s)
    | .inr await => (.inr await, s)
  | .history account window since «until» maxPoints =>
    let reply := handleHistory s.daemon.state.storage account window since «until» maxPoints env.now
      env.now'
    (.inl (reply.map single), s)
  | .recentPolls limit =>
    match s.daemon.state.storage.recentPolls json limit with
    | .ok events => (.inl (.recentPolls events), s)
    | .error e => (.inl (.err .storage e.display), s)
  | .providers => (.inl (.providers (s.daemon.providerHealth s.discovery.discoveryErrors)), s)
  | .shutdown => (.inl .ack, s)
  | .getConfig => (.inl (.config s.daemon.state.configState), s)
  | .setConfig edit =>
    let set := s.daemon.setConfig toml s.file env.writeFault edit env.now
    (.inl (set.1.map single), { s.setDaemon set.2.1 with file := set.2.2 })

end Handle
end Service

/-- The replies each request may get. -/
inductive Answers : Request → Response F S → Prop where
  | status {provider : Option ProviderId} {account : Option AccountId}
      {accounts : List (AccountStatus F S)}
      (h : ∀ a ∈ accounts, provider.all (· == a.account.provider) &&
        account.all (· == a.account.id)) :
    Answers (.status provider account) (.status accounts)
  | pollAccepted {provider : ProviderId} {account : Option AccountId} (pollId : PollId) :
    Answers (.pollNow provider account) (.pollAccepted pollId)
  | pollRefused {provider : ProviderId} {account : Option AccountId} {kind : ErrorKind}
      (h : kind ∈ [ErrorKind.unknownProvider, .badRequest, .unknownAccount]) (message : String) :
    Answers (.pollNow provider account) (.err kind message)
  | update {since : PollId} {configGen : Nat} {timeoutMs : UInt32} {event : PollEvent F}
      (h : since < event.id) :
    Answers (.awaitUpdate since configGen timeoutMs) (.update event)
  | newConfig {since : PollId} {configGen : Nat} {timeoutMs : UInt32} {state : ConfigState}
      (h : configGen < state.generation) :
    Answers (.awaitUpdate since configGen timeoutMs) (.config state)
  | noUpdate {since : PollId} {configGen : Nat} {timeoutMs : UInt32} :
    Answers (.awaitUpdate since configGen timeoutMs) .noUpdate
  | history {account : AccountId} {window : Option WindowId} {since : DateTime}
      {«until» : Option DateTime} {maxPoints : Option UInt32} (page : HistoryPage F) :
    Answers (.history account window since «until» maxPoints) (.history page)
  | noHistory {account : AccountId} {window : Option WindowId} {since : DateTime}
      {«until» : Option DateTime} {maxPoints : Option UInt32} (message : String) :
    Answers (.history account window since «until» maxPoints) (.err .storage message)
  | recentPolls {limit : UInt32} {events : List (PollEvent F)}
      (h : events.length ≤ limit.toNat) :
    Answers (.recentPolls limit) (.recentPolls events)
  | noRecentPolls {limit : UInt32} (message : String) :
    Answers (.recentPolls limit) (.err .storage message)
  | providers (health : List ProviderHealth) : Answers .providers (.providers health)
  | ack : Answers .shutdown .ack
  | config (state : ConfigState) : Answers .getConfig (.config state)
  | configSet {edit : ConfigEdit} {state : ConfigState} (h : state.error = none) :
    Answers (.setConfig edit) (.config state)
  | configRefused {edit : ConfigEdit} (message : String) :
    Answers (.setConfig edit) (.err .badRequest message)

/-- The request a suspended `AwaitUpdate` is the handling of. -/
def Daemon.Await.Handles (a : Daemon.Await) : Request → Prop
  | .awaitUpdate since configGen _ => a.since = since ∧ a.configGen = configGen
  | _ => False

/-- The reply, or the suspended handling, of a request. -/
def Handled (request : Request) : Response F S ⊕ Daemon.Await → Prop
  | .inl reply => Answers request reply
  | .inr await => await.Handles request

namespace Service

section Spec

variable {s : Service F}

/-- The config's channel carries its generation. -/
def Numbered (s : Service F) : Prop :=
  s.daemon.configTx.value = s.daemon.state.configState.generation

theorem awaitUpdate_handled (single : ℚ → S) (hnumbered : s.Numbered) (since : PollId)
    (configGen : Nat) (timeoutMs : UInt32) :
    (∀ reply, s.daemon.awaitUpdate since configGen = .inl reply →
      Answers (.awaitUpdate since configGen timeoutMs) (reply.map single : Response F S)) ∧
      ∀ a, s.daemon.awaitUpdate since configGen = .inr a →
        a.Handles (.awaitUpdate since configGen timeoutMs) := by
  unfold Daemon.awaitUpdate
  split
  · rename_i event hevent
    obtain ⟨-, hnewer⟩ := Option.filter_eq_some_iff.mp hevent
    refine ⟨?_, by simp⟩
    rintro reply hreply
    cases hreply
    exact .update (of_decide_eq_true hnewer)
  · split
    · rename_i hgen
      refine ⟨?_, by simp⟩
      rintro reply hreply
      cases hreply
      exact .newConfig (hnumbered ▸ hgen)
    · refine ⟨by simp, ?_⟩
      rintro a ha
      cases ha
      exact ⟨rfl, rfl⟩

private theorem pollNow_answers (single : ℚ → S) (d : Daemon F) (provider : ProviderId)
    (account : Option AccountId) :
    Answers (.pollNow provider account)
      ((d.pollNow provider account).1.map single : Response F S) := by
  unfold Daemon.pollNow
  dsimp only
  split
  · exact .pollRefused (by simp) _
  · split
    · exact .pollRefused (by simp) _
    · split
      · exact .pollRefused (by simp) _
      · exact .pollAccepted _

private theorem setConfig_answers (single : ℚ → S) (toml : TomlCrates Layout) (d : Daemon F)
    (file : ConfigFile) (fault : Option String) (edit : ConfigEdit) (now : DateTime) :
    Answers (.setConfig edit)
      ((d.setConfig toml file fault edit now).1.map single : Response F S) := by
  unfold Daemon.setConfig
  split
  · exact .configRefused _
  · split
    · exact .configSet (d.installConfig_state _ none now).2.1
    · exact .configRefused _

variable [F64 F] (toml : TomlCrates Layout) (json : SerdeJson F) (single : ℚ → S)

theorem handleRequest_handled (hnumbered : s.Numbered) (env : RequestEnv)
    (request : Request) :
    Handled request (s.handleRequest toml json single env request).1 := by
  cases request with
  | status provider account =>
    refine Answers.status ?_
    intro a ha
    obtain ⟨status, hstatus, rfl⟩ := List.mem_map.mp ha
    obtain ⟨account', haccount, rfl⟩ := List.mem_map.mp hstatus
    exact (List.mem_filter.mp haccount).2
  | pollNow provider account => exact pollNow_answers single s.daemon provider account
  | awaitUpdate since configGen timeoutMs =>
    obtain ⟨hreply, hawait⟩ := awaitUpdate_handled single hnumbered since configGen timeoutMs
    simp only [handleRequest]
    split
    · rename_i reply heq
      exact hreply reply heq
    · rename_i await heq
      exact hawait await heq
  | history account window since «until» maxPoints =>
    simp only [handleRequest, handleHistory]
    split
    · exact Answers.history _
    · exact Answers.noHistory _
  | recentPolls limit =>
    simp only [handleRequest]
    split
    · rename_i events heq
      exact Answers.recentPolls (Storage.length_recentPolls_le heq)
    · exact Answers.noRecentPolls _
  | providers => exact Answers.providers _
  | shutdown => exact Answers.ack
  | getConfig => exact Answers.config _
  | setConfig edit =>
    exact setConfig_answers single toml s.daemon s.file env.writeFault edit env.now

end Spec
end Service
end Teiryo
