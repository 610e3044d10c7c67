import Mathlib.Data.Set.List
import Teiryo.Daemon.DiscoveryRuns
import Teiryo.Daemon.Failures
import Teiryo.Daemon.RetryAfter
import Teiryo.Providers.Credentials
import Teiryo.Providers.Isolation

/-!
# A poll, from the login to what is served

One poll of a Claude account, following `poll_outcome` of `teiryod/src/scheduler.rs` and the prober
of `claude/mod.rs`: the token, the answer of the usage endpoint, the windows read off it. Over whole
runs of a poll task, what the daemon serves and what the task waits out are read off these answers.
-/

namespace Teiryo

/-- Probe (transport-level) failure. -/
inductive ProbeError where
  | network (message : String)
  | auth (message : String)
  | rateLimited (retryAfter : Option StdDuration)
  | provider (message : String)
  deriving DecidableEq, Repr

def ProbeError.display : ProbeError → String
  | .network m => "network: " ++ m
  | .auth m => "auth rejected: " ++ m
  | .rateLimited _ => "rate limited"
  | .provider m => "provider error: " ++ m

def ParseError.display : ParseError → String
  | .schemaDrift m => "schema drift: " ++ m

private theorem toOption_eq_some_iff {ε α : Type} {x : Except ε α} {a : α} :
    x.toOption = some a ↔ x = .ok a := by
  cases x <;> simp [Except.toOption]

section Outcome

variable {F : Type}

/-- What came of one poll, given the adapter's answers. -/
def pollOutcome (credential : Except AuthError Credential)
    (probe : Credential → Except ProbeError RawResponse)
    (parse : RawResponse → Except ParseError (List (QuotaWindow F))) : Polled F :=
  match credential with
  -- The one place a poll stops without reaching the provider.
  | .error e => { outcome := .authError e.display, stage := .credential }
  | .ok cred =>
    match probe cred with
    | .error (.auth m) => { outcome := .authError m, stage := .provider }
    | .error (.rateLimited retryAfter) =>
      { outcome := .rateLimited retryAfter, stage := .provider }
    | .error e => { outcome := .networkError e.display, stage := .provider }
    | .ok raw =>
      match parse raw with
      | .ok windows => { outcome := .success windows, stage := .provider }
      | .error e => { outcome := .schemaDrift e.display, stage := .provider }

variable {credential : Except AuthError Credential} {cred : Credential}
  {probe : Credential → Except ProbeError RawResponse}
  {parse : RawResponse → Except ParseError (List (QuotaWindow F))}

private theorem reached_pollOutcome :
    (pollOutcome credential probe parse).reached = credential.toOption.isSome := by
  cases credential with
  | error e => rfl
  | ok cred =>
    cases hprobe : probe cred with
    | error e => cases e <;> simp [pollOutcome, hprobe, Polled.reached, Except.toOption]
    | ok raw =>
      cases hparse : parse raw <;>
        simp [pollOutcome, hprobe, hparse, Polled.reached, Except.toOption]

private theorem rateLimit_pollOutcome (retryAfter : Option StdDuration) :
    (pollOutcome (.ok cred) probe parse).outcome.rateLimit? = some retryAfter ↔
      probe cred = .error (.rateLimited retryAfter) := by
  cases hprobe : probe cred with
  | error e => cases e <;> simp [pollOutcome, hprobe, PollOutcome.rateLimit?]
  | ok raw =>
    cases hparse : parse raw <;> simp [pollOutcome, hprobe, hparse, PollOutcome.rateLimit?]

private theorem success_pollOutcome (windows : List (QuotaWindow F)) :
    (pollOutcome (.ok cred) probe parse).outcome = .success windows ↔
      ∃ raw, probe cred = .ok raw ∧ parse raw = .ok windows := by
  cases hprobe : probe cred with
  | error e => cases e <;> simp [pollOutcome, hprobe]
  | ok raw => cases hparse : parse raw <;> simp [pollOutcome, hprobe, hparse]

end Outcome

/-- What a request to the usage endpoint came to. -/
inductive HttpAnswer where
  /-- No client could be built. -/
  | noClient (message : String)
  /-- No response. -/
  | unsent (message : String)
  /-- A response, with its body unless the connection broke off in it. -/
  | response (status : UInt16) (headers : List (String × String))
      (body : Except String (List UInt8))
  deriving DecidableEq

namespace HttpAnswer

def isRateLimit : HttpAnswer → Bool
  | response status _ _ => status == 429
  | _ => false

/-- How long a rate limit asks to wait. -/
def retryAfter : HttpAnswer → Option StdDuration
  | response status headers _ => if status = 429 then retryAfterOf headers else none
  | _ => none

private theorem retryAfter_eq (a : HttpAnswer) :
    (if a.isRateLimit then some a.retryAfter else none).join = a.retryAfter := by
  cases a with
  | response status headers body =>
    by_cases hlimit : status = 429 <;> simp [isRateLimit, retryAfter, hlimit]
  | _ => rfl

/-- The body of a complete answer of status 200. -/
def okBody : HttpAnswer → Option (List UInt8)
  | response status _ (.ok body) => if status = 200 then some body else none
  | _ => none

end HttpAnswer

namespace Claude

/-- `StatusCode` as it is displayed, for the two statuses that are. -/
def statusText (status : UInt16) : String :=
  if status = 401 then "401 Unauthorized" else "403 Forbidden"

/-- What the prober makes of an answer. -/
def probeAnswer : HttpAnswer → Except ProbeError RawResponse
  | .noClient e => .error (.network ("building http client: " ++ e))
  | .unsent e => .error (.network e)
  | .response status headers body =>
    if status = 401 ∨ status = 403 then
      .error (.auth ("usage endpoint returned " ++ statusText status))
    else if status = 429 then .error (.rateLimited (retryAfterOf headers))
    else if status < 200 ∨ 300 ≤ status then
      .error (.provider ("usage endpoint returned " ++ toString status))
    else
      match body with
      | .error e => .error (.network e)
      | .ok body => .ok { status, body }

/-- Ask the usage endpoint, which answers a token. -/
def probe (endpoint : String → HttpAnswer) : Credential → Except ProbeError RawResponse
  | .oAuthToken token => probeAnswer (endpoint token)
  | other => .error (.auth ("claude adapter needs an OAuth token, got " ++ other.debug))

private theorem probeAnswer_limited_iff (a : HttpAnswer) (retryAfter : Option StdDuration) :
    probeAnswer a = .error (.rateLimited retryAfter) ↔
      a.isRateLimit = true ∧ retryAfter = a.retryAfter := by
  cases a with
  | noClient e => simp [probeAnswer, HttpAnswer.isRateLimit]
  | unsent e => simp [probeAnswer, HttpAnswer.isRateLimit]
  | response status headers body =>
    by_cases hlimit : status = 429
    · subst hlimit
      simp [probeAnswer, HttpAnswer.isRateLimit, HttpAnswer.retryAfter, eq_comm]
    · simp only [probeAnswer, hlimit, if_false, HttpAnswer.isRateLimit,
        beq_eq_false_iff_ne.mpr hlimit, Bool.false_eq_true, false_and, iff_false]
      split_ifs
      · simp
      · simp
      · cases body <;> simp

/-- A response the parser may take is a complete one of status 200. -/
theorem probeAnswer_ok_iff (a : HttpAnswer) (body : List UInt8) :
    probeAnswer a = .ok { status := 200, body } ↔ a.okBody = some body := by
  cases a with
  | noClient e => simp [probeAnswer, HttpAnswer.okBody]
  | unsent e => simp [probeAnswer, HttpAnswer.okBody]
  | response status headers answer =>
    by_cases hok : status = 200
    · subst hok
      cases answer <;> simp [probeAnswer, HttpAnswer.okBody]
    · have hnone : (HttpAnswer.response status headers answer).okBody = none := by
        cases answer <;> simp [HttpAnswer.okBody, hok]
      simp only [hnone, reduceCtorEq, iff_false, probeAnswer]
      split_ifs
      · simp
      · simp
      · simp
      · cases answer <;> simp [hok]

section Discovery

variable {F : Type} (serde : Serde F)

/-- The adapter's answer to a discovery. -/
def discovered (store : CredentialStore) : Discovered :=
  match discoverAccounts serde store with
  | .ok accounts => .ok accounts
  | .error e => .error e.display

/-- The answers of a run that are read off Claude's login stores. -/
def FromStores {G : Type} : DiscoveryInput G → Prop
  | .startup answer _ => ∃ store, answer = discovered serde store
  | .answered _ answer _ => ∃ store, answer = discovered serde store
  | _ => True

/-- A daemon whose adapters are Claude's, and have answered what the stores hold. -/
structure StoresOnly {G : Type} (s : Discovery G) : Prop where
  starting : ∀ a ∈ s.starting, a.provider = "claude"
  tasks : ∀ t ∈ s.tasks, t.adapter.provider = "claude"
  answers : ∀ e ∈ s.answers, e.1 = "claude" ∧ ∃ store, e.2 = discovered serde store

variable {serde}

private theorem startedBy_discovered (store : CredentialStore) :
    Discovery.startedBy (some (discovered serde store)) =
      if (loadCredentials serde store).isOk then
        [{ id := ⟨"claude:default"⟩, provider := "claude", label := "default" }]
      else [] := by
  unfold discovered discoverAccounts
  cases loadCredentials serde store with
  | error e => rfl
  | ok creds => rfl

private theorem discovered_found (store : CredentialStore) :
    (discovered serde store).found = (loadCredentials serde store).isOk := by
  unfold discovered discoverAccounts
  cases loadCredentials serde store with
  | error e => rfl
  | ok creds => rfl

section Runs

variable {G : Type} {s : Discovery G}

private theorem StoresOnly.ownAccounts (h : StoresOnly serde s) {i : DiscoveryInput G}
    (hi : FromStores serde i) : s.OwnAccounts i := by
  have howner : ∀ store, ∀ a ∈ Discovery.startedBy (some (discovered serde store)),
      a.provider = "claude" := by
    intro store a ha
    rw [startedBy_discovered] at ha
    split at ha
    · obtain rfl := List.mem_singleton.mp ha
      rfl
    · cases ha
  cases i with
  | startup answer env =>
    obtain ⟨store, rfl⟩ := hi
    intro adapter hadapter a ha
    rw [howner store a ha, h.starting adapter (List.mem_of_mem_head? hadapter)]
  | answered task answer env =>
    obtain ⟨store, rfl⟩ := hi
    intro t ht a ha
    rw [howner store a ha, h.tasks t (List.mem_of_getElem? ht)]
  | _ => trivial

variable [F64 G] {json : SerdeJson G}

private theorem storesOnly_step (h : StoresOnly serde s) {i : DiscoveryInput G}
    (hi : FromStores serde i) : StoresOnly serde (s.step json i) := by
  have hset : ∀ {task : Nat} {t t' : Rediscovery G}, s.tasks[task]? = some t →
      t'.adapter = t.adapter → ∀ u ∈ s.tasks.set task t', u.adapter.provider = "claude" := by
    intro task t t' ht hadapter u hu
    rcases List.mem_or_eq_of_mem_set hu with hu | rfl
    · exact h.tasks u hu
    · rw [hadapter]
      exact h.tasks t (List.mem_of_getElem? ht)
  have hgoes := Discovery.goes_step json s i
  generalize s.step json i = s' at hgoes ⊢
  cases hgoes with
  | idle => exact h
  | polled input haccounts => exact ⟨h.starting, h.tasks, h.answers⟩
  | moved _ ht hmoves hstop => exact ⟨h.starting, hset ht hmoves.live.1, h.answers⟩
  | @startup adapter rest hstarting answer env =>
    have hclaude : adapter.provider = "claude" := h.starting adapter (by simp [hstarting])
    have hrest : ∀ a ∈ rest, a.provider = "claude" :=
      fun a ha => h.starting a (by simp [hstarting, ha])
    have hanswers : ∀ e ∈ s.answers ++ [(adapter.provider, answer)],
        e.1 = "claude" ∧ ∃ store, e.2 = discovered serde store :=
      List.forall_mem_append.mpr ⟨h.answers, List.forall_mem_singleton.mpr ⟨hclaude, hi⟩⟩
    have hspawned : ∀ t ∈ (s.spawnRediscovery adapter).tasks, t.adapter.provider = "claude" :=
      List.forall_mem_append.mpr ⟨h.tasks, List.forall_mem_singleton.mpr hclaude⟩
    rcases answer with message | _ | ⟨a, accounts⟩
    · exact ⟨hrest, hspawned, hanswers⟩
    · exact ⟨hrest, hspawned, hanswers⟩
    · exact ⟨hrest, h.tasks, hanswers⟩
  | @answered task t ht hphase answer env =>
    have hclaude : t.adapter.provider = "claude" := h.tasks t (List.mem_of_getElem? ht)
    have hanswers : ∀ e ∈ s.answers ++ [(t.adapter.provider, answer)],
        e.1 = "claude" ∧ ∃ store, e.2 = discovered serde store :=
      List.forall_mem_append.mpr ⟨h.answers, List.forall_mem_singleton.mpr ⟨hclaude, hi⟩⟩
    rcases answer with message | _ | ⟨a, accounts⟩
    · exact ⟨h.starting, hset ht (Discovery.iterate_live _ t).1, hanswers⟩
    · exact ⟨h.starting, hset ht (Discovery.iterate_live _ t).1, hanswers⟩
    · exact ⟨h.starting, hset ht rfl, hanswers⟩

/-- A daemon that reads Claude's logins has the one account once a reading has found one, and reads
again until then. -/
theorem logins_discovered (storage : Storage G) (path : String) (now : DateTime)
    {adapter : Adapter G} (hadapter : adapter.provider = "claude")
    {inputs : List (DiscoveryInput G)} (hinputs : ∀ i ∈ inputs, FromStores serde i) :
    ∃ stores : List CredentialStore,
      ((Discovery.boot storage path [adapter] now).run json inputs).answersOf "claude" =
        stores.map (discovered serde) ∧
      (((Discovery.boot storage path [adapter] now).run json inputs).accounts.filter
          fun a => a.provider == "claude") =
        (if stores.any fun store => (loadCredentials serde store).isOk then
          [{ id := ⟨"claude:default"⟩, provider := "claude", label := "default" }]
        else []) ∧
      ((Discovery.boot storage path [adapter] now).run json inputs).Discovers inputs adapter := by
  have hmeet := @stepsMeet_of_inputs _ _ (Discovery.step json) _ _
    (Discovery.boot storage path [adapter] now) hinputs
  have hboot : StoresOnly serde (Discovery.boot storage path [adapter] now) := by
    refine ⟨?_, ?_, ?_⟩
    · intro a ha
      obtain rfl := List.mem_singleton.mp ha
      exact hadapter
    · intro t ht
      cases ht
    · intro e he
      cases he
  have hstores := hmeet.invariant hboot fun s i h hi => storesOnly_step h hi
  obtain ⟨hinv, hasked⟩ := Discovery.inv_run storage path now (by simp)
    (hmeet.imp hboot (fun s i h hi => storesOnly_step h hi) fun s i h hi => h.ownAccounts hi)
  have hdiscovers := hinv.discovers
    (Discovery.stoppedByShutdown_run storage path now [adapter] inputs)
    (hasked adapter List.mem_cons_self)
  change StoresOnly serde ((Discovery.boot storage path [adapter] now).run json inputs) at hstores
  generalize (Discovery.boot storage path [adapter] now).run json inputs = s at hstores hdiscovers
  have hread : ∀ answer ∈ s.answersOf "claude", answer ∈ Set.range (discovered serde) := by
    intro answer hanswer
    obtain ⟨e, he, rfl⟩ := List.mem_map.mp hanswer
    obtain ⟨-, store, hstore⟩ := hstores.answers e (List.mem_of_mem_filter he)
    exact ⟨store, hstore.symm⟩
  obtain ⟨stores, hmap⟩ : s.answersOf "claude" ∈ Set.range (List.map (discovered serde)) := by
    rw [Set.range_list_map]
    exact hread
  refine ⟨stores, hmap.symm, ?_, hdiscovers⟩
  have haccounts := hdiscovers.accounts
  have hfailed := hdiscovers.failed
  rw [hadapter, Discovery.lastAnswer, ← hmap] at haccounts
  rw [hadapter, ← hmap] at hfailed
  rw [haccounts]
  rcases List.eq_nil_or_concat stores with rfl | ⟨before, last, rfl⟩
  · rfl
  · -- no reading before the last one found a login
    have hbefore : (before.any fun store => (loadCredentials serde store).isOk) = false := by
      rw [List.any_eq_false]
      intro store hstore
      rw [← discovered_found, hfailed (discovered serde store) ?_]
      · simp
      · rw [List.concat_eq_append, List.map_append, List.map_singleton, List.dropLast_concat]
        exact List.mem_map_of_mem hstore
    rw [List.concat_eq_append, List.map_append, List.map_singleton, List.getLast?_concat,
      startedBy_discovered, List.any_append, hbefore]
    simp

end Runs

/-- A decoder that takes anything for one login. -/
def anyLogin : Serde ℚ where
  fromSlice _ := .ok (.object [("claudeAiOauth",
    .object [("accessToken", .string "token"), ("expiresAt", .number "1")])])
  unexpected _ := "unexpected document"
  f64 _ := none
  dateTime _ := none

def credentialsFile (file : FileRead) : CredentialStore where
  path := "/home/user/.claude/.credentials.json"
  keychainFallback := false
  fileExists := true
  file
  keychain := .timedOut

/-- There is no login at startup and there is one when the daemon reads again. -/
def lateLogin : List (DiscoveryInput ℚ) := [
  .startup (discovered anyLogin (credentialsFile .notFound)) { now := 0 }, .started 0, .elapsed 0,
  .answered 0 (discovered anyLogin (credentialsFile (.bytes []))) { now := 1 }]

theorem logins_discovered_lateLogin :
    ∃ stores : List CredentialStore,
      ((Discovery.boot .empty "config.toml" [Discovery.claudeAdapter] 0).run (.table [] [])
        lateLogin).answersOf "claude" = stores.map (discovered anyLogin) ∧
      (((Discovery.boot .empty "config.toml" [Discovery.claudeAdapter] 0).run (.table [] [])
          lateLogin).accounts.filter fun a => a.provider == "claude") =
        (if stores.any fun store => (loadCredentials anyLogin store).isOk then
          [{ id := ⟨"claude:default"⟩, provider := "claude", label := "default" }]
        else []) ∧
      ((Discovery.boot .empty "config.toml" [Discovery.claudeAdapter] 0).run (.table [] [])
        lateLogin).Discovers lateLogin Discovery.claudeAdapter := by
  refine logins_discovered .empty "config.toml" 0 rfl ?_
  simp [lateLogin, FromStores]


end Discovery

end Claude

/-- One poll of a Claude account: what its login store and the endpoint answer, and the rest of its
event. -/
structure ClaudePoll where
  store : Claude.CredentialStore
  nowMs : Int
  endpoint : String → HttpAnswer
  id : PollId
  ts : DateTime
  latencyMs : UInt32
  faults : Storage.Faults

namespace ClaudePoll

variable {F : Type} [F64 F] (serde : Serde F)

/-- The poll, as the scheduler makes it. -/
def polled (p : ClaudePoll) : Polled F :=
  pollOutcome (Claude.credentialFor serde p.store p.nowMs) (Claude.probe p.endpoint)
    (Claude.parse serde)

def wakeup (p : ClaudePoll) : Wakeup F := .polled (p.polled serde) p.id p.ts p.latencyMs p.faults

/-- The answer the endpoint gave, when there was a token to ask with. -/
def answer (p : ClaudePoll) : Option HttpAnswer :=
  (Claude.liveToken serde p.store p.nowMs).map p.endpoint

/-- The windows the poll read: those of a complete answer of status 200 that parses. -/
def read (p : ClaudePoll) : Option (List (QuotaWindow F)) :=
  ((p.answer serde).bind HttpAnswer.okBody).bind fun body =>
    (Claude.parse serde { status := 200, body }).toOption

variable {serde} {p : ClaudePoll}

private theorem reached_polled : (p.polled serde).reached = (p.answer serde).isSome := by
  unfold answer polled
  rw [reached_pollOutcome]
  cases htoken : Claude.liveToken serde p.store p.nowMs with
  | none =>
    obtain ⟨e, he⟩ := Claude.credentialFor_of_none htoken
    rw [he]
    rfl
  | some token =>
    rw [Claude.credentialFor_of_live htoken]
    rfl

private theorem rateLimit_polled {a : HttpAnswer} (h : p.answer serde = some a) :
    (p.polled serde).outcome.rateLimit? = if a.isRateLimit then some a.retryAfter else none := by
  obtain ⟨token, htoken, rfl⟩ := Option.map_eq_some_iff.mp h
  unfold polled
  rw [Claude.credentialFor_of_live htoken]
  ext retryAfter
  rw [rateLimit_pollOutcome, Claude.probe, Claude.probeAnswer_limited_iff]
  by_cases hlimit : (p.endpoint token).isRateLimit = true
  · simp [hlimit, eq_comm]
  · simp [hlimit]

private theorem parse_status {raw : RawResponse} {windows : List (QuotaWindow F)}
    (h : Claude.parse serde raw = .ok windows) : raw.status = 200 := by
  by_contra hne
  simp [Claude.parse, hne] at h

private theorem success_polled (windows : List (QuotaWindow F)) :
    (p.polled serde).outcome = .success windows ↔ p.read serde = some windows := by
  unfold read answer polled
  cases htoken : Claude.liveToken serde p.store p.nowMs with
  | none =>
    obtain ⟨e, he⟩ := Claude.credentialFor_of_none htoken
    simp [he, pollOutcome]
  | some token =>
    rw [Claude.credentialFor_of_live htoken, success_pollOutcome]
    simp only [Option.map_some, Option.bind_some, Option.bind_eq_some_iff, toOption_eq_some_iff]
    constructor
    · rintro ⟨⟨status, body⟩, hprobe, hparse⟩
      obtain rfl : status = 200 := parse_status hparse
      exact ⟨body, (Claude.probeAnswer_ok_iff _ body).mp hprobe, hparse⟩
    · rintro ⟨body, hbody, hparse⟩
      exact ⟨_, (Claude.probeAnswer_ok_iff _ body).mpr hbody, hparse⟩

private theorem isSuccess_polled : (p.polled serde).outcome.isSuccess = (p.read serde).isSome := by
  cases hread : p.read serde with
  | some windows => rw [(success_polled windows).mpr hread]; rfl
  | none =>
    cases houtcome : (p.polled serde).outcome with
    | success windows => cases hread.symm.trans ((success_polled windows).mp houtcome)
    | _ => rfl

private theorem windows_polled : (p.polled serde).outcome.windows = (p.read serde).getD [] := by
  cases hread : p.read serde with
  | some windows => rw [(success_polled windows).mpr hread]; rfl
  | none =>
    have hfail := @isSuccess_polled F _ serde p
    rw [hread] at hfail
    exact Daemon.windows_of_failure hfail

variable (serde) in
/-- The event the account's poll task publishes of it. -/
def event (account : Account) (poll : PollTrigger × ClaudePoll) : PollEvent F :=
  PollTask.event { account } poll.1 (poll.2.polled serde) poll.2.id poll.2.ts poll.2.latencyMs

end ClaudePoll

/-! ## A poll task over a whole run -/

/-- Nothing that polls of the account left was touched. -/
structure KeepsPolls {F : Type} (account : Account) (d d' : Daemon F) : Prop where
  latestPoll : d'.state.latestPoll.get account.id = d.state.latestPoll.get account.id
  latestSuccess : d'.state.latestSuccess.get account.id = d.state.latestSuccess.get account.id
  health : d'.state.health.get (account.provider, account.id) =
    d.state.health.get (account.provider, account.id)

inductive ClaudeInput (F : Type) (account : Account) where
  /-- The poll under way ends with these answers. -/
  | polled (p : ClaudePoll)
  /-- Any other wakeup. -/
  | woken (w : Wakeup F)
      (other : ∀ polled id ts latencyMs faults, w ≠ .polled polled id ts latencyMs faults)
  /-- The rest of the daemon runs. -/
  | elsewhere (change : Daemon F → Daemon F) (untouched : ∀ d, KeepsPolls account d (change d))

/-- The poll task of a Claude account in its daemon. Beside them, the polls it made, each with what
triggered it, and those since it was last parked that had a token. -/
structure ClaudeTask (F : Type) where
  daemon : Daemon F
  task : PollTask
  polls : List (PollTrigger × ClaudePoll) := []
  asked : List ClaudePoll := []

namespace ClaudeTask

variable {F : Type} [F64 F] (serde : Serde F) (json : SerdeJson F) {account : Account}

def step (s : ClaudeTask F) : ClaudeInput F account → ClaudeTask F
  | .polled p =>
    match s.task.phase with
    | .polling trigger =>
      let (daemon, task) := s.task.step json s.daemon (p.wakeup serde)
      { daemon, task
        polls := s.polls ++ [(trigger, p)]
        asked := if task.phase = .parked then []
          else s.asked ++ if (p.answer serde).isSome then [p] else [] }
    | _ => s
  | .woken w _ =>
    let (daemon, task) := s.task.step json s.daemon w
    { s with daemon, task, asked := if task.phase = .parked then [] else s.asked }
  | .elsewhere change _ => { s with daemon := change s.daemon }

def run (s : ClaudeTask F) (inputs : List (ClaudeInput F account)) : ClaudeTask F :=
  inputs.foldl (step serde json) s

end ClaudeTask

/-- One stretch of a poll task that ends no poll: what polls left stays, and so do the strikes
unless the task parks. -/
structure EndsNoPoll {F : Type} (d d' : Daemon F) (t t' : PollTask) : Prop where
  untouched : KeepsPolls t.account d d'
  account : t'.account = t.account
  throttle : t'.gate.throttle = if t'.phase = .parked then {} else t.gate.throttle

namespace PollTask

variable {F : Type} {json : SerdeJson F} {d : Daemon F} {t : PollTask}

private theorem endsNoPoll_refl (h : t.phase = .parked → t.gate.throttle = {}) :
    EndsNoPoll d d t t := by
  refine ⟨⟨rfl, rfl, rfl⟩, rfl, ?_⟩
  split
  · rename_i hparked
    exact h hparked
  · rfl

private theorem endsNoPoll_iterate : EndsNoPoll d (iterate d t).1 t (iterate d t).2 := by
  unfold iterate
  cases d.state.schedules.get t.key with
  | none => exact ⟨⟨rfl, rfl, rfl⟩, rfl, rfl⟩
  | some tx =>
    simp only
    split <;> split <;> exact ⟨⟨rfl, rfl, rfl⟩, rfl, rfl⟩

variable [F64 F]

omit [F64 F] in
private theorem endsNoPoll_receive (h : t.phase = .parked → t.gate.throttle = {}) :
    EndsNoPoll d (receive d t).1 t (receive d t).2 := by
  unfold receive
  cases (d.state.mailbox t.key).bind Mailbox.recv with
  | none => exact endsNoPoll_refl h
  | some next => exact ⟨⟨rfl, rfl, rfl⟩, rfl, rfl⟩

private theorem endsNoPoll_step (h : t.phase = .parked → t.gate.throttle = {}) {w : Wakeup F}
    (other : ∀ polled id ts latencyMs faults, w ≠ .polled polled id ts latencyMs faults) :
    EndsNoPoll d (t.step json d w).1 t (t.step json d w).2 := by
  cases w with
  | polled polled id ts latencyMs faults => exact absurd rfl (other polled id ts latencyMs faults)
  | started =>
    simp only [step]
    split
    · exact endsNoPoll_iterate
    · exact endsNoPoll_refl h
  | elapsed =>
    simp only [step]
    split
    · exact ⟨⟨rfl, rfl, rfl⟩, rfl, rfl⟩
    · exact ⟨⟨rfl, rfl, rfl⟩, rfl, rfl⟩
    · exact endsNoPoll_refl h
  | trigger =>
    simp only [step]
    split
    · exact endsNoPoll_receive h
    · exact endsNoPoll_receive h
    · exact endsNoPoll_refl h
  | scheduleChanged =>
    simp only [step]
    split
    -- A schedule that was not sent again leaves the task where it waits.
    iterate 3
      · split
        · exact endsNoPoll_iterate
        · exact endsNoPoll_refl h
    · exact endsNoPoll_refl h
  | resolved ok =>
    simp only [step]
    split
    · split
      · obtain ⟨huntouched, haccount, hthrottle⟩ := @endsNoPoll_iterate F d
          { t with gate := t.gate.credentialOk.1, pollImmediately := true }
        exact ⟨huntouched, haccount, hthrottle⟩
      · exact endsNoPoll_iterate
    · exact endsNoPoll_refl h
  | shutdown =>
    have hstop : EndsNoPoll d d t { t with phase := .stopped } := ⟨⟨rfl, rfl, rfl⟩, rfl, rfl⟩
    simp only [step]
    split
    · exact hstop
    · exact hstop
    · exact hstop
    · exact endsNoPoll_refl h

/-- A poll that ends is recorded, and folded into the gate the task goes on with. -/
theorem step_polled {trigger : PollTrigger} (h : t.phase = .polling trigger) (polled : Polled F)
    (id : PollId) (ts : DateTime) (latencyMs : UInt32) (faults : Storage.Faults) :
    let after := t.step json d (.polled polled id ts latencyMs faults)
    let recorded := Daemon.record json d (faults, t.event trigger polled id ts latencyMs)
    KeepsPolls t.account recorded after.1 ∧ after.2.account = t.account ∧
      after.2.gate.throttle =
        if after.2.phase = .parked then {} else t.gate.throttle.record polled := by
  obtain ⟨huntouched, haccount, hthrottle⟩ := @endsNoPoll_iterate F
    (Daemon.record json d (faults, t.event trigger polled id ts latencyMs))
    { t with gate := (t.gate.record polled).1 }
  simp only [step, h]
  exact ⟨huntouched, haccount, hthrottle⟩

end PollTask

namespace ClaudeTask

variable {F : Type} [F64 F] (serde : Serde F) (json : SerdeJson F) {account : Account}

/-- What holds at every moment of a run. -/
structure Inv (account : Account) (s : ClaudeTask F) : Prop where
  ofAccount : s.task.account = account
  caches : Daemon.LiveCaches s.daemon account (s.polls.map (ClaudePoll.event serde account))
  throttle : s.task.gate.throttle = Throttle.recordAll {} (s.asked.map (ClaudePoll.polled serde))
  asked : ∀ p ∈ s.asked, (p.answer serde).isSome = true
  parked : s.task.phase = .parked → s.asked = []

variable {serde json} {s : ClaudeTask F}

omit [F64 F] in
private theorem liveCaches_untouched {d d' : Daemon F} {events : List (PollEvent F)}
    (h : Daemon.LiveCaches d account events) (hd : KeepsPolls account d d') :
    Daemon.LiveCaches d' account events := by
  refine ⟨?_, ?_, ?_, ?_⟩
  · rw [hd.latestPoll, h.latestPoll]
  · rw [hd.latestSuccess, h.latestSuccess]
  · rw [hd.health, h.failures]
  · rw [hd.health, h.lastError]

private theorem Inv.parked_throttle (h : Inv serde account s) (hparked : s.task.phase = .parked) :
    s.task.gate.throttle = {} := by
  rw [h.throttle, h.parked hparked]
  rfl

private theorem recordAll_asked (asked : List ClaudePoll) (p : ClaudePoll) :
    Throttle.recordAll {} ((asked ++ if (p.answer serde).isSome then [p] else []).map
      (ClaudePoll.polled serde)) =
      (Throttle.recordAll {} (asked.map (ClaudePoll.polled serde))).record (p.polled serde) := by
  cases hasked : (p.answer serde).isSome with
  | true => simp [Throttle.recordAll, List.foldl_append]
  | false =>
    rw [Throttle.record_unreached _ _ (ClaudePoll.reached_polled.trans hasked)]
    simp

private theorem inv_woken (h : Inv serde account s) {w : Wakeup F}
    (other : ∀ polled id ts latencyMs faults, w ≠ .polled polled id ts latencyMs faults) :
    Inv serde account (@step F _ serde json account s (.woken w other)) := by
  obtain ⟨huntouched, haccount, hthrottle⟩ :=
    @PollTask.endsNoPoll_step F json s.daemon s.task _ h.parked_throttle w other
  rw [h.ofAccount] at huntouched
  refine ⟨haccount.trans h.ofAccount, liveCaches_untouched h.caches huntouched, ?_, ?_, ?_⟩
  · rw [h.throttle] at hthrottle
    simp only [step]
    rw [hthrottle]
    split <;> rfl
  · intro p hp
    simp only [step] at hp
    split at hp
    · cases hp
    · exact h.asked p hp
  · intro hparked
    exact if_pos hparked

private theorem inv_polled (h : Inv serde account s) (p : ClaudePoll) :
    Inv serde account (@step F _ serde json account s (.polled p)) := by
  cases hphase : s.task.phase with
  | polling trigger =>
    obtain ⟨huntouched, haccount, hthrottle⟩ := @PollTask.step_polled F json s.daemon s.task _
      trigger hphase (p.polled serde) p.id p.ts p.latencyMs p.faults
    have hevent : s.task.event trigger (p.polled serde) p.id p.ts p.latencyMs =
        ClaudePoll.event serde account (trigger, p) := by
      rw [← h.ofAccount]
      rfl
    have hcaches : Daemon.LiveCaches (Daemon.record json s.daemon
        (p.faults, ClaudePoll.event serde account (trigger, p))) account
        (s.polls.map (ClaudePoll.event serde account) ++
          [ClaudePoll.event serde account (trigger, p)]) :=
      Daemon.liveCaches_record h.caches rfl rfl
    rw [hevent, h.ofAccount] at huntouched
    simp only [step, hphase]
    refine ⟨haccount.trans h.ofAccount, ?_, ?_, ?_, fun hparked => if_pos hparked⟩
    · rw [List.map_append, List.map_singleton]
      exact liveCaches_untouched hcaches huntouched
    · rw [ClaudePoll.wakeup, hthrottle]
      split
      · rfl
      · rw [h.throttle, recordAll_asked]
    · intro q hq
      split at hq
      · cases hq
      · rcases List.mem_append.mp hq with hq | hq
        · exact h.asked q hq
        · split at hq
          · rename_i hasked
            obtain rfl := List.mem_singleton.mp hq
            exact hasked
          · cases hq
  | _ =>
    simp only [step, hphase]
    exact h

theorem inv_step (h : Inv serde account s) (i : ClaudeInput F account) :
    Inv serde account (s.step serde json i) := by
  cases i with
  | polled p => exact inv_polled h p
  | woken w other => exact inv_woken h other
  | elsewhere change untouched =>
    exact ⟨h.ofAccount, liveCaches_untouched h.caches (untouched s.daemon), h.throttle, h.asked,
      h.parked⟩

/-- A task that starts on a daemon. -/
def start (daemon : Daemon F) (account : Account) : ClaudeTask F := { daemon, task := { account } }

theorem inv_run {daemon : Daemon F} (h : Daemon.Unseen daemon account)
    (inputs : List (ClaudeInput F account)) :
    Inv serde account ((start daemon account).run serde json inputs) := by
  have hstart : Inv serde account (start daemon account) := by
    refine ⟨rfl, ⟨h.latestPoll, h.latestSuccess, ?_, ?_⟩, rfl, ?_, fun _ => rfl⟩
    · simp only [start, h.health]
      rfl
    · simp only [start, h.health]
      rfl
    · exact fun p hp => absurd hp List.not_mem_nil
  unfold run
  induction inputs using List.reverseRecOn with
  | nil => exact hstart
  | append_singleton inputs i ih =>
    rw [List.foldl_append]
    exact inv_step ih i

/-! ## What the polls tell -/

variable (serde) in
/-- What is served of the account, and what its task waits out, from the answers alone. -/
structure Told (account : Account) (s : ClaudeTask F) : Prop where
  /-- The windows are those of the last poll that read any. -/
  windows : ∀ a ∈ s.daemon.status none (some account.id),
    a.windows.map (·.window) = ((s.polls.filterMap fun p => p.2.read serde).getLast?).getD []
  /-- The failures are the polls since then, which read nothing. -/
  failures : ((s.daemon.state.health.get (account.provider, account.id)).getD
      {}).consecutiveFailures =
    UInt32.ofNat (s.polls.rtakeWhile fun p => (p.2.read serde).isNone).length
  healthy : ((s.daemon.state.health.get (account.provider, account.id)).getD {}).lastError = none ↔
    ∀ last ∈ s.polls.getLast?, (last.2.read serde).isSome = true
  /-- The strikes are the rate limits since the last other answer. -/
  strikes : s.task.gate.throttle.strikes.toNat =
    min ((s.asked.filterMap (ClaudePoll.answer serde)).rtakeWhile HttpAnswer.isRateLimit).length
      (2 ^ 32 - 1)
  retryAfter : s.task.gate.throttle.retryAfter =
    (s.asked.filterMap (ClaudePoll.answer serde)).getLast?.bind HttpAnswer.retryAfter

private theorem windows_told (polls : List (PollTrigger × ClaudePoll)) :
    previousWindows ((polls.map (ClaudePoll.event serde account)).filter
      (·.outcome.isSuccess)).getLast? =
      ((polls.filterMap fun p => p.2.read serde).getLast?).getD [] := by
  induction polls using List.reverseRecOn with
  | nil => rfl
  | append_singleton polls p ih =>
    have hsuccess : (ClaudePoll.event serde account p).outcome.isSuccess =
        (p.2.read serde).isSome := ClaudePoll.isSuccess_polled
    have hwindows : (ClaudePoll.event serde account p).outcome.windows =
        (p.2.read serde).getD [] := ClaudePoll.windows_polled
    rw [List.map_append, List.filter_append, List.filterMap_append]
    cases hread : p.2.read serde with
    | none =>
      rw [hread] at hsuccess
      simpa [hread, hsuccess] using ih
    | some windows =>
      rw [hread] at hsuccess hwindows
      simpa [hread, hsuccess, previousWindows] using hwindows

private theorem failuresSince_told (polls : List (PollTrigger × ClaudePoll)) :
    failuresSince (polls.map (ClaudePoll.event serde account)) =
      (polls.rtakeWhile fun p => (p.2.read serde).isNone).length := by
  induction polls using List.reverseRecOn with
  | nil => rfl
  | append_singleton polls p ih =>
    have hsuccess : (ClaudePoll.event serde account p).outcome.isSuccess =
        (p.2.read serde).isSome := ClaudePoll.isSuccess_polled
    rw [List.map_append, List.map_singleton, failuresSince_concat, hsuccess, ih]
    cases hread : p.2.read serde with
    | none =>
      rw [List.rtakeWhile_concat_pos _ _ _ (by simp [hread])]
      simp
    | some windows =>
      rw [List.rtakeWhile_concat_neg _ _ _ (by simp [hread])]
      simp

private theorem lastError_told (polls : List (PollTrigger × ClaudePoll)) :
    (polls.map (ClaudePoll.event serde account)).getLast?.bind (·.outcome.errorMessage) = none ↔
      ∀ last ∈ polls.getLast?, (last.2.read serde).isSome = true := by
  rw [List.getLast?_map]
  cases polls.getLast? with
  | none => simp
  | some last =>
    have hsuccess : (ClaudePoll.event serde account last).outcome.isSuccess =
        (last.2.read serde).isSome := ClaudePoll.isSuccess_polled
    simp [PollOutcome.errorMessage_eq_none_iff, hsuccess]

private theorem limited_told {asked : List ClaudePoll}
    (h : ∀ p ∈ asked, (p.answer serde).isSome = true) :
    ((asked.map (ClaudePoll.polled serde)).rtakeWhile Polled.isRateLimited).length =
      ((asked.filterMap (ClaudePoll.answer serde)).rtakeWhile HttpAnswer.isRateLimit).length := by
  induction asked using List.reverseRecOn with
  | nil => rfl
  | append_singleton asked p ih =>
    have hasked := ih fun q hq => h q (List.mem_append_left _ hq)
    obtain ⟨a, ha⟩ := Option.isSome_iff_exists.mp (h p (by simp))
    have hlimited : (p.polled serde).isRateLimited = a.isRateLimit := by
      rw [Polled.isRateLimited, ClaudePoll.rateLimit_polled ha]
      cases a.isRateLimit <;> rfl
    have hanswer : [p].filterMap (ClaudePoll.answer serde) = [a] := by simp [ha]
    rw [List.map_append, List.map_singleton, List.filterMap_append, hanswer]
    by_cases hlimit : a.isRateLimit = true
    · rw [List.rtakeWhile_concat_pos _ _ _ (hlimited.trans hlimit),
        List.rtakeWhile_concat_pos _ _ _ hlimit]
      simp [hasked]
    · rw [List.rtakeWhile_concat_neg _ _ _ (hlimited ▸ hlimit),
        List.rtakeWhile_concat_neg _ _ _ hlimit]
      rfl

private theorem throttle_told {asked : List ClaudePoll}
    (h : ∀ p ∈ asked, (p.answer serde).isSome = true) :
    (Throttle.recordAll {} (asked.map (ClaudePoll.polled serde))).strikes.toNat =
        min ((asked.filterMap (ClaudePoll.answer serde)).rtakeWhile
          HttpAnswer.isRateLimit).length (2 ^ 32 - 1) ∧
      (Throttle.recordAll {} (asked.map (ClaudePoll.polled serde))).retryAfter =
        (asked.filterMap (ClaudePoll.answer serde)).getLast?.bind HttpAnswer.retryAfter := by
  have hreached : ∀ polled ∈ asked.map (ClaudePoll.polled serde), polled.reached = true := by
    intro polled hpolled
    obtain ⟨p, hp, rfl⟩ := List.mem_map.mp hpolled
    exact ClaudePoll.reached_polled.trans (h p hp)
  obtain ⟨hstrikes, hretry⟩ := Throttle.recordAll_reached _ hreached
  refine ⟨by rw [hstrikes, limited_told h], ?_⟩
  rw [hretry]
  cases asked using List.reverseRecOn with
  | nil => rfl
  | append_singleton asked p =>
    obtain ⟨a, ha⟩ := Option.isSome_iff_exists.mp (h p (by simp))
    rw [List.map_append, List.map_singleton, List.getLast?_concat, Option.bind_some,
      ClaudePoll.rateLimit_polled ha]
    simp [ha, HttpAnswer.retryAfter_eq]

/-- Over every run of a poll task, whatever wakes it and whatever else the daemon does, the windows
served, the health reported and the rate limit waited out are those of the endpoint's answers. -/
theorem polls_told (serde : Serde F) (json : SerdeJson F) {daemon : Daemon F} {account : Account}
    (h : Daemon.Unseen daemon account) (inputs : List (ClaudeInput F account)) :
    Told serde account ((start daemon account).run serde json inputs) := by
  have hinv := @inv_run F _ serde json account daemon h inputs
  obtain ⟨hstrikes, hretry⟩ := throttle_told hinv.asked
  refine ⟨?_, ?_, ?_, ?_, ?_⟩
  · intro a ha
    simp only [Daemon.status, List.mem_map, List.mem_filter] at ha
    obtain ⟨served, ⟨-, hserved⟩, rfl⟩ := ha
    have hid : served.id = account.id := by
      simp only [Option.all_none, Option.all_some, Bool.true_and, beq_iff_eq] at hserved
      exact hserved.symm
    simp only [List.map_map, Function.comp_def, List.map_id', hid]
    rw [hinv.caches.latestSuccess]
    exact windows_told _
  · rw [hinv.caches.failures, failuresSince_told]
  · rw [hinv.caches.lastError, lastError_told]
  · rw [hinv.throttle, hstrikes]
  · rw [hinv.throttle, hretry]

/-! ## What the polls keep to themselves -/

end ClaudeTask

namespace ClaudePoll

variable {F : Type} [F64 F] (serde : Serde F)

/-- Two polls that differ in the text of the login's token, and in nothing else that is read of
their stores or answered to them. -/
structure SameButToken (p q : ClaudePoll) : Prop where
  login : (Claude.loadCredentials serde p.store).map (·.expiresAtMs) =
    (Claude.loadCredentials serde q.store).map (·.expiresAtMs)
  answer : p.answer serde = q.answer serde
  nowMs : p.nowMs = q.nowMs
  id : p.id = q.id
  ts : p.ts = q.ts
  latencyMs : p.latencyMs = q.latencyMs
  faults : p.faults = q.faults

variable {serde} {p q : ClaudePoll}

omit [F64 F] in
/-- A login that gives no token says why without it. -/
theorem SameButToken.error (h : SameButToken serde p q) {e : AuthError}
    (hp : Claude.credentialFor serde p.store p.nowMs = .error e) :
    Claude.credentialFor serde q.store q.nowMs = .error e := by
  have hlogin := h.login
  rw [← h.nowMs]
  unfold Claude.credentialFor at hp ⊢
  cases hloadp : Claude.loadCredentials serde p.store with
  | error e' =>
    cases hloadq : Claude.loadCredentials serde q.store with
    | error e'' =>
      simp only [hloadp, hloadq, Except.map, Except.error.injEq] at hlogin hp ⊢
      exact hlogin.symm.trans hp
    | ok creds => simp [hloadp, hloadq, Except.map] at hlogin
  | ok creds =>
    cases hloadq : Claude.loadCredentials serde q.store with
    | error e'' => simp [hloadp, hloadq, Except.map] at hlogin
    | ok creds' =>
      simp only [hloadp, hloadq, Except.map, Except.ok.injEq] at hlogin
      simp only [hloadp, Claude.ClaudeCredentials.isExpired, hlogin] at hp
      simp only [Claude.ClaudeCredentials.isExpired]
      split at hp
      · rename_i hexpired
        simp only [hexpired, if_true]
        exact hp
      · cases hp

private theorem SameButToken.polled_eq (h : SameButToken serde p q) :
    p.polled serde = q.polled serde := by
  have hanswer := h.answer
  unfold ClaudePoll.answer at hanswer
  unfold polled
  cases hp : Claude.liveToken serde p.store p.nowMs with
  | none =>
    obtain ⟨e, he⟩ := Claude.credentialFor_of_none hp
    rw [he, h.error he]
    rfl
  | some token =>
    cases hq : Claude.liveToken serde q.store q.nowMs with
    | none => simp [hp, hq] at hanswer
    | some token' =>
      rw [hp, hq, Option.map_some, Option.map_some, Option.some.injEq] at hanswer
      rw [Claude.credentialFor_of_live hp, Claude.credentialFor_of_live hq]
      simp only [pollOutcome, Claude.probe, hanswer]

end ClaudePoll

namespace ClaudeTask

variable {F : Type} [F64 F] {account : Account}

/-- Inputs that differ in the tokens of their polls only. -/
inductive SameInput (serde : Serde F) : ClaudeInput F account → ClaudeInput F account → Prop where
  | polled {p q : ClaudePoll} (h : p.SameButToken serde q) : SameInput serde (.polled p) (.polled q)
  | refl (i : ClaudeInput F account) : SameInput serde i i

/-- The same daemon and the same task, whatever polls they came from. -/
structure Alike (s s' : ClaudeTask F) : Prop where
  daemon : s.daemon = s'.daemon
  task : s.task = s'.task

private theorem alike_step {serde : Serde F} {json : SerdeJson F} {s s' : ClaudeTask F}
    (h : Alike s s') {i i' : ClaudeInput F account} (hi : SameInput serde i i') :
    Alike (s.step serde json i) (s'.step serde json i') := by
  obtain ⟨hdaemon, htask⟩ := h
  cases hi with
  | @polled p q hpoll =>
    have hwakeup : (p.wakeup serde : Wakeup F) = q.wakeup serde := by
      unfold ClaudePoll.wakeup
      rw [hpoll.polled_eq, hpoll.id, hpoll.ts, hpoll.latencyMs, hpoll.faults]
    simp only [step, hdaemon, htask, hwakeup]
    split
    · exact ⟨rfl, rfl⟩
    · exact ⟨hdaemon, htask⟩
  | refl =>
    cases i with
    | polled p =>
      simp only [step, hdaemon, htask]
      split
      · exact ⟨rfl, rfl⟩
      · exact ⟨hdaemon, htask⟩
    | woken w other =>
      simp only [step, hdaemon, htask]
      exact ⟨rfl, rfl⟩
    | elsewhere change untouched =>
      simp only [step, hdaemon]
      exact ⟨rfl, htask⟩

/-- Two runs that differ in their tokens leave the same daemon, its database and all it serves
included, and the same task. -/
theorem token_never_told (serde : Serde F) (json : SerdeJson F) (s : ClaudeTask F)
    {inputs inputs' : List (ClaudeInput F account)}
    (h : List.Forall₂ (SameInput serde) inputs inputs') :
    (s.run serde json inputs).daemon = (s.run serde json inputs').daemon ∧
      (s.run serde json inputs).task = (s.run serde json inputs').task := by
  have hruns : ∀ s s' : ClaudeTask F, Alike s s' →
      Alike (s.run serde json inputs) (s'.run serde json inputs') := by
    induction h with
    | nil => exact fun _ _ hs => hs
    | cons hi _ ih => exact fun _ _ hs => ih _ _ (alike_step hs hi)
  obtain ⟨hdaemon, htask⟩ := hruns s s ⟨rfl, rfl⟩
  exact ⟨hdaemon, htask⟩

/-! ## An outage -/

def loginText (token : String) : String :=
  "\x7b\"claudeAiOauth\":\x7b\"accessToken\":\"" ++ token ++ "\",\"expiresAt\":2000\x7d\x7d"

def loginJson (token : String) : Json := .object [("claudeAiOauth",
  .object [("accessToken", .string token), ("expiresAt", .number "2000")])]

/-- A decoder that knows two logins and one usage response. -/
def loginAndUsage : Serde ℚ where
  fromSlice body :=
    if body = Claude.asciiBytes (loginText "mine") then .ok (loginJson "mine")
    else if body = Claude.asciiBytes (loginText "yours") then .ok (loginJson "yours")
    else if body = (Claude.sessionPoll Claude.sessionRead).body then
      .ok (.object (Claude.sessionMembers Claude.sessionReadJson))
    else .error "unexpected body"
  unexpected _ := "unexpected document"
  f64 text := [("27", 27), ("48", 48)].lookup text
  dateTime _ := none

def loginStore (token : String) : Claude.CredentialStore where
  path := "/home/user/.claude/.credentials.json"
  keychainFallback := false
  fileExists := true
  file := .bytes (Claude.asciiBytes (loginText token))
  keychain := .timedOut

/-- A poll with a stored login, which the endpoint answers. -/
def loginPoll (token : String) (id : PollId) (nowMs : Int) (answer : HttpAnswer) : ClaudePoll where
  store := loginStore token
  nowMs
  endpoint sent := if sent = token then answer else .response 401 [] (.ok [])
  id
  ts := nowMs
  latencyMs := 0
  faults := Storage.noFaults

def loginAccount : Account where
  id := ⟨"claude:default"⟩
  provider := "claude"
  label := "default"

/-- A daemon that has just found the account. -/
def loginDaemon : Daemon ℚ :=
  let d := Daemon.new .empty "config.toml" ["claude"] 0
  { d with state := { d.state with accounts := [loginAccount] } }.registerPoller loginAccount
    fun _ => defaultHint

def usageAnswer : HttpAnswer := .response 200 [] (.ok (Claude.sessionPoll Claude.sessionRead).body)

def limitAnswer : HttpAnswer := .response 429 [("Retry-After", "60")] (.ok [])

/-- A reading, a rate limit, and a login that has expired. -/
def outage (token : String) : List (ClaudeInput ℚ loginAccount) := [
  .woken .started (by simp),
  .polled (loginPoll token 1 1 usageAnswer),
  .woken .elapsed (by simp),
  .polled (loginPoll token 2 2 limitAnswer),
  .woken .elapsed (by simp),
  .polled (loginPoll token 3 3000 (.unsent "unreachable"))]

/-- After an outage the two windows read before it are still served, and the strike of the rate
limit outlives the expired login. -/
theorem polls_told_outage :
    let s := (start loginDaemon loginAccount).run loginAndUsage (.table [] []) (outage "mine")
    (s.polls.map fun p => ((p.2.read loginAndUsage).map List.length, p.2.id)) =
        [(some 2, 1), (none, 2), (none, 3)] ∧
      s.task.gate.throttle = { strikes := 1, retryAfter := some (Config.fromSecs 60) } ∧
      Told loginAndUsage loginAccount s := by
  refine ⟨by decide +kernel, by decide +kernel, ?_⟩
  exact polls_told loginAndUsage (.table [] []) ⟨rfl, rfl, rfl, fun _ => rfl⟩ (outage "mine")

private theorem sameInput_loginPoll (id : PollId) (nowMs : Int) (answer : HttpAnswer) :
    SameInput loginAndUsage
      (.polled (loginPoll "mine" id nowMs answer) : ClaudeInput ℚ loginAccount)
      (.polled (loginPoll "yours" id nowMs answer)) := by
  have hmine : Claude.loadCredentials loginAndUsage (loginStore "mine") =
      .ok { accessToken := "mine", expiresAtMs := 2000 } := by decide
  have hyours : Claude.loadCredentials loginAndUsage (loginStore "yours") =
      .ok { accessToken := "yours", expiresAtMs := 2000 } := by decide
  refine .polled ⟨?_, ?_, rfl, rfl, rfl, rfl, rfl⟩
  · simp only [loginPoll, hmine, hyours, Except.map]
  · simp only [ClaudePoll.answer, Claude.liveToken, loginPoll, hmine, hyours]
    by_cases hlive : nowMs < 2000
    · simp [hlive]
    · simp [hlive]

/-- The outage with another's token. -/
theorem token_never_told_outage :
    ((start loginDaemon loginAccount).run loginAndUsage (.table [] []) (outage "mine")).daemon =
        ((start loginDaemon loginAccount).run loginAndUsage (.table [] [])
          (outage "yours")).daemon ∧
      ((start loginDaemon loginAccount).run loginAndUsage (.table [] []) (outage "mine")).task =
        ((start loginDaemon loginAccount).run loginAndUsage (.table [] [])
          (outage "yours")).task := by
  refine token_never_told loginAndUsage (.table [] []) _ ?_
  exact .cons (.refl _) (.cons (sameInput_loginPoll _ _ _) (.cons (.refl _)
    (.cons (sameInput_loginPoll _ _ _) (.cons (.refl _) (.cons (sameInput_loginPoll _ _ _) .nil)))))

end ClaudeTask
end Teiryo
