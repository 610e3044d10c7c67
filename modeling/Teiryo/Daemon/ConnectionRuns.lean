import Teiryo.Daemon.Connections

/-!
# What connections keep

Over any interleaving of the connections, of the daemon's other tasks and of the clients: every
frame is answered once and in its turn, a suspended request does not sleep through what it waits
for, and the daemon shuts down for an acknowledged request only.
-/

namespace Teiryo

open Toml

variable {F S Layout : Type}

/-! ## Replies to frames -/

section Replies

variable (f : Wire.Formats F S)

def requestOf (frame : List UInt8) : Option Request :=
  Wire.decodeFrame (Wire.request f) frame

/-- A payload replies to a frame: to its request, or to its not being one. -/
def Replies (frame payload : List UInt8) : Prop :=
  match requestOf f frame with
  | none => ∃ why, payload =
      (Wire.response f).encode (.err .badRequest ("undecodable request: " ++ why))
  | some request => ∃ reply, Answers request reply ∧ payload = (Wire.response f).encode reply

namespace Connection

/-- The frames that have their reply. -/
def done (c : Connection) : List (List UInt8) := c.taken.take c.sent.length

/-- None of the frames that have their reply asked for a shutdown. -/
def GoesOn (c : Connection) : Prop := ∀ frame ∈ c.done, requestOf f frame ≠ some .shutdown

/-- A shutdown was acknowledged on the connection. -/
def Acked (c : Connection) : Prop := ∃ frame ∈ c.done, requestOf f frame = some .shutdown

/-- The frame whose reply is still due. -/
def Due (c : Connection) (frame : List UInt8) : Prop := c.taken = c.done ++ [frame]

/-- What is due in each phase. -/
def Pending (c : Connection) : Prop :=
  match c.phase with
  | .reading => c.taken = c.done ∧ c.GoesOn f
  | .awaiting a => (∃ frame request, c.Due frame ∧ requestOf f frame = some request ∧
      a.Handles request) ∧ c.GoesOn f
  | .replying payload shutdown => (∃ frame, c.Due frame ∧ Replies f frame payload ∧
      (shutdown = true ↔ requestOf f frame = some .shutdown)) ∧ c.GoesOn f
  | .closed => c.taken.length ≤ c.sent.length + 1

/-- Every frame taken has its reply, in its turn, but for the last one; an acknowledged shutdown
is the last thing sent. -/
structure Orderly (c : Connection) : Prop where
  arrived : c.arrived = c.taken ++ c.inbound
  replied : List.Forall₂ (Replies f) c.done c.sent
  last : ∀ frame ∈ c.done.dropLast, requestOf f frame ≠ some .shutdown
  pending : c.Pending f

end Connection
end Replies

/-- A suspended request has looked at everything that was sent, or is woken. -/
structure Daemon.Waits (d : Daemon F) (a : Daemon.Await) : Prop where
  seen : a.seen ≤ d.watchTx.version
  configSeen : a.configSeen ≤ d.configTx.version
  asleep : a.woken d = false →
    (∀ event ∈ d.watchTx.value, ¬ a.since < event.id) ∧ d.configTx.value ≤ a.configGen

private theorem Daemon.Waits.onwards {d d' : Daemon F} {a : Daemon.Await} (h : d.Waits a)
    (hon : d.Onwards d') : d'.Waits a := by
  refine ⟨h.seen.trans hon.watchTx.version_le, h.configSeen.trans hon.configTx.version_le, ?_⟩
  intro hasleep
  rw [Daemon.Await.woken, Bool.or_eq_false_iff] at hasleep
  have hseen := of_decide_eq_false hasleep.1
  have hconfigSeen := of_decide_eq_false hasleep.2
  -- nothing was sent since it looked
  have hwatch : d'.watchTx = d.watchTx := by
    rcases hon.watchTx with heq | hlt
    · exact heq
    · exact absurd (Nat.lt_of_le_of_lt h.seen hlt) hseen
  have hconfig : d'.configTx = d.configTx := by
    rcases hon.configTx with heq | hlt
    · exact heq
    · exact absurd (Nat.lt_of_le_of_lt h.configSeen hlt) hconfigSeen
  rw [hwatch, hconfig]
  apply h.asleep
  rw [Daemon.Await.woken, ← hwatch, ← hconfig, Bool.or_eq_false_iff]
  exact hasleep

/-- There is a poll or a config that a request asks for. -/
def Service.HasNew (s : Service F) (since : PollId) (configGen : Nat) : Prop :=
  (∃ event ∈ s.daemon.watchTx.value, since < event.id) ∨
    configGen < s.daemon.state.configState.generation

namespace Server

/-! ## What a step can do -/

section Goes

variable (f : Wire.Formats F S)

/-- How a connection goes on, short of acknowledging a shutdown. -/
inductive Moves (d : Daemon F) (c : Connection) : Connection → Prop where
  | arrives (payload : List UInt8) :
    Moves d c { c with inbound := c.inbound ++ [payload], arrived := c.arrived ++ [payload] }
  | hangsUp : Moves d c { c with hungUp := true }
  | closes (h : c.phase = .reading) : Moves d c { c with phase := .closed }
  | replies {payload reply : List UInt8} {rest : List (List UInt8)} (h : c.phase = .reading)
      (hin : c.inbound = payload :: rest) (hreplies : Replies f payload reply) :
    Moves d c { c with
      inbound := rest, taken := c.taken ++ [payload]
      phase := .replying reply (decide (requestOf f payload = some .shutdown)) }
  | suspends {payload : List UInt8} {rest : List (List UInt8)} {request : Request}
      {a : Daemon.Await} (h : c.phase = .reading) (hin : c.inbound = payload :: rest)
      (hrequest : requestOf f payload = some request) (ha : a.Handles request)
      (hwaits : d.Waits a) :
    Moves d c { c with inbound := rest, taken := c.taken ++ [payload], phase := .awaiting a }
  | resumes {a : Daemon.Await} {reply : List UInt8} (h : c.phase = .awaiting a)
      (hreplies : ∀ payload request, requestOf f payload = some request → a.Handles request →
        Replies f payload reply) :
    Moves d c { c with phase := .replying reply false }
  | looks {a a' : Daemon.Await} (h : c.phase = .awaiting a)
      (ha : ∀ request, a.Handles request → a'.Handles request) (hwaits : d.Waits a') :
    Moves d c { c with phase := .awaiting a' }
  | delivers {payload : List UInt8} (h : c.phase = .replying payload false) :
    Moves d c { c with sent := c.sent ++ [payload], phase := .reading }
  | loses {payload : List UInt8} {shutdown : Bool} (h : c.phase = .replying payload shutdown) :
    Moves d c { c with phase := .closed }

inductive Goes (s : Server F) : Server F → Prop where
  | idle : Goes s s
  | stops (h : 0 < s.shutdownTx.version) : Goes s { s with stopped := true }
  | opens : Goes s { s with conns := s.conns ++ [{ seen := s.shutdownTx.version }] }
  | works (service : Service F) (h : s.service.daemon.Onwards service.daemon) :
    Goes s { s with service }
  | moves (service : Service F) (h : s.service.daemon.Onwards service.daemon) {conn : Nat}
      {c c' : Connection} (hc : s.conns[conn]? = some c) (hmoves : Moves f service.daemon c c') :
    Goes s ({ s with service }.setConn conn c')
  | acks {conn : Nat} {c : Connection} {payload : List UInt8} (hc : s.conns[conn]? = some c)
      (h : c.phase = .replying payload true) :
    Goes s ({ s with shutdownTx := s.shutdownTx.sendReplace true }.setConn conn
      { c with sent := c.sent ++ [payload], phase := .closed })

end Goes

section Onwards

variable [F64 F] (toml : TomlCrates Layout) (json : SerdeJson F) (single : ℚ → S)

omit [F64 F] in
private theorem onwards_setConfig (d : Daemon F) (file : ConfigFile) (fault : Option String)
    (edit : ConfigEdit) (now : DateTime) :
    d.Onwards (d.setConfig toml file fault edit now).2.1 := by
  unfold Daemon.setConfig
  split
  · exact .refl d
  · split
    · exact d.onwards_installConfig _ none now
    · exact d.onwards_installConfig none _ now

private theorem onwards_handleRequest (s : Service F) (env : RequestEnv) (request : Request) :
    s.daemon.Onwards (s.handleRequest toml json single env request).2.daemon := by
  cases request with
  | pollNow provider account => exact s.daemon.onwards_pollNow provider account
  | awaitUpdate since configGen timeoutMs =>
    simp only [Service.handleRequest]
    split <;> exact .refl s.daemon
  | recentPolls limit =>
    simp only [Service.handleRequest]
    split <;> exact .refl s.daemon
  | setConfig edit => exact onwards_setConfig toml s.daemon s.file env.writeFault edit env.now
  | status provider account => exact .refl s.daemon
  | history account window since «until» maxPoints => exact .refl s.daemon
  | providers => exact .refl s.daemon
  | shutdown => exact .refl s.daemon
  | getConfig => exact .refl s.daemon

private theorem onwards_startAccounts (polls : PollSystem F) (adapter : Adapter F) (env : StartEnv)
    (accounts : List Account) :
    polls.daemon.Onwards (Discovery.startAccounts json polls adapter env accounts).daemon := by
  induction accounts generalizing polls with
  | nil => exact .refl polls.daemon
  | cons a accounts ih =>
    rw [Discovery.startAccounts, List.foldl_cons]
    exact (polls.onwards_step json _).trans (ih _)

private theorem onwards_discovery (s : Discovery F) (i : DiscoveryInput F) :
    s.polls.daemon.Onwards (s.step json i).polls.daemon := by
  have hgoes := Discovery.goes_step json s i
  generalize s.step json i = s' at hgoes ⊢
  cases hgoes with
  | idle => exact .refl s.polls.daemon
  | polled input haccounts => exact s.polls.onwards_step json input
  | moved _ ht hmoves hstop => exact .refl s.polls.daemon
  | @startup adapter rest hstarting answer env =>
    rcases answer with message | _ | ⟨a, accounts⟩
    · exact .refl s.polls.daemon
    · exact .refl s.polls.daemon
    · exact onwards_startAccounts json s.polls adapter env (a :: accounts)
  | @answered task t ht hphase answer env =>
    rcases answer with message | _ | ⟨a, accounts⟩
    · exact .refl s.polls.daemon
    · exact .refl s.polls.daemon
    · exact onwards_startAccounts json s.polls t.adapter env (a :: accounts)

end Onwards

private theorem waits_of_awaitUpdate {d : Daemon F} {since : PollId} {configGen : Nat}
    {a : Daemon.Await} (h : d.awaitUpdate since configGen = .inr a) :
    (a.since = since ∧ a.configGen = configGen) ∧ d.Waits a := by
  unfold Daemon.awaitUpdate at h
  split at h
  · cases h
  · rename_i hnone
    split at h
    · cases h
    · rename_i hgen
      cases h
      refine ⟨⟨rfl, rfl⟩, ⟨Nat.le_refl _, Nat.le_refl _, fun _ => ⟨?_, Nat.le_of_not_lt hgen⟩⟩⟩
      intro event hevent hnewer
      rw [Option.mem_def.mp hevent, Option.filter_some, if_pos (decide_eq_true hnewer)] at hnone
      cases hnone

section Step

variable {toml : TomlCrates Layout} {json : SerdeJson F} {single : ℚ → S}
  {f : Wire.Formats F S} {decodeError : List UInt8 → String} {s : Server F}

private theorem replies_of_answers {payload : List UInt8} {request : Request}
    {reply : Response F S} (hrequest : requestOf f payload = some request)
    (h : Answers request reply) : Replies f payload ((Wire.response f).encode reply) := by
  rw [Replies, hrequest]
  exact ⟨reply, h, rfl⟩

private theorem goes_look (hnumbered : s.service.Numbered) {conn : Nat} {c : Connection}
    (hc : s.conns[conn]? = some c) {a : Daemon.Await} (hphase : c.phase = .awaiting a) :
    Goes f s (s.look single f conn c a) := by
  unfold look
  refine .moves s.service (.refl _) hc ?_
  cases hfound : s.service.daemon.awaitUpdate a.since a.configGen with
  | inl reply =>
    refine .resumes hphase ?_
    intro payload request hrequest ha
    cases request with
    | awaitUpdate since configGen timeoutMs =>
      obtain ⟨rfl, rfl⟩ := ha
      obtain ⟨hanswers, -⟩ :=
        Service.awaitUpdate_handled single hnumbered a.since a.configGen timeoutMs
      exact replies_of_answers hrequest (hanswers reply hfound)
    | _ => exact ha.elim
  | inr a' =>
    obtain ⟨⟨hsince, hgen⟩, hwaits⟩ := waits_of_awaitUpdate hfound
    refine .looks hphase ?_ hwaits
    intro request ha
    cases request with
    | awaitUpdate since configGen timeoutMs => exact ⟨hsince.trans ha.1, hgen.trans ha.2⟩
    | _ => exact ha.elim

private theorem goes_flushed {conn : Nat} {c : Connection} (hc : s.conns[conn]? = some c)
    {payload : List UInt8} {shutdown : Bool} (hphase : c.phase = .replying payload shutdown)
    (delivered : Bool) : Goes f s (s.flushed conn c payload shutdown delivered) := by
  unfold flushed
  split
  · cases shutdown with
    | true => exact .acks hc hphase
    | false => exact .moves s.service (.refl _) hc (.delivers hphase)
  · exact .moves s.service (.refl _) hc (.loses hphase)

variable [F64 F]

private theorem waits_of_handleRequest {service : Service F} {env : RequestEnv} {request : Request}
    {a : Daemon.Await}
    (h : (service.handleRequest toml json single env request).1 = .inr a) :
    (service.handleRequest toml json single env request).2.daemon.Waits a := by
  cases request with
  | awaitUpdate since configGen timeoutMs =>
    simp only [Service.handleRequest] at h ⊢
    split at h
    · cases h
    · rename_i a' hfound
      cases h
      exact (waits_of_awaitUpdate hfound).2
  | recentPolls limit =>
    simp only [Service.handleRequest] at h
    split at h <;> cases h
  | _ => cases h

private theorem goes_answer (hnumbered : s.service.Numbered) {conn : Nat} {c : Connection}
    (hc : s.conns[conn]? = some c) (hphase : c.phase = .reading) {payload : List UInt8}
    {rest : List (List UInt8)} (hin : c.inbound = payload :: rest) (env : RequestEnv) :
    Goes f s (s.answer toml json single f decodeError conn
      { c with inbound := rest, taken := c.taken ++ [payload] } payload env) := by
  unfold answer
  split
  · rename_i hrequest
    have hreplies : Replies f payload ((Wire.response f).encode
        (.err .badRequest ("undecodable request: " ++ decodeError payload))) := by
      rw [Replies, requestOf, hrequest]
      exact ⟨_, rfl⟩
    have hmoves := Moves.replies (d := s.service.daemon) hphase hin hreplies
    rw [requestOf, hrequest] at hmoves
    exact .moves s.service (.refl _) hc hmoves
  · rename_i request hrequest
    have hon := onwards_handleRequest toml json single s.service env request
    have hhandled := Service.handleRequest_handled toml json single hnumbered env request
    have hwaits := @waits_of_handleRequest _ _ _ toml json single _ s.service env request
    generalize s.service.handleRequest toml json single env request = handled
      at hon hhandled hwaits ⊢
    obtain ⟨reply | a, service⟩ := handled
    · have hmoves := Moves.replies (d := service.daemon) hphase hin
        (replies_of_answers hrequest hhandled)
      rw [requestOf, hrequest, decide_eq_decide.mpr Option.some_inj] at hmoves
      exact .moves service hon hc hmoves
    · exact .moves service hon hc (.suspends hphase hin hrequest hhandled (hwaits rfl))

theorem goes_step (hnumbered : s.service.Numbered) (i : ServerInput F) :
    Goes f s (s.step toml json single f decodeError i) := by
  have hat : ∀ (conn : Nat) (change : Connection → Server F),
      (∀ c, s.conns[conn]? = some c → Goes f s (change c)) → Goes f s (s.atConn conn change) := by
    intro conn change hchange
    unfold atConn
    split
    · rename_i c hc
      exact hchange c hc
    · exact .idle
  have hmoves : ∀ {conn : Nat} {c c' : Connection}, s.conns[conn]? = some c →
      Moves f s.service.daemon c c' → Goes f s (s.setConn conn c') :=
    fun hc h => .moves s.service (.refl _) hc h
  unfold step
  split
  · exact .idle
  · cases i with
    | connected => exact .opens
    | frame conn payload =>
      refine hat conn _ fun c hc => ?_
      split
      · exact .idle
      · exact hmoves hc (.arrives payload)
    | hangUp conn => exact hat conn _ fun c hc => hmoves hc .hangsUp
    | serve conn env =>
      refine hat conn _ fun c hc => ?_
      split
      · rename_i hphase
        unfold serve
        split
        · split
          · exact hmoves hc (.closes hphase)
          · exact .idle
        · rename_i payload rest hin
          exact goes_answer hnumbered hc hphase hin env
      · exact .idle
    | woken conn =>
      refine hat conn _ fun c hc => ?_
      split
      · rename_i a hphase
        split
        · exact goes_look hnumbered hc hphase
        · exact .idle
      · exact .idle
    | timedOut conn =>
      refine hat conn _ fun c hc => ?_
      split
      · rename_i a hphase
        split
        · exact .idle
        · refine hmoves hc (.resumes hphase ?_)
          intro payload request hrequest ha
          cases request with
          | awaitUpdate since configGen timeoutMs => exact replies_of_answers hrequest .noUpdate
          | _ => exact ha.elim
      · exact .idle
    | flushed conn delivered =>
      refine hat conn _ fun c hc => ?_
      split
      · rename_i payload shutdown hphase
        exact goes_flushed hc hphase delivered
      · exact .idle
    | broken conn =>
      refine hat conn _ fun c hc => ?_
      split
      · rename_i hphase
        exact hmoves hc (.closes hphase)
      · exact .idle
    | shutdownSeen conn =>
      refine hat conn _ fun c hc => ?_
      split
      · rename_i hphase
        split
        · exact hmoves hc (.closes hphase)
        · exact .idle
      · exact .idle
    | acceptStopped =>
      dsimp only
      split
      · rename_i hchanged
        exact .stops (of_decide_eq_true hchanged)
      · exact .idle
    | edited file => exact .works { s.service with file } (.refl _)
    | daemon input =>
      exact .works { s.service with discovery := s.service.discovery.step json input }
        (onwards_discovery json s.service.discovery input)

end Step

/-! ## What the moves of a connection keep -/

section Keeps

variable {f : Wire.Formats F S} {d : Daemon F} {c c' : Connection}

private theorem done_of_due {frame : List UInt8} (h : c.Due frame)
    (hlen : c.done.length = c.sent.length) (payload : List UInt8) (phase : ConnPhase) :
    ({ c with sent := c.sent ++ [payload], phase } : Connection).done = c.done ++ [frame] := by
  rw [Connection.done, List.length_append, List.length_singleton, h, ← hlen]
  exact List.take_of_length_le (by simp)

private theorem orderly_sent (h : c.Orderly f) {frame payload : List UInt8} (hdue : c.Due frame)
    (hreplies : Replies f frame payload) (hgoes : c.GoesOn f) (phase : ConnPhase)
    (hpending : Connection.Pending f { c with sent := c.sent ++ [payload], phase }) :
    Connection.Orderly f { c with sent := c.sent ++ [payload], phase } := by
  have hdone := done_of_due hdue h.replied.length_eq payload phase
  refine ⟨h.arrived, ?_, ?_, hpending⟩
  · rw [hdone]
    exact List.rel_append h.replied (.cons hreplies .nil)
  · rw [hdone, List.dropLast_concat]
    exact hgoes

private theorem reading_done (h : c.Orderly f) (hphase : c.phase = .reading) :
    c.taken = c.done ∧ c.GoesOn f := by
  have hpending := h.pending
  rw [Connection.Pending, hphase] at hpending
  exact hpending

private theorem orderly_taken (h : c.Orderly f) (hphase : c.phase = .reading) {payload : List UInt8}
    {rest : List (List UInt8)} (hin : c.inbound = payload :: rest) (phase : ConnPhase)
    (hpending : ∀ c' : Connection, c'.phase = phase → c'.Due payload → c'.GoesOn f →
      c'.Pending f) :
    Connection.Orderly f
      { c with inbound := rest, taken := c.taken ++ [payload], phase } := by
  obtain ⟨htaken, hgoes⟩ := reading_done h hphase
  have hlen : c.sent.length = c.taken.length := by rw [← h.replied.length_eq, ← htaken]
  have hdone : Connection.done { c with inbound := rest, taken := c.taken ++ [payload], phase } =
      c.done := by
    rw [← htaken, Connection.done, hlen]
    exact List.take_left
  refine ⟨?_, ?_, ?_, hpending _ rfl ?_ ?_⟩
  · change c.arrived = c.taken ++ [payload] ++ rest
    rw [h.arrived, hin, List.append_assoc]
    rfl
  · rw [hdone]
    exact h.replied
  · rw [hdone]
    exact h.last
  · rw [Connection.Due, hdone, ← htaken]
  · rw [Connection.GoesOn, hdone]
    exact hgoes

private theorem orderly_moves (h : c.Orderly f) (hmoves : Moves f d c c') : c'.Orderly f := by
  cases hmoves with
  | arrives payload =>
    refine ⟨?_, h.replied, h.last, h.pending⟩
    change c.arrived ++ [payload] = c.taken ++ (c.inbound ++ [payload])
    rw [h.arrived, List.append_assoc]
  | hangsUp => exact ⟨h.arrived, h.replied, h.last, h.pending⟩
  | closes hphase =>
    refine ⟨h.arrived, h.replied, h.last, ?_⟩
    have hlen := h.replied.length_eq
    rw [← (reading_done h hphase).1] at hlen
    exact Nat.le_succ_of_le hlen.le
  | @replies payload reply rest hphase hin hreplies =>
    refine orderly_taken h hphase hin _ ?_
    intro c' hphase' hdue hgoes
    rw [Connection.Pending, hphase']
    exact ⟨⟨payload, hdue, hreplies, decide_eq_true_iff⟩, hgoes⟩
  | @suspends payload rest request a hphase hin hrequest ha hwaits =>
    refine orderly_taken h hphase hin _ ?_
    intro c' hphase' hdue hgoes
    rw [Connection.Pending, hphase']
    exact ⟨⟨payload, request, hdue, hrequest, ha⟩, hgoes⟩
  | resumes hphase hreplies =>
    have hpending := h.pending
    rw [Connection.Pending, hphase] at hpending
    obtain ⟨⟨frame, request, hdue, hrequest, ha⟩, hgoes⟩ := hpending
    refine ⟨h.arrived, h.replied, h.last, ⟨frame, hdue, hreplies frame request hrequest ha, ?_⟩,
      hgoes⟩
    refine iff_of_false Bool.false_ne_true ?_
    rw [hrequest]
    rintro heq
    cases heq
    exact ha
  | looks hphase ha hwaits =>
    have hpending := h.pending
    rw [Connection.Pending, hphase] at hpending
    obtain ⟨⟨frame, request, hdue, hrequest, ha'⟩, hgoes⟩ := hpending
    exact ⟨h.arrived, h.replied, h.last, ⟨frame, request, hdue, hrequest, ha request ha'⟩, hgoes⟩
  | @delivers payload hphase =>
    have hpending := h.pending
    rw [Connection.Pending, hphase] at hpending
    obtain ⟨⟨frame, hdue, hreplies, hshutdown⟩, hgoes⟩ := hpending
    refine orderly_sent h hdue hreplies hgoes .reading ?_
    have hdone := done_of_due hdue h.replied.length_eq payload .reading
    refine ⟨hdue.trans hdone.symm, ?_⟩
    intro frame' hframe'
    rw [hdone] at hframe'
    rcases List.mem_append.mp hframe' with hframe' | hframe'
    · exact hgoes frame' hframe'
    · obtain rfl := List.mem_singleton.mp hframe'
      exact fun heq => Bool.false_ne_true (hshutdown.mpr heq)
  | loses hphase =>
    have hpending := h.pending
    rw [Connection.Pending, hphase] at hpending
    obtain ⟨⟨frame, hdue, -⟩, -⟩ := hpending
    refine ⟨h.arrived, h.replied, h.last, ?_⟩
    change c.taken.length ≤ c.sent.length + 1
    rw [hdue, List.length_append, h.replied.length_eq]
    exact Nat.le_refl _

private theorem orderly_acks (h : c.Orderly f) {payload : List UInt8}
    (hphase : c.phase = .replying payload true) :
    Connection.Orderly f { c with sent := c.sent ++ [payload], phase := .closed } ∧
      Connection.Acked f { c with sent := c.sent ++ [payload], phase := .closed } := by
  have hpending := h.pending
  rw [Connection.Pending, hphase] at hpending
  obtain ⟨⟨frame, hdue, hreplies, hshutdown⟩, hgoes⟩ := hpending
  constructor
  · refine orderly_sent h hdue hreplies hgoes .closed ?_
    change c.taken.length ≤ (c.sent ++ [payload]).length + 1
    rw [hdue, List.length_append, List.length_append, h.replied.length_eq]
    exact Nat.le_succ _
  · refine ⟨frame, ?_, hshutdown.mp rfl⟩
    rw [done_of_due hdue h.replied.length_eq payload .closed]
    exact List.mem_append_right _ (List.mem_singleton_self frame)

private theorem not_acked (h : c.Orderly f) (hphase : c.phase ≠ .closed) : ¬ c.Acked f := by
  have hgoes : c.GoesOn f := by
    have hpending := h.pending
    unfold Connection.Pending at hpending
    split at hpending
    · exact hpending.2
    · exact hpending.2
    · exact hpending.2
    · rename_i hclosed
      exact absurd hclosed hphase
  rintro ⟨frame, hframe, hshutdown⟩
  exact hgoes frame hframe hshutdown

private theorem acked_moves (h : c.Orderly f) (hmoves : Moves f d c c') :
    c'.Acked f ↔ c.Acked f := by
  have h' := orderly_moves h hmoves
  have hopen : c.phase ≠ .closed → c'.phase ≠ .closed → (c'.Acked f ↔ c.Acked f) :=
    fun hc hc' => iff_of_false (not_acked h' hc') (not_acked h hc)
  cases hmoves with
  | arrives payload => exact Iff.rfl
  | hangsUp => exact Iff.rfl
  | closes hphase => exact Iff.rfl
  | loses hphase => exact Iff.rfl
  | replies hphase hin hreplies => exact hopen (by simp [hphase]) (by simp)
  | suspends hphase hin hrequest ha hwaits => exact hopen (by simp [hphase]) (by simp)
  | resumes hphase hreplies => exact hopen (by simp [hphase]) (by simp)
  | looks hphase ha hwaits => exact hopen (by simp [hphase]) (by simp)
  | delivers hphase => exact hopen (by simp [hphase]) (by simp)

private theorem waits_moves (hwaits : ∀ a, c.phase = .awaiting a → d.Waits a)
    (hmoves : Moves f d c c') : ∀ a, c'.phase = .awaiting a → d.Waits a := by
  intro a ha
  cases hmoves with
  | arrives payload => exact hwaits a ha
  | hangsUp => exact hwaits a ha
  | suspends _ _ _ _ hwaits' =>
    cases ha
    exact hwaits'
  | looks _ _ hwaits' =>
    cases ha
    exact hwaits'
  | _ => cases ha

end Keeps

/-! ## Runs -/

section Runs

variable (f : Wire.Formats F S)

/-- Connections are orderly, none sleeps through what it waits for, and the shutdown channel was
used for an acknowledged shutdown only. -/
structure Inv (s : Server F) : Prop where
  numbered : s.service.Numbered
  orderly : ∀ c ∈ s.conns, c.Orderly f
  waits : ∀ c ∈ s.conns, ∀ a, c.phase = .awaiting a → s.service.daemon.Waits a
  shutdown : 0 < s.shutdownTx.version ↔ ∃ c ∈ s.conns, c.Acked f
  stopped : s.stopped = true → 0 < s.shutdownTx.version

variable {f} {s s' : Server F}

/-- An element is replaced by one that is as good. -/
theorem exists_mem_set_iff {α : Type} {p : α → Prop} {as : List α} {i : Nat} {a a' : α}
    (ha : as[i]? = some a) (hp : p a' ↔ p a) : (∃ x ∈ as.set i a', p x) ↔ ∃ x ∈ as, p x := by
  have hi : i < as.length := (List.getElem?_eq_some_iff.mp ha).1
  constructor
  · rintro ⟨x, hx, hpx⟩
    rcases List.mem_or_eq_of_mem_set hx with hx | rfl
    · exact ⟨x, hx, hpx⟩
    · exact ⟨a, List.mem_of_getElem? ha, hp.mp hpx⟩
  · rintro ⟨x, hx, hpx⟩
    obtain ⟨j, hj⟩ := List.mem_iff_getElem?.mp hx
    by_cases hij : i = j
    · subst hij
      cases ha.symm.trans hj
      exact ⟨a', List.mem_set hi a', hp.mpr hpx⟩
    · have hset : (as.set i a')[j]? = some x := by
        rw [List.getElem?_set_ne hij]
        exact hj
      exact ⟨x, List.mem_of_getElem? hset, hpx⟩

private theorem inv_setConn (h : Inv f s) {conn : Nat} {c' : Connection}
    (hconns : s'.conns = s.conns.set conn c')
    (hon : s.service.daemon.Onwards s'.service.daemon) (horderly : c'.Orderly f)
    (hwaits : ∀ a, c'.phase = .awaiting a → s'.service.daemon.Waits a)
    (hshutdown : 0 < s'.shutdownTx.version ↔ ∃ c ∈ s'.conns, c.Acked f)
    (hstopped : s'.stopped = true → 0 < s'.shutdownTx.version) : Inv f s' := by
  refine ⟨hon.numbered h.numbered, ?_, ?_, hshutdown, hstopped⟩
  · rw [hconns]
    intro u hu
    rcases List.mem_or_eq_of_mem_set hu with hu | rfl
    · exact h.orderly u hu
    · exact horderly
  · rw [hconns]
    intro u hu a ha
    rcases List.mem_or_eq_of_mem_set hu with hu | rfl
    · exact (h.waits u hu a ha).onwards hon
    · exact hwaits a ha

private theorem inv_goes (h : Inv f s) (hgoes : Goes f s s') : Inv f s' := by
  cases hgoes with
  | idle => exact h
  | stops hversion => exact ⟨h.numbered, h.orderly, h.waits, h.shutdown, fun _ => hversion⟩
  | opens =>
    have hnew : Connection.Orderly f { seen := s.shutdownTx.version } := by
      refine ⟨rfl, .nil, ?_, rfl, ?_⟩
      · intro frame hframe
        cases hframe
      · intro frame hframe
        cases hframe
    refine ⟨h.numbered, ?_, ?_, h.shutdown.trans ?_, h.stopped⟩
    · intro c hc
      rcases List.mem_append.mp hc with hc | hc
      · exact h.orderly c hc
      · obtain rfl := List.mem_singleton.mp hc
        exact hnew
    · intro c hc a ha
      rcases List.mem_append.mp hc with hc | hc
      · exact h.waits c hc a ha
      · obtain rfl := List.mem_singleton.mp hc
        cases ha
    · constructor
      · rintro ⟨c, hc, hacked⟩
        exact ⟨c, List.mem_append_left _ hc, hacked⟩
      · rintro ⟨c, hc, hacked⟩
        rcases List.mem_append.mp hc with hc | hc
        · exact ⟨c, hc, hacked⟩
        · obtain rfl := List.mem_singleton.mp hc
          exact absurd hacked (not_acked hnew (by simp))
  | works service hon =>
    exact ⟨hon.numbered h.numbered, h.orderly,
      fun c hc a ha => (h.waits c hc a ha).onwards hon, h.shutdown, h.stopped⟩
  | @moves service hon conn c c' hc hmoves =>
    have hmem := List.mem_of_getElem? hc
    refine inv_setConn h rfl hon (orderly_moves (h.orderly c hmem) hmoves) ?_ ?_ h.stopped
    · exact waits_moves (fun a ha => (h.waits c hmem a ha).onwards hon) hmoves
    · exact h.shutdown.trans
        (exists_mem_set_iff hc (acked_moves (h.orderly c hmem) hmoves)).symm
  | @acks conn c payload hc hphase =>
    obtain ⟨horderly, hacked⟩ := orderly_acks (h.orderly c (List.mem_of_getElem? hc)) hphase
    refine inv_setConn h rfl (.refl _) horderly (fun a ha => by cases ha) ?_ ?_
    · refine iff_of_true (Nat.succ_pos _) ⟨_, ?_, hacked⟩
      exact List.mem_set (List.getElem?_eq_some_iff.mp hc).1 _
    · exact fun _ => Nat.succ_pos _

variable [F64 F] {toml : TomlCrates Layout} {json : SerdeJson F} {single : ℚ → S}
  {decodeError : List UInt8 → String}

theorem inv_run (storage : Storage F) (path : String) (adapters : List (Adapter F))
    (file : ConfigFile) (now : DateTime) (inputs : List (ServerInput F)) :
    Inv f ((boot storage path adapters file now).run toml json single f decodeError inputs) := by
  refine foldl_invariant inputs ?_ fun s i h => inv_goes h (goes_step h.numbered i)
  refine ⟨rfl, ?_, ?_, ?_, ?_⟩
  · intro c hc
    cases hc
  · intro c hc
    cases hc
  · refine iff_of_false (Nat.lt_irrefl 0) ?_
    rintro ⟨c, hc, -⟩
    cases hc
  · intro h
    cases h

/-- Every connection answers its frames once and in their turn; the daemon is told to shut down
where a request to do so was acknowledged, and stops only then. -/
structure Serves (f : Wire.Formats F S) (s : Server F) : Prop where
  orderly : ∀ c ∈ s.conns, c.Orderly f
  shutdown : 0 < s.shutdownTx.version ↔ ∃ c ∈ s.conns, c.Acked f
  stopped : s.stopped = true → ∃ c ∈ s.conns, c.Acked f

/-- However connections, clients and the daemon's tasks interleave, the daemon serves. -/
theorem server_serves (storage : Storage F) (path : String) (adapters : List (Adapter F))
    (file : ConfigFile) (now : DateTime) (inputs : List (ServerInput F)) :
    Serves f ((boot storage path adapters file now).run toml json single f decodeError inputs) := by
  have h := @inv_run _ _ _ f _ toml json single decodeError storage path adapters file now inputs
  exact ⟨h.orderly, h.shutdown, fun hstopped => h.shutdown.mp (h.stopped hstopped)⟩

omit [F64 F] in
private theorem awaitUpdate_of_new {service : Service F} (hnumbered : service.Numbered)
    {since : PollId} {configGen : Nat}
    (hnew : service.HasNew since configGen) :
    ∃ reply : Response F ℚ,
      ((∃ event, reply.map single = .update event ∧ since < event.id) ∨
        ∃ state, reply.map single = .config state ∧
          configGen < state.generation) ∧
      service.daemon.awaitUpdate since configGen = .inl reply := by
  unfold Daemon.awaitUpdate
  split
  · rename_i event hevent
    obtain ⟨-, hnewer⟩ := Option.filter_eq_some_iff.mp hevent
    exact ⟨.update event, .inl ⟨event, rfl, of_decide_eq_true hnewer⟩, rfl⟩
  · rename_i hnone
    rcases hnew with ⟨event, hevent, hnewer⟩ | hnewer
    · rw [Option.mem_def.mp hevent, Option.filter_some, if_pos (decide_eq_true hnewer)] at hnone
      cases hnone
    · rw [if_pos (hnumbered ▸ hnewer)]
      exact ⟨.config service.daemon.state.configState, .inr ⟨_, rfl, hnewer⟩, rfl⟩

/-- Once there is what a suspended request asks for, its deadline no longer fires and its task's
next step replies with it, however the daemon came to have it. -/
theorem none_oversleeps (storage : Storage F) (path : String) (adapters : List (Adapter F))
    (file : ConfigFile) (now : DateTime) (inputs : List (ServerInput F))
    (hs : (boot storage path adapters file now).run toml json single f decodeError inputs = s)
    (hrunning : s.stopped = false) {conn : Nat} {c : Connection} (hc : s.conns[conn]? = some c)
    {a : Daemon.Await} (hphase : c.phase = .awaiting a)
    (hnew : s.service.HasNew a.since a.configGen) :
    s.step toml json single f decodeError (.timedOut conn) = s ∧
      ∃ reply : Response F S,
        ((∃ event, reply = .update event ∧ a.since < event.id) ∨
          ∃ state, reply = .config state ∧ a.configGen < state.generation) ∧
        s.step toml json single f decodeError (.woken conn) =
          s.setConn conn { c with phase := .replying ((Wire.response f).encode reply) false } := by
  subst hs
  have h := @inv_run _ _ _ f _ toml json single decodeError storage path adapters file now inputs
  generalize (boot storage path adapters file now).run toml json single f decodeError inputs = s
    at hrunning hc hnew h ⊢
  have hwoken : a.woken s.service.daemon = true := by
    rw [← Bool.not_eq_false]
    intro hasleep
    obtain ⟨hold, hgen⟩ := (h.waits c (List.mem_of_getElem? hc) a hphase).asleep hasleep
    rcases hnew with ⟨event, hevent, hnewer⟩ | hnewer
    · exact hold event hevent hnewer
    · rw [← h.numbered] at hnewer
      exact Nat.not_lt_of_le hgen hnewer
  have hat : ∀ change : Connection → Server F, s.atConn conn change = change c := by
    intro change
    rw [atConn, hc]
  constructor
  · simp [step, hrunning, hat, hphase, hwoken]
  · have hlook : s.step toml json single f decodeError (.woken conn) =
        s.look single f conn c a := by
      simp [step, hrunning, hat, hphase, hwoken]
    obtain ⟨reply, hreply, hfound⟩ := awaitUpdate_of_new h.numbered hnew
    rw [hlook, look, hfound]
    exact ⟨reply.map single, hreply, rfl⟩

/-- Readings in whole units, which the runs below do not compute with. -/
local instance : F64 UInt64 where
  ofScientific m _ _ := .ofNat m
  decLe _ _ := inferInstance
  decLt _ _ := inferInstance

/-- A daemon without adapters. -/
def runBits (inputs : List (ServerInput UInt64)) : Server UInt64 :=
  (boot .empty "config.toml" [] .missing 0).run (.plain []) (.table [] []) (fun _ => (0 : UInt32))
    Wire.bits (fun _ => "not a request") inputs

def requestBits (r : Request) : List UInt8 := (Wire.request Wire.bits).encode r

/-- While one client waits for news, another asks for something and stops the daemon, and the
config is found broken. -/
def twoClients : List (ServerInput UInt64) := [
  .connected, .connected, .frame 0 (requestBits (.awaitUpdate 0 0 25000)),
  .frame 1 (requestBits .providers), .serve 0 { now := 0, now' := 0 },
  .serve 1 { now := 0, now' := 0 }, .flushed 1 true, .frame 1 (requestBits .shutdown),
  .serve 1 { now := 1, now' := 1 }, .flushed 1 true,
  .daemon (.poll (.rejectConfig "not TOML" 2))]

def waitingClient : Connection where
  phase := .awaiting ⟨0, 0, 0, 0⟩
  seen := 0
  arrived := [requestBits (.awaitUpdate 0 0 25000)]
  taken := [requestBits (.awaitUpdate 0 0 25000)]

theorem none_oversleeps_twoClients :
    (runBits twoClients).step (.plain []) (.table [] []) (fun _ => (0 : UInt32)) Wire.bits
        (fun _ => "not a request") (.timedOut 0) = runBits twoClients ∧
      ∃ reply : Response UInt64 UInt32,
        ((∃ event, reply = .update event ∧ (0 : PollId) < event.id) ∨
          ∃ state, reply = .config state ∧ 0 < state.generation) ∧
        (runBits twoClients).step (.plain []) (.table [] []) (fun _ => (0 : UInt32)) Wire.bits
            (fun _ => "not a request") (.woken 0) =
          (runBits twoClients).setConn 0 { waitingClient with
            phase := .replying ((Wire.response Wire.bits).encode reply) false } :=
  none_oversleeps .empty "config.toml" [] .missing 0 twoClients rfl (by decide +kernel)
    (by decide +kernel : (runBits twoClients).conns[0]? = some waitingClient) rfl
    (.inr (by decide +kernel))

/-- The requests that were sent on a connection, and what comes back for them. -/
structure Converses (f : Wire.Formats F S) (requests : List Request) (c : Connection)
    (replies : List (Response F S)) : Prop where
  sent : c.sent = replies.map (Wire.response f).encode
  answered : List.Forall₂ Answers (requests.take replies.length) replies
  read : ∀ reply ∈ replies, (Wire.response f).Fits reply →
    Wire.decodeFrame (Wire.response f) ((Wire.response f).encode reply) = some reply
  all : c.phase = .reading → c.inbound = [] → replies.length = requests.length

omit [F64 F] in
private theorem exists_replies {requests : List Request} {sent : List (List UInt8)}
    (hfits : ∀ r ∈ requests, (Wire.request f).Fits r)
    (h : List.Forall₂ (Replies f) (requests.map (Wire.request f).encode) sent) :
    ∃ replies : List (Response F S),
      sent = replies.map (Wire.response f).encode ∧ List.Forall₂ Answers requests replies := by
  induction requests generalizing sent with
  | nil =>
    cases h
    exact ⟨[], rfl, .nil⟩
  | cons r requests ih =>
    obtain ⟨payload, sent, hhead, htail, rfl⟩ := List.forall₂_cons_left_iff.mp h
    obtain ⟨replies, rfl, hanswers⟩ :=
      ih (fun r' hr' => hfits r' (List.mem_cons_of_mem _ hr')) htail
    have hread : requestOf f ((Wire.request f).encode r) = some r := by
      rw [requestOf, ← List.append_nil ((Wire.request f).encode r)]
      exact Wire.decodeFrame_encode _ (hfits r List.mem_cons_self) []
    rw [Replies, hread] at hhead
    obtain ⟨reply, hreply, rfl⟩ := hhead
    exact ⟨reply :: replies, rfl, .cons hreply hanswers⟩

/-- A client that sends requests gets, for the ones replied to so far, replies to them in their
order, whatever the other connections do; a task that reads on owes none. -/
theorem conversation (storage : Storage F) (path : String) (adapters : List (Adapter F))
    (file : ConfigFile) (now : DateTime) (inputs : List (ServerInput F)) {conn : Nat}
    {c : Connection}
    (hc : ((boot storage path adapters file now).run toml json single f decodeError
      inputs).conns[conn]? = some c)
    {requests : List Request} (harrived : c.arrived = requests.map (Wire.request f).encode)
    (hfits : ∀ r ∈ requests, (Wire.request f).Fits r) :
    ∃ replies, Converses f requests c replies := by
  have h := @inv_run _ _ _ f _ toml json single decodeError storage path adapters file now inputs
  have horderly := h.orderly c (List.mem_of_getElem? hc)
  have hlen := horderly.replied.length_eq
  have htaken : c.done = c.arrived.take c.sent.length := by
    rw [horderly.arrived, List.take_append_of_le_length]
    · rfl
    · rw [← hlen, Connection.done, List.length_take]
      exact Nat.min_le_right _ _
  have hreplied := horderly.replied
  rw [htaken, harrived, ← List.map_take] at hreplied
  obtain ⟨replies, hsent, hanswers⟩ := exists_replies
    (fun r hr => hfits r (List.mem_of_mem_take hr)) hreplied
  have hcount : c.sent.length = replies.length := by rw [hsent, List.length_map]
  rw [hcount] at hanswers
  refine ⟨replies, hsent, hanswers, ?_, ?_⟩
  · intro reply _ hfit
    have hread := Wire.decodeFrame_encode (Wire.response f) hfit []
    rw [List.append_nil] at hread
    exact hread
  · intro hphase hinbound
    rw [← hcount, ← hlen, ← (reading_done horderly hphase).1,
      ← List.append_nil c.taken, ← hinbound, ← horderly.arrived, harrived, List.length_map]

def stoppingClient : Connection where
  phase := .closed
  seen := 0
  arrived := [requestBits .providers, requestBits .shutdown]
  taken := [requestBits .providers, requestBits .shutdown]
  sent := [(Wire.response Wire.bits).encode (.providers []), (Wire.response Wire.bits).encode .ack]

theorem conversation_twoClients :
    ∃ replies, Converses Wire.bits [.providers, .shutdown] stoppingClient replies := by
  have hfits : ∀ r ∈ [Request.providers, .shutdown], (Wire.request Wire.bits).Fits r := by
    have hread : ∀ r ∈ [Request.providers, .shutdown],
        Wire.decodeFrame (Wire.request Wire.bits) ((Wire.request Wire.bits).encode r) = some r := by
      decide
    exact fun r hr => Wire.fits_of_decodeFrame _ (hread r hr)
  exact conversation .empty "config.toml" [] .missing 0 twoClients
    (by decide +kernel : (runBits twoClients).conns[1]? = some stoppingClient) rfl hfits

end Runs
end Server
end Teiryo
