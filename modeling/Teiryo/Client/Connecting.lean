import Teiryo.Core.Handshake
import Teiryo.Daemon.Throttling

/-!
# Connecting

Where the daemon is, how an attempt to reach it fails and which failures no reconnect can fix,
following `teiryo/src/client.rs` and, for what ssh says, `teiryo-core/src/protocol/ssh.rs`.
-/

namespace Teiryo

/-- `{:#04x}`. -/
def hexByte (b : UInt8) : String :=
  let digits := "0123456789abcdef".toList
  String.ofList ['0', 'x', digits.getD (b.toNat / 16) '0', digits.getD (b.toNat % 16) '0']

/-- `rejected_message`. -/
def rejectedMessage : Option UInt16 → String
  | some daemon => "daemon rejected handshake: daemon is v" ++ toString daemon.toNat ++
      ", client is v" ++ toString Handshake.protocolVersion.toNat ++ " — restart the daemon"
  | none => "daemon rejected handshake: daemon is older than v8 (it did not say which version), " ++
      "client is v" ++ toString Handshake.protocolVersion.toNat ++ " — restart the daemon"

/-- How a handshake failure reads. `ioMessage` is the text of an I/O failure. -/
def HandshakeError.display (ioMessage : String) : HandshakeError → String
  | .badMagic magic =>
    "bad handshake magic [" ++ ", ".intercalate (magic.map fun b => toString b.toNat) ++ "]"
  | .versionMismatch ours theirs => "protocol version mismatch: ours v" ++ toString ours.toNat ++
      ", peer v" ++ toString theirs.toNat ++ " — restart the daemon"
  | .rejected daemon => rejectedMessage daemon
  | .commitTooLong len =>
    "handshake build commit of " ++ toString len.toNat ++ " bytes exceeds the limit"
  | .unexpectedReply reply => "unexpected handshake reply " ++ hexByte reply
  | .io => "handshake i/o: " ++ ioMessage

/-- Client-side connection and protocol failures. -/
inductive ClientError where
  | io (message : String)
  | daemonStart (message : String)
  | handshake (error : HandshakeError) (ioMessage : String)
  | wire (message : String)
  | handshakeTimeout (limit : StdDuration)
  | sshTimeout (host : String) (limit : StdDuration)
  | noBridge (host : String)
  | ssh (host why : String)
  | closed
  deriving DecidableEq, Repr

def ClientError.display : ClientError → String
  | .io message => "socket error: " ++ message
  | .daemonStart message => message
  | .handshake error ioMessage => "handshake failed: " ++ error.display ioMessage
  | .wire message => "wire error: " ++ message
  | .handshakeTimeout limit =>
    "the daemon accepted the connection but did not answer the handshake within " ++
      toString (Config.asSecs limit) ++ "s"
  | .ssh host why => "cannot reach the daemon on " ++ host ++ " over ssh: " ++ why
  | .sshTimeout host limit => "no handshake reply from " ++ host ++ " over ssh within " ++
      toString (Config.asSecs limit) ++ "s: ssh is still running, so the network, ssh, " ++
      "the remote bridge, or the remote daemon is not answering"
  | .noBridge host =>
    "the teiryod on " ++ host ++ " has no `bridge` command, so it is older than " ++
      "this client — install the matching teiryod there and relaunch teiryo"
  | .closed => "daemon closed the connection"

structure SshTarget where
  host : String
  program : String
  remoteDaemon : String
  deriving DecidableEq, Repr

/-- Where the daemon is. -/
inductive Target where
  | local
  | ssh (target : SshTarget)
  deriving DecidableEq, Repr

def Target.host : Target → Option String
  | .local => none
  | .ssh target => some target.host

/-- The version of the daemon, where it said one, when a failure is that it speaks another. -/
def versionMismatch : ClientError → Option (Option UInt16)
  | .handshake (.rejected daemon) _ => some daemon
  | .handshake (.versionMismatch _ theirs) _ => some (some theirs)
  | _ => none

def daemonVersionLabel : Option UInt16 → String
  | some v => "v" ++ toString v.toNat
  | none => "older than v8"

def versionMismatchMessage (daemon : Option UInt16) (target : Target) : String :=
  let client := toString Handshake.protocolVersion.toNat
  match target.host with
  | none => "daemon speaks protocol " ++ daemonVersionLabel daemon ++ ", this client v" ++ client ++
      " — stop it (`pkill teiryod`) and relaunch teiryo"
  | some host => "daemon on " ++ host ++ " speaks protocol " ++ daemonVersionLabel daemon ++
      ", this client v" ++ client ++ " — install the matching teiryod there, or stop its stale " ++
      "daemon (`ssh " ++ host ++ " pkill teiryod`), and relaunch teiryo"

/-- What the user is told of a failure no reconnect can fix. -/
def incompatibleMessage (e : ClientError) (target : Target) : Option String :=
  match e with
  | .noBridge _ => some e.display
  | _ => (versionMismatch e).map fun daemon => versionMismatchMessage daemon target

/-- Whether ssh's last word is a remote `teiryod` refusing the `bridge` command. -/
def lacksBridge (why : String) : Bool :=
  decide ("unexpected argument 'bridge'".toList <:+: why.toList)

/-- What came of one attempt: what running ssh failed with, what the handshake came to, and why
ssh failed if it had exited by then. -/
structure Attempt where
  spawnError : Option String := none
  exchange : Except ClientError String
  sshFailure : Option String := none

/-- `Client::connect`, to the daemon's build commit. -/
def Target.connect (target : Target) (attempt : Attempt) : Except ClientError String :=
  match target with
  | .local => attempt.exchange
  | .ssh remote =>
    match attempt.spawnError with
    | some e => .error (.ssh remote.host ("cannot run " ++ remote.program ++ ": " ++ e))
    | none =>
      match attempt.exchange with
      | .ok daemonCommit => .ok daemonCommit
      | .error e =>
        if (versionMismatch e).isSome then .error e
        else
          match attempt.sshFailure with
          | some why =>
            if lacksBridge why then .error (.noBridge remote.host)
            else .error (.ssh remote.host why)
          | none =>
            match e with
            | .handshakeTimeout limit => .error (.sshTimeout remote.host limit)
            | e => .error e

/-- `builds_match`. -/
def buildsMatch (client daemon : String) : Bool :=
  client == daemon && !decide ("-dirty".toList <:+ client.toList) && client != "unknown"

def buildMismatch (client daemon : String) : Option String :=
  if buildsMatch client daemon then none else some (client ++ " / " ++ daemon)

def reconnectBase : StdDuration := Config.fromSecs 1

def reconnectMax : StdDuration := Config.fromSecs 30

/-- `u32::checked_shl` of one. -/
def checkedShl (n : UInt32) : Option Nat := if n.toNat < 32 then some (2 ^ n.toNat) else none

/-- The wait before a reconnect attempt. -/
def reconnectDelay (attempt : UInt32) : StdDuration :=
  ((reconnectBase.checkedMul ((checkedShl attempt).getD (2 ^ 32 - 1))).map
    (min · reconnectMax)).getD reconnectMax

/-- One second, doubling with each failure, up to thirty. -/
theorem reconnectDelay_eq (attempt : UInt32) :
    reconnectDelay attempt = Config.fromSecs (min (2 ^ attempt.toNat) 30) := by
  have hcapped : ∀ n < 2 ^ 32,
      ((reconnectBase.checkedMul n).map (min · reconnectMax)).getD reconnectMax =
        Config.fromSecs (min n 30) := by
    intro n hn
    have hfits : 1000000000 * n ≤ (2 ^ 64 - 1) * 1000000000 + 999999999 := by omega
    change ((if 1000000000 * n ≤ (2 ^ 64 - 1) * 1000000000 + 999999999
      then some (1000000000 * n) else none).map fun d => min d 30000000000).getD 30000000000 =
        min n 30 * 1000000000
    rw [if_pos hfits, Option.map_some, Option.getD_some]
    omega
  unfold reconnectDelay checkedShl
  split
  · rename_i hlt
    exact hcapped _ (Nat.pow_lt_pow_right (by decide) hlt)
  · rename_i hge
    have hpow : 2 ^ 32 ≤ 2 ^ attempt.toNat :=
      Nat.pow_le_pow_right (by decide) (Nat.le_of_not_lt hge)
    rw [Option.getD_none, hcapped _ (by decide), min_eq_right, min_eq_right]
    · exact le_trans (by decide) hpow
    · decide

end Teiryo
