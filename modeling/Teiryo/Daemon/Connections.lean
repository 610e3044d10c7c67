import Mathlib.Data.List.Forall2
import Teiryo.Daemon.Requests

/-!
# Connections

`serve` and `handle_conn` in `teiryod/src/server.rs`, past the handshake. Every connection has a
task of its own that reads a frame, answers it and reads the next; all of them work on the one
daemon, whose other tasks go on meanwhile. A task is suspended at one of three places, so it has a
phase for each.
-/

namespace Teiryo

open Toml

variable {F S Layout : Type}

/-- Where a connection's task is suspended. -/
inductive ConnPhase where
  | reading
  | awaiting (await : Daemon.Await)
  /-- A reply is being written; the last one if it acknowledges a shutdown. -/
  | replying (payload : List UInt8) (shutdown : Bool)
  | closed
  deriving DecidableEq, Repr

/-- A connection. `seen` is the version of the shutdown channel its receiver last looked at. The
last three fields record history: the payloads of the frames that arrived, of those the task took,
and of those it sent. -/
structure Connection where
  phase : ConnPhase := .reading
  inbound : List (List UInt8) := []
  hungUp : Bool := false
  seen : Nat
  arrived : List (List UInt8) := []
  taken : List (List UInt8) := []
  sent : List (List UInt8) := []
  deriving DecidableEq, Repr

structure Server (F : Type) where
  service : Service F
  shutdownTx : Watch Bool := { value := false }
  conns : List Connection := []
  stopped : Bool := false

inductive ServerInput (F : Type) where
  /-- A client connects, and its handshake is accepted. -/
  | connected
  | frame (conn : Nat) (payload : List UInt8)
  | hangUp (conn : Nat)
  /-- A reading task finds a frame, or the end of the stream. -/
  | serve (conn : Nat) (env : RequestEnv)
  /-- One of the channels of an `AwaitUpdate` has changed. -/
  | woken (conn : Nat)
  | timedOut (conn : Nat)
  /-- A reply has been written, unless the socket failed. -/
  | flushed (conn : Nat) (delivered : Bool)
  /-- A reading task finds the stream broken. -/
  | broken (conn : Nat)
  | shutdownSeen (conn : Nat)
  /-- The accept loop sees the shutdown, which ends every task. -/
  | acceptStopped
  /-- Somebody else writes `config.toml`. -/
  | edited (file : ConfigFile)
  /-- Anything else in the daemon. -/
  | daemon (input : DiscoveryInput F)

namespace Server

def setConn (s : Server F) (conn : Nat) (c : Connection) : Server F :=
  { s with conns := s.conns.set conn c }

/-- Change a connection in some phase. -/
def atConn (s : Server F) (conn : Nat) (change : Connection → Server F) : Server F :=
  match s.conns[conn]? with
  | some c => change c
  | none => s

section Steps

variable [F64 F] (toml : TomlCrates Layout) (json : SerdeJson F) (single : ℚ → S)
  (f : Wire.Formats F S) (decodeError : List UInt8 → String)

/-- The payload of a reply, to be written. -/
def Connection.reply (c : Connection) (r : Response F S) (shutdown : Bool) : Connection :=
  { c with phase := .replying ((Wire.response f).encode r) shutdown }

/-- Handle the frame a task has taken. -/
def answer (s : Server F) (conn : Nat) (c : Connection) (payload : List UInt8)
    (env : RequestEnv) : Server F :=
  match Wire.decodeFrame (Wire.request f) payload with
  | none =>
    s.setConn conn (Connection.reply f c
      (.err .badRequest ("undecodable request: " ++ decodeError payload)) false)
  | some request =>
    let handled := s.service.handleRequest toml json single env request
    { s with service := handled.2 }.setConn conn
      (match handled.1 with
        | .inl reply => Connection.reply f c reply (decide (request = Request.shutdown))
        | .inr await => { c with phase := .awaiting await })

/-- From the frame a task finds to where it suspends. -/
def serve (s : Server F) (conn : Nat) (c : Connection) (env : RequestEnv) : Server F :=
  match c.inbound with
  | [] => if c.hungUp then s.setConn conn { c with phase := .closed } else s
  | payload :: rest =>
    s.answer toml json single f decodeError conn
      { c with inbound := rest, taken := c.taken ++ [payload] } payload env

omit [F64 F] in
/-- The top of the loop of `await_update`. -/
def look (s : Server F) (conn : Nat) (c : Connection) (a : Daemon.Await) : Server F :=
  s.setConn conn
    (match s.service.daemon.awaitUpdate a.since a.configGen with
      | .inl reply => Connection.reply f c (reply.map single) false
      | .inr a => { c with phase := .awaiting a })

omit [F64 F] in
/-- A reply is out, or the connection is lost. -/
def flushed (s : Server F) (conn : Nat) (c : Connection) (payload : List UInt8) (shutdown : Bool)
    (delivered : Bool) : Server F :=
  if delivered && (sendFrame payload).isSome then
    let c := { c with sent := c.sent ++ [payload] }
    if shutdown then
      { s with shutdownTx := s.shutdownTx.sendReplace true }.setConn conn
        { c with phase := .closed }
    else s.setConn conn { c with phase := .reading }
  else s.setConn conn { c with phase := .closed }

/-- One transition. An input that nothing waits for changes nothing. -/
def step (s : Server F) (i : ServerInput F) : Server F :=
  if s.stopped then s
  else
    match i with
    | .connected => { s with conns := s.conns ++ [{ seen := s.shutdownTx.version }] }
    | .frame conn payload => s.atConn conn fun c =>
      if c.hungUp then s
      else s.setConn conn
        { c with inbound := c.inbound ++ [payload], arrived := c.arrived ++ [payload] }
    | .hangUp conn => s.atConn conn fun c => s.setConn conn { c with hungUp := true }
    | .serve conn env => s.atConn conn fun c =>
      match c.phase with
      | .reading => s.serve toml json single f decodeError conn c env
      | _ => s
    | .woken conn => s.atConn conn fun c =>
      match c.phase with
      | .awaiting a => if a.woken s.service.daemon then s.look single f conn c a else s
      | _ => s
    | .timedOut conn => s.atConn conn fun c =>
      match c.phase with
      | .awaiting a =>
        if a.woken s.service.daemon then s
        else s.setConn conn (Connection.reply f c .noUpdate false)
      | _ => s
    | .flushed conn delivered => s.atConn conn fun c =>
      match c.phase with
      | .replying payload shutdown => s.flushed conn c payload shutdown delivered
      | _ => s
    | .broken conn => s.atConn conn fun c =>
      match c.phase with
      | .reading => s.setConn conn { c with phase := .closed }
      | _ => s
    | .shutdownSeen conn => s.atConn conn fun c =>
      match c.phase with
      | .reading =>
        if s.shutdownTx.hasChanged c.seen then s.setConn conn { c with phase := .closed } else s
      | _ => s
    | .acceptStopped => if s.shutdownTx.hasChanged 0 then { s with stopped := true } else s
    | .edited file => { s with service := { s.service with file } }
    | .daemon input =>
      { s with service := { s.service with discovery := s.service.discovery.step json input } }

def run (s : Server F) (inputs : List (ServerInput F)) : Server F :=
  inputs.foldl (step toml json single f decodeError) s

omit [F64 F] in
/-- A daemon that serves, with no connection yet. -/
def boot (storage : Storage F) (configPath : String) (adapters : List (Adapter F))
    (file : ConfigFile) (now : DateTime) : Server F where
  service := { discovery := .boot storage configPath adapters now, file }

end Steps
end Server
end Teiryo
