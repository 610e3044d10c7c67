import Teiryo.Framework.Stream
import Teiryo.Framework.Utf8

/-!
# The connection handshake

Raw bytes that open every connection, following `teiryo-core/src/protocol/handshake.rs`. The
client sends its hello and its build commit. The daemon answers with one byte, and then with its
own commit or, when it speaks another version, with that version.
-/

namespace Teiryo

/-- Handshake failure. An I/O failure is the stream ending before a read is complete. -/
inductive HandshakeError where
  | badMagic (magic : List UInt8)
  | versionMismatch (ours theirs : UInt16)
  | rejected (daemon : Option UInt16)
  | commitTooLong (len : UInt16)
  | unexpectedReply (reply : UInt8)
  | io
  deriving DecidableEq, Repr

namespace Handshake

/-- The bytes of "TEIR". -/
def protocolMagic : List UInt8 := [0x54, 0x45, 0x49, 0x52]

def protocolVersion : UInt16 := 9

def helloAccepted : UInt8 := 0x00

def helloRejectedVersion : UInt8 := 0x01

/-- Longest build commit either side sends or accepts, in bytes. -/
def maxCommitLen : Nat := 256

/-- `u16::to_le_bytes`. -/
def toLeBytes (n : UInt16) : List UInt8 := [UInt8.ofNat n.toNat, UInt8.ofNat (n.toNat / 256)]

/-- `u16::from_le_bytes`. -/
def fromLeBytes (buf : List UInt8) : UInt16 :=
  UInt16.ofNat ((buf.getD 0 0).toNat + 256 * (buf.getD 1 0).toNat)

/-- A commit as it goes on the wire: its byte length, then its bytes, cut at a character
boundary. -/
def encodeCommit (commit : String) : List UInt8 :=
  let bytes := Utf8.encode commit.toList
  let cut := bytes.take (Utf8.floorBoundary bytes (min bytes.length maxCommitLen))
  toLeBytes (UInt16.ofNat cut.length) ++ cut

/-- The hello preamble. -/
structure Hello where
  magic : List UInt8
  protocolVersion : UInt16
  deriving DecidableEq, Repr

namespace Hello

/-- The hello of a build that speaks this version. -/
def current (version : UInt16) : Hello where
  magic := protocolMagic
  protocolVersion := version

def toBytes (hello : Hello) : List UInt8 := hello.magic ++ toLeBytes hello.protocolVersion

def fromBytes (buf : List UInt8) : Hello where
  magic := buf.take 4
  protocolVersion := fromLeBytes (buf.drop 4)

end Hello

/-- Everything a client opens a connection with. -/
def helloMessage (version : UInt16) (commit : String) : List UInt8 :=
  (Hello.current version).toBytes ++ encodeCommit commit

/-- A program on the stream that may fail. -/
abbrev Handshaking := ExceptT HandshakeError Proc

def readExact (n : Nat) : Handshaking (List UInt8) :=
  ExceptT.mk (.readExact n fun
    | some bytes => .done (.ok bytes)
    | none => .done (.error .io))

def writeAll (bytes : List UInt8) : Handshaking Unit :=
  ExceptT.mk (.write bytes (.done (.ok ())))

/-- Read one commit written by `encodeCommit`. -/
def readCommit : Handshaking String := do
  let len := fromLeBytes (← readExact 2)
  if maxCommitLen < len.toNat then throw (.commitTooLong len)
  else
    let bytes ← readExact len.toNat
    return Utf8.fromUtf8Lossy bytes

/-- The version a rejecting daemon sends, if it sends one. -/
def readDaemonVersion : Proc (Option UInt16) :=
  .readExact 2 fun
    | some bytes => .done (some (fromLeBytes bytes))
    | none => .done none

/-- Await the daemon's verdict. -/
def awaitVerdict : Handshaking String := do
  let reply := (← readExact 1).getD 0 0
  if reply = helloAccepted then readCommit
  else if reply = helloRejectedVersion then
    let daemon ← ExceptT.lift readDaemonVersion
    throw (.rejected daemon)
  else throw (.unexpectedReply reply)

/-- Client side: send our hello and our commit, await the verdict. On accept, the daemon's commit
is returned. -/
def clientHandshake (version : UInt16) (commit : String) : Handshaking String := do
  writeAll (helloMessage version commit)
  awaitVerdict

/-- Server side: read the peer's hello, accept or reject it. On accept, the client's commit is
returned; it is read only once the version matched. -/
def serverHandshake (version : UInt16) (commit : String) : Handshaking String := do
  let hello := Hello.fromBytes (← readExact 6)
  if hello.magic ≠ protocolMagic then throw (.badMagic hello.magic)
  else if hello.protocolVersion ≠ version then
    writeAll (helloRejectedVersion :: toLeBytes version)
    throw (.versionMismatch version hello.protocolVersion)
  else
    let clientCommit ← readCommit
    writeAll (helloAccepted :: encodeCommit commit)
    return clientCommit

example : (Hello.current protocolVersion).toBytes = [0x54, 0x45, 0x49, 0x52, 9, 0] := by decide

example : helloMessage protocolVersion "abc" =
    [0x54, 0x45, 0x49, 0x52, 9, 0, 3, 0, 0x61, 0x62, 0x63] := by decide

@[simp] theorem fromLeBytes_toLeBytes (n : UInt16) : fromLeBytes (toLeBytes n) = n := by
  have hlt := n.toNat_lt
  rw [← UInt16.toNat_inj, fromLeBytes]
  simp only [toLeBytes, List.getD_cons_zero, List.getD_cons_succ, UInt8.toNat_ofNat',
    UInt16.toNat_ofNat']
  omega

@[simp] theorem length_toLeBytes (n : UInt16) : (toLeBytes n).length = 2 := rfl

private theorem run_readExact {β : Type} {bytes : List UInt8} {n : Nat} (hn : bytes.length = n)
    (f : List UInt8 → Handshaking β) (more : List UInt8) :
    (readExact n >>= f).run.run (bytes ++ more) = (f bytes).run.run more := by
  subst hn
  change Proc.run (.readExact bytes.length _) (bytes ++ more) = _
  have hlen : bytes.length ≤ (bytes ++ more).length := by
    rw [List.length_append]
    omega
  rw [Proc.run, if_pos hlen, List.take_left, List.drop_left]
  rfl

private theorem run_writeAll {β : Type} (bytes : List UInt8) (f : Unit → Handshaking β)
    (input : List UInt8) : (writeAll bytes >>= f).run.run input =
      { (f ()).run.run input with written := bytes ++ ((f ()).run.run input).written } := rfl

private theorem run_bind_of_ok {α β : Type} {p : Handshaking α} {a : α} {input rest : List UInt8}
    (h : p.run.run input = ⟨.ok a, rest, []⟩) (f : α → Handshaking β) :
    (p >>= f).run.run input = (f a).run.run rest := by
  have hbind := Proc.run_bind p (ExceptT.bindCont f) input
  change Proc.run (Proc.bind p (ExceptT.bindCont f)) input = _
  rw [hbind]
  change Proc.run p input = _ at h
  rw [h]
  rfl

private theorem run_bind_of_error {α β : Type} {p : Handshaking α} {e : HandshakeError}
    {input rest : List UInt8} (h : p.run.run input = ⟨.error e, rest, []⟩)
    (f : α → Handshaking β) : (p >>= f).run.run input = ⟨.error e, rest, []⟩ := by
  have hbind := Proc.run_bind p (ExceptT.bindCont f) input
  change Proc.run (Proc.bind p (ExceptT.bindCont f)) input = _
  rw [hbind]
  change Proc.run p input = _ at h
  rw [h]
  rfl

private theorem run_readCommit_tooLong {len : UInt16} (hlen : maxCommitLen < len.toNat)
    (more : List UInt8) :
    readCommit.run.run (toLeBytes len ++ more) = ⟨.error (.commitTooLong len), more, []⟩ := by
  rw [readCommit, run_readExact (length_toLeBytes len), fromLeBytes_toLeBytes, if_pos hlen]
  rfl

private theorem run_readCommit (commit : String) :
    ∃ cut : String, Utf8.IsCut maxCommitLen commit.toList cut.toList ∧
      ∀ more, readCommit.run.run (encodeCommit commit ++ more) = ⟨.ok cut, more, []⟩ := by
  obtain ⟨pre, hcut, htake⟩ := Utf8.take_floorBoundary commit.toList maxCommitLen
  have hfits : (Utf8.encode pre).length ≤ 256 := hcut.fits
  have hlen : (UInt16.ofNat (Utf8.encode pre).length).toNat = (Utf8.encode pre).length := by
    rw [UInt16.toNat_ofNat']
    omega
  refine ⟨String.ofList pre, ?_, ?_⟩
  · rw [String.toList_ofList]
    exact hcut
  · intro more
    have hshort : ¬ maxCommitLen < (Utf8.encode pre).length := not_lt.mpr hcut.fits
    rw [encodeCommit]
    simp only [htake]
    rw [readCommit, List.append_assoc, run_readExact (length_toLeBytes _), fromLeBytes_toLeBytes]
    dsimp only
    rw [hlen, if_neg hshort, run_readExact rfl, Utf8.fromUtf8Lossy_encode]
    rfl

private theorem fromBytes_toBytes {hello : Hello} (h : hello.magic.length = 4) :
    Hello.fromBytes hello.toBytes = hello := by
  unfold Hello.fromBytes Hello.toBytes
  rw [← h, List.take_left, List.drop_left, fromLeBytes_toLeBytes]

private theorem length_toBytes {hello : Hello} (h : hello.magic.length = 4) :
    hello.toBytes.length = 6 := by
  rw [Hello.toBytes, List.length_append, h, length_toLeBytes]

private theorem length_current (version : UInt16) : (Hello.current version).magic.length = 4 := rfl

private theorem clientHandshake_eq (version : UInt16) (commit : String) :
    (clientHandshake version commit).run =
      .write (helloMessage version commit) awaitVerdict.run := rfl

private theorem run_clientHandshake (version : UInt16) (commit : String) {reply rest : List UInt8}
    {verdict : Except HandshakeError String}
    (h : awaitVerdict.run.run reply = ⟨verdict, rest, []⟩) :
    (clientHandshake version commit).run.run reply =
      ⟨verdict, rest, helloMessage version commit⟩ := by
  rw [clientHandshake_eq, Proc.run, h, List.append_nil]

private theorem run_awaitVerdict_accepted {commit cut : String}
    (h : ∀ more, readCommit.run.run (encodeCommit commit ++ more) = ⟨.ok cut, more, []⟩)
    (more : List UInt8) :
    awaitVerdict.run.run (helloAccepted :: encodeCommit commit ++ more) =
      ⟨.ok cut, more, []⟩ := by
  change awaitVerdict.run.run ([helloAccepted] ++ (encodeCommit commit ++ more)) = _
  have hone : [helloAccepted].length = 1 := rfl
  rw [awaitVerdict, run_readExact hone]
  exact h more

private theorem run_awaitVerdict_rejected (daemon : UInt16) (more : List UInt8) :
    awaitVerdict.run.run (helloRejectedVersion :: toLeBytes daemon ++ more) =
      ⟨.error (.rejected (some daemon)), more, []⟩ := by
  change awaitVerdict.run.run ([helloRejectedVersion] ++ (toLeBytes daemon ++ more)) = _
  have hone : [helloRejectedVersion].length = 1 := rfl
  rw [awaitVerdict, run_readExact hone]
  change Proc.run (.readExact 2 _) (toLeBytes daemon ++ more) = _
  rw [Proc.run, if_pos (by simp [toLeBytes])]
  change (⟨.error (.rejected (some (fromLeBytes (toLeBytes daemon)))), more, []⟩ :
    Proc.Outcome (Except HandshakeError String)) = _
  rw [fromLeBytes_toLeBytes]

private theorem run_serverHandshake (version : UInt16) (commit : String) {hello : Hello}
    (hmagic : hello.magic.length = 4) (more : List UInt8) :
    (serverHandshake version commit).run.run (hello.toBytes ++ more) =
      if hello.magic ≠ protocolMagic then ⟨.error (.badMagic hello.magic), more, []⟩
      else if hello.protocolVersion ≠ version then
        ⟨.error (.versionMismatch version hello.protocolVersion), more,
          helloRejectedVersion :: toLeBytes version⟩
      else (readCommit >>= fun clientCommit => do
        writeAll (helloAccepted :: encodeCommit commit)
        return clientCommit).run.run more := by
  rw [serverHandshake, run_readExact (length_toBytes hmagic), fromBytes_toBytes hmagic]
  dsimp only
  split
  · rfl
  · split
    · rfl
    · rfl

private theorem run_serverHandshake_accepted (version : UInt16) (commit : String)
    {clientCommit cut : String}
    (h : ∀ more, readCommit.run.run (encodeCommit clientCommit ++ more) = ⟨.ok cut, more, []⟩)
    (more : List UInt8) :
    (serverHandshake version commit).run.run (helloMessage version clientCommit ++ more) =
      ⟨.ok cut, more, helloAccepted :: encodeCommit commit⟩ := by
  rw [helloMessage, List.append_assoc, run_serverHandshake _ _ (length_current version),
    if_neg (by simp [Hello.current]), if_neg (by simp [Hello.current]),
    run_bind_of_ok (h more), run_writeAll]
  change (⟨.ok cut, more, (helloAccepted :: encodeCommit commit) ++ []⟩ :
    Proc.Outcome (Except HandshakeError String)) = _
  rw [List.append_nil]

/-- Both sides before anything was sent. -/
def opening (v w : UInt16) (clientCommit serverCommit : String) :
    Duplex (Except HandshakeError String) (Except HandshakeError String) where
  left := (clientHandshake v clientCommit).run
  right := (serverHandshake w serverCommit).run

/-- The results of the two sides and what is left in flight, in whatever order they go on. -/
def EndsWith (v w : UInt16) (clientCommit serverCommit : String)
    (client server : Except HandshakeError String) (unread : List UInt8) : Prop :=
  Acc Duplex.Goes (opening v w clientCommit serverCommit) ∧
    ∀ schedule : List Side,
      (schedule.foldl Duplex.step (opening v w clientCommit serverCommit)).Quiet →
        (schedule.foldl Duplex.step (opening v w clientCommit serverCommit)).left =
            .done client ∧
          (schedule.foldl Duplex.step (opening v w clientCommit serverCommit)).right =
            .done server ∧
          (schedule.foldl Duplex.step (opening v w clientCommit serverCommit)).toLeft = [] ∧
          (schedule.foldl Duplex.step (opening v w clientCommit serverCommit)).toRight = unread

/-- How a client of one version and a server of another get along. -/
structure Composes (v w : UInt16) (clientCommit serverCommit : String) : Prop where
  /-- The same version: each learns the other's commit, and reads nothing else. -/
  accepted : v = w → ∃ clientCut serverCut : String,
    Utf8.IsCut maxCommitLen clientCommit.toList clientCut.toList ∧
    Utf8.IsCut maxCommitLen serverCommit.toList serverCut.toList ∧
    (∀ more, (serverHandshake w serverCommit).run.run (helloMessage v clientCommit ++ more) =
      ⟨.ok clientCut, more, helloAccepted :: encodeCommit serverCommit⟩) ∧
    (∀ more, (clientHandshake v clientCommit).run.run
      (helloAccepted :: encodeCommit serverCommit ++ more) =
        ⟨.ok serverCut, more, helloMessage v clientCommit⟩) ∧
    EndsWith v w clientCommit serverCommit (.ok serverCut) (.ok clientCut) []
  /-- Another version: the server says so after the preamble, and the client reports it. -/
  rejected : v ≠ w →
    (∀ more, (serverHandshake w serverCommit).run.run ((Hello.current v).toBytes ++ more) =
      ⟨.error (.versionMismatch w v), more, helloRejectedVersion :: toLeBytes w⟩) ∧
    (∀ more, (clientHandshake v clientCommit).run.run
      (helloRejectedVersion :: toLeBytes w ++ more) =
        ⟨.error (.rejected (some w)), more, helloMessage v clientCommit⟩) ∧
    EndsWith v w clientCommit serverCommit (.error (.rejected (some w)))
      (.error (.versionMismatch w v)) (encodeCommit clientCommit)
  /-- Not a hello at all: nothing is answered. -/
  badMagic : ∀ (hello : Hello) more, hello.magic.length = 4 → hello.magic ≠ protocolMagic →
    (serverHandshake w serverCommit).run.run (hello.toBytes ++ more) =
      ⟨.error (.badMagic hello.magic), more, []⟩
  /-- A commit that is declared too long: nothing is answered. -/
  commitTooLong : ∀ (len : UInt16) more, maxCommitLen < len.toNat →
    (serverHandshake w serverCommit).run.run ((Hello.current w).toBytes ++ toLeBytes len ++ more) =
      ⟨.error (.commitTooLong len), more, []⟩

/-- The two sides of the handshake compose, for every pair of versions and commits. -/
theorem handshake_composes (v w : UInt16) (clientCommit serverCommit : String) :
    Composes v w clientCommit serverCommit where
  accepted := by
    rintro rfl
    obtain ⟨clientCut, hclient, hreadClient⟩ := run_readCommit clientCommit
    obtain ⟨serverCut, hserver, hreadServer⟩ := run_readCommit serverCommit
    have hreply := run_serverHandshake_accepted v serverCommit hreadClient
    have hverdict : ∀ more, (clientHandshake v clientCommit).run.run
        (helloAccepted :: encodeCommit serverCommit ++ more) =
          ⟨.ok serverCut, more, helloMessage v clientCommit⟩ := fun more =>
      run_clientHandshake v clientCommit (run_awaitVerdict_accepted hreadServer more)
    refine ⟨clientCut, serverCut, hclient, hserver, hreply, hverdict, Duplex.acc_goes _, ?_⟩
    exact Duplex.quiet_result hreply hverdict
  rejected := by
    intro hne
    have hreply : ∀ more, (serverHandshake w serverCommit).run.run
        ((Hello.current v).toBytes ++ more) =
          ⟨.error (.versionMismatch w v), more, helloRejectedVersion :: toLeBytes w⟩ := by
      intro more
      have hother : (Hello.current v).protocolVersion ≠ w := hne
      rw [run_serverHandshake _ _ (length_current v), if_neg (by simp [Hello.current]),
        if_pos hother]
      rfl
    have hverdict : ∀ more, (clientHandshake v clientCommit).run.run
        (helloRejectedVersion :: toLeBytes w ++ more) =
          ⟨.error (.rejected (some w)), more, helloMessage v clientCommit⟩ := fun more =>
      run_clientHandshake v clientCommit (run_awaitVerdict_rejected w more)
    refine ⟨hreply, hverdict, Duplex.acc_goes _, ?_⟩
    apply Duplex.quiet_result
    · intro more
      rw [helloMessage, List.append_assoc]
      exact hreply _
    · exact hverdict
  badMagic := by
    intro hello more hlen hmagic
    rw [run_serverHandshake _ _ hlen, if_pos hmagic]
  commitTooLong := by
    intro len more hlen
    have hread := run_readCommit_tooLong hlen more
    rw [List.append_assoc, run_serverHandshake _ _ (length_current w),
      if_neg (by simp [Hello.current]), if_neg (by simp [Hello.current])]
    exact run_bind_of_error hread _

end Handshake
end Teiryo
