import Teiryo.Framework.Run

/-!
# The single daemon

Processes that bind the daemon's socket and let go of it, one system call at a time, following
`teiryod/src/paths.rs`. The kernel keeps two files for them: the lock file, which is never removed
and so is one file for all, and the socket file, which comes and goes.
-/

namespace Teiryo

/-- A socket file: which one it is, and the inode number it goes by. Numbers may come back. -/
structure SocketFile where
  id : Nat
  ino : Nat
  deriving DecidableEq, Repr

/-- A descriptor of the lock file. -/
inductive LockFd where
  | closed
  | opened
  | locked
  deriving DecidableEq, Repr

/-- What `bind_socket` returns. -/
inductive BindOutcome where
  | bound
  | alreadyRunning
  | error
  deriving DecidableEq, Repr

/-- A system call of the destructors. -/
inductive Drop where
  /-- The listener is closed. -/
  | listener
  /-- The guard looks at the socket path. -/
  | guardStat
  /-- The guard removes the socket file it still found there. -/
  | guardUnlink
  /-- The lock file is closed, which releases the lock. -/
  | lock
  deriving DecidableEq, Repr

/-- The system call a process makes next, in the order of the source. -/
inductive Pc where
  | openLock
  | flock
  | bind
  | connect
  | remove
  | rebind
  | listen
  | stat
  | chmod
  | nonblocking
  /-- The daemon serves. -/
  | bound
  | dropping (todo : List Drop) (outcome : BindOutcome)
  | returned (outcome : BindOutcome)
  | crashed
  deriving DecidableEq, Repr

/-- One process. The last field records history: the socket file it has bound, as long as it
runs. -/
structure Process where
  pc : Pc := .openLock
  lockFd : LockFd := .closed
  listener : Option SocketFile := none
  listening : Bool := false
  guardIno : Option Nat := none
  file : Option SocketFile := none
  deriving DecidableEq, Repr

/-- What the kernel answers a process from. -/
structure Kernel where
  path : Option SocketFile
  /-- Another descriptor holds the lock. -/
  lockTaken : Bool
  /-- A socket listens on the file at the path. -/
  answered : Bool
  /-- The file a `bind` would make. -/
  fresh : SocketFile

namespace Process

/-- Run the destructors of what has to go. -/
def leave (p : Process) (todo : List Drop) (outcome : BindOutcome) : Process :=
  match todo with
  | [] => { p with pc := .returned outcome, guardIno := none, file := none }
  | _ :: _ => { p with pc := .dropping todo outcome }

/-- One destructor's system call. -/
def runDrop (p : Process) (path : Option SocketFile) (d : Drop) (rest : List Drop)
    (outcome : BindOutcome) : Process × Option SocketFile :=
  match d with
  | .listener => ({ p with listener := none, listening := false }.leave rest outcome, path)
  | .guardStat =>
    match path with
    | some f =>
      if p.guardIno = some f.ino then (p.leave (.guardUnlink :: rest) outcome, path)
      else (p.leave rest outcome, path)
    | none => (p.leave rest outcome, path)
  | .guardUnlink => (p.leave rest outcome, none)
  | .lock => ({ p with lockFd := .closed }.leave rest outcome, path)

/-- The next system call, when the kernel has no trouble of its own. -/
def call (p : Process) (k : Kernel) : Process × Option SocketFile :=
  match p.pc with
  | .openLock => ({ p with pc := .flock, lockFd := .opened }, k.path)
  | .flock =>
    if k.lockTaken then (p.leave [.lock] .alreadyRunning, k.path)
    else ({ p with pc := .bind, lockFd := .locked }, k.path)
  | .bind =>
    match k.path with
    | none =>
      ({ p with pc := .listen, listener := some k.fresh, file := some k.fresh }, some k.fresh)
    | some _ => ({ p with pc := .connect }, k.path)
  | .connect =>
    match k.path with
    | none => (p.leave [.lock] .error, k.path)
    | some _ =>
      if k.answered then (p.leave [.lock] .alreadyRunning, k.path)
      else ({ p with pc := .remove }, k.path)
  | .remove =>
    match k.path with
    | none => (p.leave [.lock] .error, k.path)
    | some _ => ({ p with pc := .rebind }, none)
  | .rebind =>
    match k.path with
    | none =>
      ({ p with pc := .listen, listener := some k.fresh, file := some k.fresh }, some k.fresh)
    | some _ => (p.leave [.lock] .error, k.path)
  | .listen => ({ p with pc := .stat, listening := true }, k.path)
  | .stat =>
    match k.path with
    | none => (p.leave [.listener, .lock] .error, k.path)
    | some f => ({ p with pc := .chmod, guardIno := some f.ino }, k.path)
  | .chmod =>
    match k.path with
    | none => (p.leave [.guardStat, .lock, .listener] .error, k.path)
    | some _ => ({ p with pc := .nonblocking }, k.path)
  | .nonblocking => ({ p with pc := .bound }, k.path)
  | .bound => (p, k.path)
  | .dropping [] outcome => (p.leave [] outcome, k.path)
  | .dropping (d :: rest) outcome => p.runDrop k.path d rest outcome
  | .returned _ => (p, k.path)
  | .crashed => (p, k.path)

/-- The next system call fails for another reason. What was acquired so far is dropped, the guard
before the listener; the guard's own calls are ignored when they fail, and closing does not. -/
def fail (p : Process) : Process :=
  match p.pc with
  | .openLock => p.leave [] .error
  | .flock => p.leave [.lock] .error
  | .bind => p.leave [.lock] .error
  | .connect => p.leave [.lock] .error
  | .remove => p.leave [.lock] .error
  | .rebind => p.leave [.lock] .error
  | .listen => p.leave [.listener, .lock] .error
  | .stat => p.leave [.listener, .lock] .error
  | .chmod => p.leave [.guardStat, .lock, .listener] .error
  | .nonblocking => p.leave [.guardStat, .lock, .listener] .error
  | .dropping (.guardStat :: rest) outcome => p.leave rest outcome
  | .dropping (.guardUnlink :: rest) outcome => p.leave rest outcome
  | _ => p

/-- The daemon stops: its listener and its guard are dropped, in either order. -/
def drop (p : Process) (listenerFirst : Bool) : Process :=
  match p.pc with
  | .bound =>
    p.leave (if listenerFirst then [.listener, .guardStat, .lock]
      else [.guardStat, .lock, .listener]) .bound
  | _ => p

/-- The process dies, and the kernel closes its descriptors. -/
def crash (_ : Process) : Process where
  pc := .crashed

end Process

/-- All processes, and the socket file at the path. -/
structure Instances where
  procs : List Process := []
  path : Option SocketFile := none
  nextId : Nat := 0
  deriving DecidableEq, Repr

inductive InstanceInput where
  /-- Another process runs `bind_socket`. -/
  | start
  /-- A process makes its next system call; a file it makes gets this inode number. -/
  | call (p : Nat) (ino : Nat)
  | fail (p : Nat)
  | drop (p : Nat) (listenerFirst : Bool)
  | crash (p : Nat)
  deriving DecidableEq, Repr

namespace Instances

/-- No process yet, but maybe a socket file from before. -/
def boot (stale : Option Nat) : Instances where
  path := stale.map fun ino => { id := 0, ino }
  nextId := 1

def lockTaken (s : Instances) : Bool := s.procs.any fun q => decide (q.lockFd = .locked)

def kernel (s : Instances) (ino : Nat) : Kernel where
  path := s.path
  lockTaken := s.lockTaken
  answered := s.procs.any fun q =>
    q.listening && q.listener.isSome && decide (q.listener = s.path)
  fresh := { id := s.nextId, ino }

def modify (s : Instances) (p : Nat) (f : Process → Process) : Instances :=
  match s.procs[p]? with
  | none => s
  | some proc => { s with procs := s.procs.set p (f proc) }

def step (s : Instances) : InstanceInput → Instances
  | .start => { s with procs := s.procs ++ [{}] }
  | .call p ino =>
    match s.procs[p]? with
    | none => s
    | some proc =>
      let result := proc.call (s.kernel ino)
      { procs := s.procs.set p result.1, path := result.2, nextId := s.nextId + 1 }
  | .fail p => s.modify p Process.fail
  | .drop p listenerFirst => s.modify p fun proc => proc.drop listenerFirst
  | .crash p => s.modify p Process.crash

def run (s : Instances) (inputs : List InstanceInput) : Instances := inputs.foldl step s

end Instances

/-! ## One process -/

namespace Process

/-- The process has bound nothing. -/
structure Bare (p : Process) : Prop where
  listener : p.listener = none
  file : p.file = none

/-- The process holds the lock, and the file it bound is at the path. -/
structure Owns (p : Process) (path : Option SocketFile) (f : SocketFile) : Prop where
  locked : p.lockFd = .locked
  path : path = some f
  file : p.file = some f

/-- The process listens on the file it bound. -/
structure Listens (p : Process) (f : SocketFile) : Prop where
  file : p.file = some f
  listener : p.listener = some f
  listening : p.listening = true

/-- What a process holds by what is left to drop. The guard's calls come before the lock is
closed. -/
inductive DropOk (p : Process) (path : Option SocketFile) : List Drop → Prop where
  | bare (h : p.Bare) : DropOk p path [.lock]
  | lock (h : p.lockFd = .locked) (hl : p.listener = none) : DropOk p path [.lock]
  | listener_lock (h : p.lockFd = .locked) : DropOk p path [.listener, .lock]
  | guard_lock_listener {f : SocketFile} (h : p.Owns path f) (hg : p.guardIno = some f.ino)
      (hl : p.Listens f) : DropOk p path [.guardStat, .lock, .listener]
  | unlink_lock_listener {f : SocketFile} (h : p.Owns path f) (hl : p.Listens f) :
      DropOk p path [.guardUnlink, .lock, .listener]
  | lock_listener {f : SocketFile} (h : p.lockFd = .locked) (hl : p.Listens f) :
      DropOk p path [.lock, .listener]
  | listener {f : SocketFile} (h : p.lockFd = .closed) (hl : p.Listens f) :
      DropOk p path [.listener]
  | listener_guard_lock {f : SocketFile} (h : p.Owns path f) (hg : p.guardIno = some f.ino) :
      DropOk p path [.listener, .guardStat, .lock]
  | guard_lock {f : SocketFile} (h : p.Owns path f) (hg : p.guardIno = some f.ino)
      (hl : p.listener = none) : DropOk p path [.guardStat, .lock]
  | unlink_lock {f : SocketFile} (h : p.Owns path f) (hl : p.listener = none) :
      DropOk p path [.guardUnlink, .lock]

/-- What a process holds by the call it makes next. -/
def Held (p : Process) (path : Option SocketFile) : Prop :=
  match p.pc with
  | .openLock => p.lockFd = .closed ∧ p.Bare
  | .flock => p.lockFd = .opened ∧ p.Bare
  | .bind => p.lockFd = .locked ∧ p.Bare
  | .connect => p.lockFd = .locked ∧ p.Bare ∧ path.isSome
  | .remove => p.lockFd = .locked ∧ p.Bare ∧ path.isSome
  | .rebind => p.lockFd = .locked ∧ p.Bare ∧ path = none
  | .listen => ∃ f, p.Owns path f ∧ p.listener = some f
  | .stat => ∃ f, p.Owns path f ∧ p.Listens f
  | .chmod => ∃ f, p.Owns path f ∧ p.Listens f ∧ p.guardIno = some f.ino
  | .nonblocking => ∃ f, p.Owns path f ∧ p.Listens f ∧ p.guardIno = some f.ino
  | .bound => ∃ f, p.Owns path f ∧ p.Listens f ∧ p.guardIno = some f.ino
  | .dropping todo _ => p.DropOk path todo
  | .returned _ => p.lockFd = .closed ∧ p.Bare
  | .crashed => p.lockFd = .closed ∧ p.Bare

/-- What a process holds; its listener is on the file it bound. -/
structure Ok (p : Process) (path : Option SocketFile) : Prop where
  held : p.Held path
  listener_eq : ∀ f, p.listener = some f → p.file = some f

variable {p p' : Process} {path path' : Option SocketFile} {k : Kernel}

/-- A process holds the lock, or has bound nothing, or has only its listener left to close. -/
theorem Held.phase (h : p.Held path) :
    p.lockFd = .locked ∨ (p.Bare ∧ ∀ path', p.Held path') ∨
      (p.lockFd = .closed ∧ ∃ f outcome, p.Listens f ∧ p.pc = .dropping [.listener] outcome) := by
  unfold Held at h ⊢
  cases hpc : p.pc with
  | openLock =>
    simp only [hpc] at h ⊢
    exact .inr (.inl ⟨h.2, fun _ => h⟩)
  | flock =>
    simp only [hpc] at h ⊢
    exact .inr (.inl ⟨h.2, fun _ => h⟩)
  | bind => simp only [hpc] at h; exact .inl h.1
  | connect => simp only [hpc] at h; exact .inl h.1
  | remove => simp only [hpc] at h; exact .inl h.1
  | rebind => simp only [hpc] at h; exact .inl h.1
  | listen => simp only [hpc] at h; obtain ⟨f, h, -⟩ := h; exact .inl h.locked
  | stat => simp only [hpc] at h; obtain ⟨f, h, -⟩ := h; exact .inl h.locked
  | chmod => simp only [hpc] at h; obtain ⟨f, h, -⟩ := h; exact .inl h.locked
  | nonblocking => simp only [hpc] at h; obtain ⟨f, h, -⟩ := h; exact .inl h.locked
  | bound => simp only [hpc] at h; obtain ⟨f, h, -⟩ := h; exact .inl h.locked
  | dropping todo outcome =>
    simp only [hpc] at h ⊢
    cases h with
    | bare h => exact .inr (.inl ⟨h, fun _ => .bare h⟩)
    | lock h => exact .inl h
    | listener_lock h => exact .inl h
    | guard_lock_listener h => exact .inl h.locked
    | unlink_lock_listener h => exact .inl h.locked
    | lock_listener h => exact .inl h
    | listener h hl => exact .inr (.inr ⟨h, _, outcome, hl, rfl⟩)
    | listener_guard_lock h => exact .inl h.locked
    | guard_lock h => exact .inl h.locked
    | unlink_lock h => exact .inl h.locked
  | returned outcome =>
    simp only [hpc] at h ⊢
    exact .inr (.inl ⟨h.2, fun _ => h⟩)
  | crashed =>
    simp only [hpc] at h ⊢
    exact .inr (.inl ⟨h.2, fun _ => h⟩)

/-- The socket file of a process without the lock may come and go. -/
theorem Held.frame (h : p.Held path) (hfree : p.lockFd ≠ .locked) : p.Held path' := by
  rcases h.phase with hlocked | ⟨-, hheld⟩ | ⟨hclosed, f, outcome, hlistens, hpc⟩
  · exact absurd hlocked hfree
  · exact hheld path'
  · unfold Held
    rw [hpc]
    exact .listener hclosed hlistens

/-- A process that has bound a file holds the lock, or has only its listener left to close. -/
theorem Ok.locked_or_closing (h : p.Ok path) {f : SocketFile} (hf : p.file = some f) :
    p.lockFd = .locked ∨ p.Listens f ∧ ∃ outcome, p.pc = .dropping [.listener] outcome := by
  rcases h.held.phase with hlocked | ⟨hbare, -⟩ | ⟨-, g, outcome, hlistens, hpc⟩
  · exact .inl hlocked
  · rw [hbare.file] at hf
    cases hf
  · have heq := hlistens.file
    rw [hf] at heq
    cases heq
    exact .inr ⟨hlistens, outcome, hpc⟩

private theorem ok_dropping {d : Drop} {rest : List Drop} {outcome : BindOutcome}
    (h : ({ p with pc := .dropping (d :: rest) outcome } : Process).DropOk path (d :: rest))
    (hl : ∀ f, p.listener = some f → p.file = some f) :
    (p.leave (d :: rest) outcome).Ok path :=
  ⟨h, hl⟩

private theorem ok_returned {outcome : BindOutcome} (h : p.lockFd = .closed)
    (hl : p.listener = none) : (p.leave [] outcome).Ok path := by
  refine ⟨⟨h, hl, rfl⟩, ?_⟩
  intro f hf
  change p.listener = some f at hf
  rw [hl] at hf
  cases hf

private theorem ok_runDrop {d : Drop} {rest : List Drop} (h : p.DropOk path (d :: rest))
    (hl : ∀ f, p.listener = some f → p.file = some f) (outcome : BindOutcome) :
    (p.runDrop path d rest outcome).1.Ok (p.runDrop path d rest outcome).2 := by
  have hnone : ∀ f, (none : Option SocketFile) = some f → p.file = some f := by
    intro f hf
    cases hf
  cases h with
  | bare h => exact ok_returned rfl h.listener
  | lock h hlistener => exact ok_returned rfl hlistener
  | listener_lock h => exact ok_dropping (.lock h rfl) hnone
  | guard_lock_listener h hg hlisten =>
    simp only [runDrop, h.path, if_pos hg]
    exact ok_dropping (.unlink_lock_listener ⟨h.locked, rfl, h.file⟩
      ⟨hlisten.file, hlisten.listener, hlisten.listening⟩) hl
  | unlink_lock_listener h hlisten =>
    exact ok_dropping (.lock_listener h.locked
      ⟨hlisten.file, hlisten.listener, hlisten.listening⟩) hl
  | lock_listener h hlisten =>
    exact ok_dropping (.listener rfl ⟨hlisten.file, hlisten.listener, hlisten.listening⟩) hl
  | listener h => exact ok_returned h rfl
  | listener_guard_lock h hg =>
    exact ok_dropping (.guard_lock ⟨h.locked, h.path, h.file⟩ hg rfl) hnone
  | guard_lock h hg hlistener =>
    simp only [runDrop, h.path, if_pos hg]
    exact ok_dropping (.unlink_lock ⟨h.locked, rfl, h.file⟩ hlistener) hl
  | unlink_lock h hlistener => exact ok_dropping (.lock h.locked hlistener) hl

/-- A system call leaves a process holding what it should. -/
theorem ok_call (h : p.Ok k.path) : (p.call k).1.Ok (p.call k).2 := by
  obtain ⟨hheld, hl⟩ := h
  unfold Held at hheld
  cases hpc : p.pc with
  | openLock =>
    simp only [hpc] at hheld
    simp only [call, hpc]
    exact ⟨⟨rfl, hheld.2.1, hheld.2.2⟩, hl⟩
  | flock =>
    simp only [hpc] at hheld
    simp only [call, hpc]
    split
    · exact ok_dropping (.bare ⟨hheld.2.1, hheld.2.2⟩) hl
    · exact ⟨⟨rfl, hheld.2.1, hheld.2.2⟩, hl⟩
  | bind =>
    simp only [hpc] at hheld
    simp only [call, hpc]
    split
    · exact ⟨⟨k.fresh, ⟨hheld.1, rfl, rfl⟩, rfl⟩, fun f hf => hf⟩
    · rename_i f hpath
      exact ⟨⟨hheld.1, ⟨hheld.2.1, hheld.2.2⟩, by rw [hpath]; rfl⟩, hl⟩
  | connect =>
    simp only [hpc] at hheld
    simp only [call, hpc]
    split
    · exact ok_dropping (.bare ⟨hheld.2.1.1, hheld.2.1.2⟩) hl
    · rename_i f hpath
      split
      · exact ok_dropping (.bare ⟨hheld.2.1.1, hheld.2.1.2⟩) hl
      · exact ⟨⟨hheld.1, ⟨hheld.2.1.1, hheld.2.1.2⟩, by rw [hpath]; rfl⟩, hl⟩
  | remove =>
    simp only [hpc] at hheld
    simp only [call, hpc]
    split
    · exact ok_dropping (.bare ⟨hheld.2.1.1, hheld.2.1.2⟩) hl
    · exact ⟨⟨hheld.1, ⟨hheld.2.1.1, hheld.2.1.2⟩, rfl⟩, hl⟩
  | rebind =>
    simp only [hpc] at hheld
    simp only [call, hpc]
    split
    · exact ⟨⟨k.fresh, ⟨hheld.1, rfl, rfl⟩, rfl⟩, fun f hf => hf⟩
    · exact ok_dropping (.bare ⟨hheld.2.1.1, hheld.2.1.2⟩) hl
  | listen =>
    simp only [hpc] at hheld
    simp only [call, hpc]
    obtain ⟨f, howns, hlistener⟩ := hheld
    exact ⟨⟨f, ⟨howns.locked, howns.path, howns.file⟩, ⟨howns.file, hlistener, rfl⟩⟩, hl⟩
  | stat =>
    simp only [hpc] at hheld
    simp only [call, hpc]
    obtain ⟨f, howns, hlisten⟩ := hheld
    rw [howns.path]
    exact ⟨⟨f, ⟨howns.locked, rfl, howns.file⟩,
      ⟨hlisten.file, hlisten.listener, hlisten.listening⟩, rfl⟩, hl⟩
  | chmod =>
    simp only [hpc] at hheld
    simp only [call, hpc]
    obtain ⟨f, howns, hlisten, hguard⟩ := hheld
    rw [howns.path]
    exact ⟨⟨f, ⟨howns.locked, rfl, howns.file⟩,
      ⟨hlisten.file, hlisten.listener, hlisten.listening⟩, hguard⟩, hl⟩
  | nonblocking =>
    simp only [hpc] at hheld
    simp only [call, hpc]
    obtain ⟨f, howns, hlisten, hguard⟩ := hheld
    exact ⟨⟨f, ⟨howns.locked, howns.path, howns.file⟩,
      ⟨hlisten.file, hlisten.listener, hlisten.listening⟩, hguard⟩, hl⟩
  | bound =>
    simp only [call, hpc]
    refine ⟨?_, hl⟩
    unfold Held
    simpa only [hpc] using hheld
  | dropping todo outcome =>
    simp only [hpc] at hheld
    simp only [call, hpc]
    cases todo with
    | nil => cases hheld
    | cons d rest => exact ok_runDrop hheld hl outcome
  | returned outcome =>
    simp only [call, hpc]
    refine ⟨?_, hl⟩
    unfold Held
    simpa only [hpc] using hheld
  | crashed =>
    simp only [call, hpc]
    refine ⟨?_, hl⟩
    unfold Held
    simpa only [hpc] using hheld

/-- So does a failed one. -/
theorem ok_fail (h : p.Ok path) : p.fail.Ok path := by
  obtain ⟨hheld, hl⟩ := h
  have hkept : p.Ok path := ⟨hheld, hl⟩
  unfold Held at hheld
  cases hpc : p.pc with
  | openLock =>
    simp only [hpc] at hheld
    simp only [fail, hpc]
    exact ok_returned hheld.1 hheld.2.listener
  | flock =>
    simp only [hpc] at hheld
    simp only [fail, hpc]
    exact ok_dropping (.bare ⟨hheld.2.1, hheld.2.2⟩) hl
  | bind =>
    simp only [hpc] at hheld
    simp only [fail, hpc]
    exact ok_dropping (.bare ⟨hheld.2.1, hheld.2.2⟩) hl
  | connect =>
    simp only [hpc] at hheld
    simp only [fail, hpc]
    exact ok_dropping (.bare ⟨hheld.2.1.1, hheld.2.1.2⟩) hl
  | remove =>
    simp only [hpc] at hheld
    simp only [fail, hpc]
    exact ok_dropping (.bare ⟨hheld.2.1.1, hheld.2.1.2⟩) hl
  | rebind =>
    simp only [hpc] at hheld
    simp only [fail, hpc]
    exact ok_dropping (.bare ⟨hheld.2.1.1, hheld.2.1.2⟩) hl
  | listen =>
    simp only [hpc] at hheld
    simp only [fail, hpc]
    obtain ⟨f, howns, -⟩ := hheld
    exact ok_dropping (.listener_lock howns.locked) hl
  | stat =>
    simp only [hpc] at hheld
    simp only [fail, hpc]
    obtain ⟨f, howns, -⟩ := hheld
    exact ok_dropping (.listener_lock howns.locked) hl
  | chmod =>
    simp only [hpc] at hheld
    simp only [fail, hpc]
    obtain ⟨f, howns, hlisten, hguard⟩ := hheld
    exact ok_dropping (.guard_lock_listener ⟨howns.locked, howns.path, howns.file⟩ hguard
      ⟨hlisten.file, hlisten.listener, hlisten.listening⟩) hl
  | nonblocking =>
    simp only [hpc] at hheld
    simp only [fail, hpc]
    obtain ⟨f, howns, hlisten, hguard⟩ := hheld
    exact ok_dropping (.guard_lock_listener ⟨howns.locked, howns.path, howns.file⟩ hguard
      ⟨hlisten.file, hlisten.listener, hlisten.listening⟩) hl
  | bound => simpa only [fail, hpc] using hkept
  | returned outcome => simpa only [fail, hpc] using hkept
  | crashed => simpa only [fail, hpc] using hkept
  | dropping todo outcome =>
    simp only [hpc] at hheld
    cases hheld with
    | bare => simpa only [fail, hpc] using hkept
    | lock => simpa only [fail, hpc] using hkept
    | listener_lock => simpa only [fail, hpc] using hkept
    | lock_listener => simpa only [fail, hpc] using hkept
    | listener => simpa only [fail, hpc] using hkept
    | listener_guard_lock => simpa only [fail, hpc] using hkept
    | guard_lock_listener h hguard hlisten =>
      simp only [fail, hpc]
      exact ok_dropping (.lock_listener h.locked
        ⟨hlisten.file, hlisten.listener, hlisten.listening⟩) hl
    | unlink_lock_listener h hlisten =>
      simp only [fail, hpc]
      exact ok_dropping (.lock_listener h.locked
        ⟨hlisten.file, hlisten.listener, hlisten.listening⟩) hl
    | guard_lock h hguard hlistener =>
      simp only [fail, hpc]
      exact ok_dropping (.lock h.locked hlistener) hl
    | unlink_lock h hlistener =>
      simp only [fail, hpc]
      exact ok_dropping (.lock h.locked hlistener) hl

theorem ok_drop (h : p.Ok path) (listenerFirst : Bool) : (p.drop listenerFirst).Ok path := by
  unfold drop
  split
  · rename_i hpc
    have hheld := h.held
    unfold Held at hheld
    simp only [hpc] at hheld
    obtain ⟨f, howns, hlisten, hguard⟩ := hheld
    cases listenerFirst with
    | true =>
      exact ok_dropping (.listener_guard_lock ⟨howns.locked, howns.path, howns.file⟩ hguard)
        h.listener_eq
    | false =>
      exact ok_dropping (.guard_lock_listener ⟨howns.locked, howns.path, howns.file⟩ hguard
        ⟨hlisten.file, hlisten.listener, hlisten.listening⟩) h.listener_eq
  · exact h

theorem ok_crash : p.crash.Ok path :=
  ⟨⟨rfl, rfl, rfl⟩, fun _ hf => hf⟩

/-! ## What one move changes -/

/-- What a move of one process does to the files and to the lock, as far as the others see it. -/
structure Move (p : Process) (k : Kernel) (r : Process × Option SocketFile) : Prop where
  file : r.1.file = none ∨ r.1.file = p.file ∨ r.1.file = some k.fresh
  path : r.2 = none ∨ r.2 = k.path ∨ r.2 = some k.fresh
  owner : r.2 ≠ k.path → p.lockFd = .locked
  locked : r.1.lockFd = .locked → p.lockFd = .locked ∨ k.lockTaken = false
  unlink : ∀ f, k.path = some f → r.2 ≠ k.path → p.file = some f ∨ p.pc = .remove
  remove : r.1.pc = .remove → r.2 = k.path ∧ (p.pc = .remove ∨ k.answered = false)

/-- A move that makes no file and takes no lock. -/
structure Quiet (p p' : Process) : Prop where
  file : p'.file = none ∨ p'.file = p.file
  locked : p'.lockFd = .locked → p.lockFd = .locked
  remove : p'.pc = .remove → p.pc = .remove

theorem Quiet.move (h : Quiet p p') : Move p k (p', k.path) where
  file := h.file.imp_right .inl
  path := .inr (.inl rfl)
  owner := fun hpath => absurd rfl hpath
  locked := fun hlocked => .inl (h.locked hlocked)
  unlink := fun _ _ hpath => absurd rfl hpath
  remove := fun hpc => ⟨rfl, .inl (h.remove hpc)⟩

@[simp] theorem leave_lockFd (todo : List Drop) (outcome : BindOutcome) :
    (p.leave todo outcome).lockFd = p.lockFd := by
  cases todo <;> rfl

private theorem leave_file (todo : List Drop) (outcome : BindOutcome) :
    (p.leave todo outcome).file = none ∨ (p.leave todo outcome).file = p.file := by
  cases todo with
  | nil => exact .inl rfl
  | cons d rest => exact .inr rfl

private theorem leave_pc (todo : List Drop) (outcome : BindOutcome) :
    (p.leave todo outcome).pc ≠ .remove := by
  cases todo <;> simp [leave]

private theorem quiet_refl : Quiet p p :=
  ⟨.inr rfl, fun h => h, fun h => h⟩

private theorem quiet_leave (todo : List Drop) (outcome : BindOutcome) :
    Quiet p (p.leave todo outcome) := by
  constructor
  · exact leave_file todo outcome
  · intro h
    rwa [leave_lockFd] at h
  · intro h
    exact absurd h (leave_pc todo outcome)

private theorem move_leave (todo : List Drop) (outcome : BindOutcome) :
    Move p k (p.leave todo outcome, k.path) :=
  (quiet_leave todo outcome).move

private theorem move_bind (hlocked : p.lockFd = .locked) (hpath : k.path = none)
    (hfile : p'.file = some k.fresh) (hpc : p'.pc = .listen) :
    Move p k (p', some k.fresh) where
  file := .inr (.inr hfile)
  path := .inr (.inr rfl)
  owner := fun _ => hlocked
  locked := fun _ => .inl hlocked
  unlink := fun f hf => by rw [hpath] at hf; cases hf
  remove := fun h => by rw [hpc] at h; cases h

private theorem move_runDrop {d : Drop} {rest : List Drop} (h : p.DropOk k.path (d :: rest))
    (outcome : BindOutcome) :
    Move p k (p.runDrop k.path d rest outcome) := by
  cases d with
  | listener =>
    simp only [runDrop]
    apply Quiet.move
    constructor
    · exact @leave_file { p with listener := none, listening := false } rest outcome
    · intro hlocked
      rwa [leave_lockFd] at hlocked
    · intro hpc
      exact absurd hpc (leave_pc rest outcome)
  | guardStat =>
    simp only [runDrop]
    split
    · split
      · exact move_leave _ outcome
      · exact move_leave rest outcome
    · exact move_leave rest outcome
  | guardUnlink =>
    have howns : ∃ f, p.Owns k.path f := by
      cases h with
      | unlink_lock_listener h => exact ⟨_, h⟩
      | unlink_lock h => exact ⟨_, h⟩
    obtain ⟨f, howns⟩ := howns
    have hleft := @move_leave p k rest outcome
    simp only [runDrop]
    refine ⟨hleft.file, .inl rfl, fun _ => howns.locked, hleft.locked, ?_, ?_⟩
    · intro g hg _
      rw [howns.path] at hg
      cases hg
      exact .inl howns.file
    · intro hpc
      exact absurd hpc (leave_pc rest outcome)
  | lock =>
    simp only [runDrop]
    apply Quiet.move
    constructor
    · exact @leave_file { p with lockFd := .closed } rest outcome
    · intro hlocked
      rw [leave_lockFd] at hlocked
      cases hlocked
    · intro hpc
      exact absurd hpc (leave_pc rest outcome)

theorem move_call (h : p.Ok k.path) : Move p k (p.call k) := by
  have hheld := h.held
  unfold Held at hheld
  cases hpc : p.pc with
  | openLock =>
    simp only [call, hpc]
    exact Quiet.move ⟨.inr rfl, nofun, nofun⟩
  | flock =>
    simp only [call, hpc]
    split
    · exact move_leave _ _
    · rename_i hfree
      exact ⟨.inr (.inl rfl), .inr (.inl rfl), fun h => absurd rfl h,
        fun _ => .inr (Bool.eq_false_iff.mpr hfree), fun _ _ h => absurd rfl h, fun h => by cases h⟩
  | bind =>
    simp only [hpc] at hheld
    simp only [call, hpc]
    split
    · rename_i hpath
      exact move_bind hheld.1 hpath rfl rfl
    · exact Quiet.move ⟨.inr rfl, fun h => h, nofun⟩
  | connect =>
    simp only [call, hpc]
    split
    · exact move_leave _ _
    · split
      · exact move_leave _ _
      · rename_i hanswered
        exact ⟨.inr (.inl rfl), .inr (.inl rfl), fun h => absurd rfl h, fun h => .inl h,
          fun _ _ h => absurd rfl h, fun _ => ⟨rfl, .inr (Bool.eq_false_iff.mpr hanswered)⟩⟩
  | remove =>
    simp only [hpc] at hheld
    simp only [call, hpc]
    split
    · exact move_leave _ _
    · exact ⟨.inr (.inl rfl), .inl rfl, fun _ => hheld.1, fun h => .inl h,
        fun _ _ _ => .inr hpc, fun h => by cases h⟩
  | rebind =>
    simp only [hpc] at hheld
    simp only [call, hpc]
    split
    · rename_i hpath
      exact move_bind hheld.1 hpath rfl rfl
    · exact move_leave _ _
  | listen =>
    simp only [call, hpc]
    exact Quiet.move ⟨.inr rfl, fun h => h, nofun⟩
  | stat =>
    simp only [call, hpc]
    split
    · exact move_leave _ _
    · exact Quiet.move ⟨.inr rfl, fun h => h, nofun⟩
  | chmod =>
    simp only [call, hpc]
    split
    · exact move_leave _ _
    · exact Quiet.move ⟨.inr rfl, fun h => h, nofun⟩
  | nonblocking =>
    simp only [call, hpc]
    exact Quiet.move ⟨.inr rfl, fun h => h, nofun⟩
  | bound =>
    simp only [call, hpc]
    exact quiet_refl.move
  | dropping todo outcome =>
    simp only [hpc] at hheld
    simp only [call, hpc]
    cases todo with
    | nil => exact move_leave _ _
    | cons d rest => exact move_runDrop hheld outcome
  | returned outcome =>
    simp only [call, hpc]
    exact quiet_refl.move
  | crashed =>
    simp only [call, hpc]
    exact quiet_refl.move

theorem quiet_fail : Quiet p p.fail := by
  unfold fail
  split
  all_goals first
    | exact quiet_leave _ _
    | exact quiet_refl

theorem quiet_drop (listenerFirst : Bool) : Quiet p (p.drop listenerFirst) := by
  unfold drop
  split
  · exact quiet_leave _ _
  · exact quiet_refl

theorem quiet_crash : Quiet p p.crash :=
  ⟨.inl rfl, nofun, nofun⟩

end Process
end Teiryo
