import Teiryo.Daemon.Instance

/-!
# At most one daemon, and always one to be had

What holds of all processes together in every interleaving of their system calls, and what a
process gets that asks for the lock while nobody holds it.
-/

namespace Teiryo

/-- Another process at the same place, or the one just put there. -/
theorem getElem?_set_iff {α : Type} {as : List α} {p q : Nat} {a x y : α}
    (h : as[p]? = some a) :
    (as.set p x)[q]? = some y ↔ q = p ∧ y = x ∨ q ≠ p ∧ as[q]? = some y := by
  by_cases hq : p = q
  · subst hq
    have hlt : p < as.length := (List.getElem?_eq_some_iff.mp h).1
    rw [List.getElem?_set_self hlt]
    simp [eq_comm]
  · rw [List.getElem?_set_ne hq]
    simp [Ne.symm hq]

private theorem getElem?_concat_iff {α : Type} {as : List α} {p : Nat} {a x : α} :
    (as ++ [a])[p]? = some x ↔ as[p]? = some x ∨ p = as.length ∧ x = a := by
  rcases Nat.lt_trichotomy p as.length with hlt | heq | hgt
  · rw [List.getElem?_append_left hlt]
    simp [Nat.ne_of_lt hlt]
  · subst heq
    simp [eq_comm]
  · have hold : as[p]? = none := List.getElem?_eq_none (Nat.le_of_lt hgt)
    have hnew : (as ++ [a])[p]? = none := by
      apply List.getElem?_eq_none
      rw [List.length_append, List.length_singleton]
      omega
    simp [hold, hnew, Nat.ne_of_gt hgt]

namespace Instances

variable {s : Instances} {p q : Nat} {proc proc' : Process}

private theorem lockTaken_iff : s.lockTaken = true ↔
    ∃ q : Nat, ∃ proc, s.procs[q]? = some proc ∧ proc.lockFd = .locked := by
  simp only [lockTaken, List.any_eq_true, decide_eq_true_eq, List.mem_iff_getElem?]
  constructor
  · rintro ⟨proc, ⟨q, hq⟩, hlocked⟩
    exact ⟨q, proc, hq, hlocked⟩
  · rintro ⟨q, proc, hq, hlocked⟩
    exact ⟨proc, ⟨q, hq⟩, hlocked⟩

private theorem answered_of_listens {ino : Nat} {f : SocketFile} (hq : s.procs[q]? = some proc)
    (h : proc.Listens f) (hpath : s.path = some f) : (s.kernel ino).answered = true := by
  simp only [kernel, List.any_eq_true]
  exact ⟨proc, List.mem_iff_getElem?.mpr ⟨q, hq⟩, by simp [h.listening, h.listener, hpath]⟩

private theorem listens_of_answered {ino : Nat} (h : (s.kernel ino).answered = true) :
    ∃ q : Nat, ∃ proc f, s.procs[q]? = some proc ∧ proc.listener = some f ∧ s.path = some f := by
  simp only [kernel, List.any_eq_true, Bool.and_eq_true, decide_eq_true_eq] at h
  obtain ⟨proc, hmem, ⟨-, hsome⟩, hpath⟩ := h
  obtain ⟨q, hq⟩ := List.mem_iff_getElem?.mp hmem
  obtain ⟨f, hf⟩ := Option.isSome_iff_exists.mp hsome
  exact ⟨q, proc, f, hq, hf, by rw [← hpath, hf]⟩

/-! ## The invariant -/

/-- What holds in every state of a run. -/
structure Inv (s : Instances) : Prop where
  ok : ∀ (p : Nat) proc, s.procs[p]? = some proc → proc.Ok s.path
  lock : ∀ (p q : Nat) proc proc', s.procs[p]? = some proc → s.procs[q]? = some proc' →
    proc.lockFd = .locked → proc'.lockFd = .locked → p = q
  path_lt : ∀ f, s.path = some f → f.id < s.nextId
  file_lt : ∀ (p : Nat) proc f, s.procs[p]? = some proc → proc.file = some f → f.id < s.nextId
  files : ∀ (p q : Nat) proc proc' f, s.procs[p]? = some proc → s.procs[q]? = some proc' →
    proc.file = some f → proc'.file = some f → p = q
  /-- Nobody has bound the file that recovery is about to remove. -/
  remove : ∀ (p q : Nat) proc proc' f, s.procs[p]? = some proc → proc.pc = .remove →
    s.procs[q]? = some proc' → s.path = some f → proc'.file ≠ some f

theorem inv_boot (stale : Option Nat) : Inv (boot stale) where
  ok := fun p proc h => by cases h
  lock := fun p q proc proc' h => by cases h
  path_lt := by
    intro f hf
    cases stale with
    | none => cases hf
    | some ino => cases hf; exact Nat.zero_lt_one
  file_lt := fun p proc f h => by cases h
  files := fun p q proc proc' f h => by cases h
  remove := fun p q proc proc' f h => by cases h

private theorem Inv.file_ne_fresh (h : Inv s) (hq : s.procs[q]? = some proc) (ino : Nat) :
    proc.file ≠ some (s.kernel ino).fresh := by
  intro hf
  have hlt := h.file_lt q proc _ hq hf
  change s.nextId < s.nextId at hlt
  omega

private theorem held_remove {path : Option SocketFile} (h : proc.Ok path)
    (hpc : proc.pc = .remove) : proc.lockFd = .locked ∧ proc.file = none := by
  have hheld := h.held
  unfold Process.Held at hheld
  simp only [hpc] at hheld
  exact ⟨hheld.1, hheld.2.1.file⟩

private theorem Inv.move_locked (h : Inv s) (hp : s.procs[p]? = some proc) {ino : Nat}
    {r : Process × Option SocketFile} (hm : proc.Move (s.kernel ino) r)
    (hr : r.1.lockFd = .locked) (hne : q ≠ p) (hq : s.procs[q]? = some proc') :
    proc'.lockFd ≠ .locked := by
  intro hlocked
  rcases hm.locked hr with hold | hfree
  · exact hne (h.lock q p proc' proc hq hp hlocked hold)
  · have htaken : s.lockTaken = true := lockTaken_iff.mpr ⟨q, proc', hq, hlocked⟩
    change s.lockTaken = false at hfree
    rw [htaken] at hfree
    cases hfree

private theorem Inv.move_file (h : Inv s) (hp : s.procs[p]? = some proc) {ino : Nat}
    {r : Process × Option SocketFile} (hm : proc.Move (s.kernel ino) r) {f : SocketFile}
    (hr : r.1.file = some f) (hne : q ≠ p) (hq : s.procs[q]? = some proc') :
    proc'.file ≠ some f := by
  intro hf
  rcases hm.file with hnone | hsame | hfresh
  · rw [hnone] at hr
    cases hr
  · exact hne (h.files q p proc' proc f hq hp hf (hsame ▸ hr))
  · exact h.file_ne_fresh hq ino (by rw [hf, ← hr, hfresh])

private theorem Inv.move_path (h : Inv s) (hp : s.procs[p]? = some proc) {ino : Nat}
    {r : Process × Option SocketFile} (hm : proc.Move (s.kernel ino) r) (hne : q ≠ p)
    (hq : s.procs[q]? = some proc') (hlocked : proc'.lockFd = .locked) : r.2 = s.path := by
  by_contra hpath
  exact hne (h.lock q p proc' proc hq hp hlocked (hm.owner hpath))

private theorem Inv.move_remove (h : Inv s) (hp : s.procs[p]? = some proc) {ino : Nat}
    {r : Process × Option SocketFile} (hm : proc.Move (s.kernel ino) r) (hok : r.1.Ok r.2)
    (hpc : r.1.pc = .remove) (hne : q ≠ p) (hq : s.procs[q]? = some proc') {f : SocketFile}
    (hpath : s.path = some f) : proc'.file ≠ some f := by
  rcases (hm.remove hpc).2 with hold | hanswered
  · exact h.remove p q proc proc' f hp hold hq hpath
  · intro hf
    rcases (h.ok q proc' hq).locked_or_closing hf with hlocked | ⟨hlistens, -⟩
    · exact h.move_locked hp hm (held_remove hok hpc).1 hne hq hlocked
    · rw [answered_of_listens hq hlistens hpath] at hanswered
      cases hanswered

/-- One move of one process keeps the invariant. -/
theorem Inv.move (h : Inv s) (hp : s.procs[p]? = some proc) {ino : Nat}
    {r : Process × Option SocketFile} (hm : proc.Move (s.kernel ino) r) (hok : r.1.Ok r.2)
    {n : Nat} (hn : s.nextId ≤ n) (hnew : ∀ f, r.1.file = some f ∨ r.2 = some f → f.id < n) :
    Inv { procs := s.procs.set p r.1, path := r.2, nextId := n } where
  ok := by
    intro q proc' hq
    rcases (getElem?_set_iff hp).mp hq with ⟨rfl, rfl⟩ | ⟨hne, hold⟩
    · exact hok
    · have hok' := h.ok q proc' hold
      by_cases hlocked : proc'.lockFd = .locked
      · change proc'.Ok r.2
        rw [h.move_path hp hm hne hold hlocked]
        exact hok'
      · exact ⟨hok'.held.frame hlocked, hok'.listener_eq⟩
  lock := by
    intro q q' proc₁ proc₂ h₁ h₂ hlocked₁ hlocked₂
    rcases (getElem?_set_iff hp).mp h₁ with ⟨heq₁, rfl⟩ | ⟨hne₁, hold₁⟩
    · rcases (getElem?_set_iff hp).mp h₂ with ⟨heq₂, rfl⟩ | ⟨hne₂, hold₂⟩
      · rw [heq₁, heq₂]
      · exact absurd hlocked₂ (h.move_locked hp hm hlocked₁ hne₂ hold₂)
    · rcases (getElem?_set_iff hp).mp h₂ with ⟨heq₂, rfl⟩ | ⟨hne₂, hold₂⟩
      · exact absurd hlocked₁ (h.move_locked hp hm hlocked₂ hne₁ hold₁)
      · exact h.lock q q' proc₁ proc₂ hold₁ hold₂ hlocked₁ hlocked₂
  path_lt := fun f hf => hnew f (.inr hf)
  file_lt := by
    intro q proc' f hq hf
    rcases (getElem?_set_iff hp).mp hq with ⟨rfl, rfl⟩ | ⟨hne, hold⟩
    · exact hnew f (.inl hf)
    · exact Nat.lt_of_lt_of_le (h.file_lt q proc' f hold hf) hn
  files := by
    intro q q' proc₁ proc₂ f h₁ h₂ hf₁ hf₂
    rcases (getElem?_set_iff hp).mp h₁ with ⟨heq₁, rfl⟩ | ⟨hne₁, hold₁⟩
    · rcases (getElem?_set_iff hp).mp h₂ with ⟨heq₂, rfl⟩ | ⟨hne₂, hold₂⟩
      · rw [heq₁, heq₂]
      · exact absurd hf₂ (h.move_file hp hm hf₁ hne₂ hold₂)
    · rcases (getElem?_set_iff hp).mp h₂ with ⟨heq₂, rfl⟩ | ⟨hne₂, hold₂⟩
      · exact absurd hf₁ (h.move_file hp hm hf₂ hne₁ hold₁)
      · exact h.files q q' proc₁ proc₂ f hold₁ hold₂ hf₁ hf₂
  remove := by
    intro q q' proc₁ proc₂ f h₁ hpc h₂ hpath hf
    rcases (getElem?_set_iff hp).mp h₁ with ⟨-, rfl⟩ | ⟨hne₁, hold₁⟩
    · rcases (getElem?_set_iff hp).mp h₂ with ⟨-, rfl⟩ | ⟨hne₂, hold₂⟩
      · rw [(held_remove hok hpc).2] at hf
        cases hf
      · have hold : s.path = some f := (hm.remove hpc).1.symm.trans hpath
        exact h.move_remove hp hm hok hpc hne₂ hold₂ hold hf
    · have hlocked := (held_remove (h.ok q proc₁ hold₁) hpc).1
      have hold : s.path = some f := by
        rw [← h.move_path hp hm hne₁ hold₁ hlocked]
        exact hpath
      rcases (getElem?_set_iff hp).mp h₂ with ⟨-, rfl⟩ | ⟨-, hold₂⟩
      · rcases hm.file with hnone | hsame | hfresh
        · rw [hnone] at hf
          cases hf
        · exact h.remove q p proc₁ proc f hold₁ hpc hp hold (hsame ▸ hf)
        · have hlt := h.path_lt f hold
          rw [hfresh] at hf
          cases hf
          exact absurd hlt (Nat.lt_irrefl _)
      · exact h.remove q q' proc₁ proc₂ f hold₁ hpc hold₂ hold hf

/-- So does a move that makes no file. -/
theorem Inv.modify (h : Inv s) {f : Process → Process} {p : Nat}
    (hquiet : ∀ proc : Process, proc.Quiet (f proc))
    (hok : ∀ proc : Process, proc.Ok s.path → (f proc).Ok s.path) : Inv (s.modify p f) := by
  unfold Instances.modify
  split
  · exact h
  · rename_i proc hp
    have hm : proc.Move (s.kernel 0) (f proc, s.path) := (hquiet proc).move
    apply h.move hp hm (hok proc (h.ok p proc hp)) (Nat.le_refl _)
    rintro g (hg | hg)
    · rcases (hquiet proc).file with hnone | hsame
      · rw [hnone] at hg
        cases hg
      · exact h.file_lt p proc g hp (hsame ▸ hg)
    · exact h.path_lt g hg

/-- So does another process that starts. -/
theorem Inv.start (h : Inv s) : Inv { s with procs := s.procs ++ [{}] } where
  ok := by
    intro p proc hp
    rcases getElem?_concat_iff.mp hp with hold | ⟨-, rfl⟩
    · exact h.ok p proc hold
    · exact ⟨⟨rfl, rfl, rfl⟩, fun f hf => hf⟩
  lock := by
    intro p q proc proc' hp hq hlocked hlocked'
    rcases getElem?_concat_iff.mp hp with hold | ⟨-, rfl⟩
    · rcases getElem?_concat_iff.mp hq with hold' | ⟨-, rfl⟩
      · exact h.lock p q proc proc' hold hold' hlocked hlocked'
      · cases hlocked'
    · cases hlocked
  path_lt := h.path_lt
  file_lt := by
    intro p proc f hp hf
    rcases getElem?_concat_iff.mp hp with hold | ⟨-, rfl⟩
    · exact h.file_lt p proc f hold hf
    · cases hf
  files := by
    intro p q proc proc' f hp hq hf hf'
    rcases getElem?_concat_iff.mp hp with hold | ⟨-, rfl⟩
    · rcases getElem?_concat_iff.mp hq with hold' | ⟨-, rfl⟩
      · exact h.files p q proc proc' f hold hold' hf hf'
      · cases hf'
    · cases hf
  remove := by
    intro p q proc proc' f hp hpc hq hpath
    rcases getElem?_concat_iff.mp hp with hold | ⟨-, rfl⟩
    · rcases getElem?_concat_iff.mp hq with hold' | ⟨-, rfl⟩
      · exact h.remove p q proc proc' f hold hpc hold' hpath
      · intro hf
        cases hf
    · cases hpc

/-- Every step keeps the invariant. -/
theorem Inv.step (h : Inv s) (input : InstanceInput) : Inv (s.step input) := by
  cases input with
  | start => exact h.start
  | call p ino =>
    simp only [Instances.step]
    split
    · exact h
    · rename_i proc hp
      have hok := h.ok p proc hp
      have hm : proc.Move (s.kernel ino) (proc.call (s.kernel ino)) := Process.move_call hok
      apply h.move hp hm (Process.ok_call hok) (Nat.le_succ _)
      have hfresh : (s.kernel ino).fresh.id < s.nextId + 1 := Nat.lt_succ_self _
      rintro f (hf | hf)
      · rcases hm.file with hnone | hsame | hnew
        · rw [hnone] at hf
          cases hf
        · exact Nat.lt_succ_of_lt (h.file_lt p proc f hp (hsame ▸ hf))
        · rw [hnew] at hf
          cases hf
          exact hfresh
      · rcases hm.path with hnone | hsame | hnew
        · rw [hnone] at hf
          cases hf
        · exact Nat.lt_succ_of_lt (h.path_lt f (hsame.symm.trans hf))
        · rw [hnew] at hf
          cases hf
          exact hfresh
  | fail p => exact h.modify (fun _ => Process.quiet_fail) (fun _ hok => Process.ok_fail hok)
  | drop p listenerFirst =>
    exact h.modify (fun _ => Process.quiet_drop listenerFirst)
      (fun _ hok => Process.ok_drop hok listenerFirst)
  | crash p => exact h.modify (fun _ => Process.quiet_crash) (fun _ _ => Process.ok_crash)

theorem inv_run (h : Inv s) (inputs : List InstanceInput) : Inv (s.run inputs) :=
  foldl_invariant inputs h fun _ input hinv => hinv.step input

end Instances

/-! ## A process that asks for the lock -/

def InstanceInput.isCallOf (p : Nat) : InstanceInput → Bool
  | .call q _ => decide (q = p)
  | _ => false

/-- The system calls a process makes before it serves. -/
def Pc.callsLeft : Pc → Option Nat
  | .openLock => some 10
  | .flock => some 9
  | .bind => some 8
  | .connect => some 7
  | .remove => some 6
  | .rebind => some 5
  | .listen => some 4
  | .stat => some 3
  | .chmod => some 2
  | .nonblocking => some 1
  | .bound => some 0
  | .dropping _ _ => none
  | .returned _ => none
  | .crashed => none

/-- `acquire_lock` has returned the lock to the process, and it has not dropped it. -/
def Pc.pastAcquireLock : Pc → Bool
  | .bind | .connect | .remove | .rebind | .listen | .stat | .chmod | .nonblocking | .bound => true
  | _ => false

private theorem Pc.callsLeft_zero {pc : Pc} (h : pc.callsLeft = some 0) : pc = .bound := by
  cases pc <;> simp_all [callsLeft]

namespace Process

variable {p : Process} {path : Option SocketFile} {k : Kernel}

/-- A process that has let go of the lock before its listener has removed its file. -/
def Unlinked (p : Process) (path : Option SocketFile) : Prop :=
  ∀ todo outcome f, p.pc = .dropping todo outcome →
    todo = [.lock, .listener] ∨ todo = [.listener] → p.file = some f → path ≠ some f

private theorem unlinked_of_pc (h : ∀ todo outcome, p.pc ≠ .dropping todo outcome) :
    p.Unlinked path :=
  fun todo outcome _ hpc => absurd hpc (h todo outcome)

private theorem unlinked_leave {todo : List Drop} {outcome : BindOutcome}
    (h : ¬ (todo = [.lock, .listener] ∨ todo = [.listener])) :
    (p.leave todo outcome).Unlinked path := by
  intro todo' outcome' f hpc htodo
  cases todo with
  | nil => cases hpc
  | cons d rest =>
    cases hpc
    exact absurd htodo h

private theorem unlinked_runDrop {d : Drop} {rest : List Drop} {outcome : BindOutcome}
    (h : p.DropOk path (d :: rest)) (hpc : p.pc = .dropping (d :: rest) outcome)
    (hu : p.Unlinked path) :
    (p.runDrop path d rest outcome).1.Unlinked (p.runDrop path d rest outcome).2 := by
  cases h with
  | bare => exact unlinked_leave (by simp)
  | lock => exact unlinked_leave (by simp)
  | listener_lock => exact unlinked_leave (by simp)
  | guard_lock_listener h hg =>
    simp only [runDrop, h.path, if_pos hg]
    exact unlinked_leave (by simp)
  | unlink_lock_listener =>
    intro todo' outcome' f _ _ _ hpath
    cases hpath
  | lock_listener =>
    intro todo' outcome' f _ _ hf
    exact hu _ _ f hpc (.inl rfl) hf
  | listener => exact unlinked_leave (by simp)
  | listener_guard_lock => exact unlinked_leave (by simp)
  | guard_lock h hg =>
    simp only [runDrop, h.path, if_pos hg]
    exact unlinked_leave (by simp)
  | unlink_lock => exact unlinked_leave (by simp)

private theorem unlinked_call (h : p.Ok k.path) (hu : p.Unlinked k.path) :
    (p.call k).1.Unlinked (p.call k).2 := by
  have hheld := h.held
  unfold Held at hheld
  cases hpc : p.pc with
  | openLock =>
    simp only [call, hpc]
    exact unlinked_of_pc (by simp)
  | flock =>
    simp only [call, hpc]
    split
    · exact unlinked_leave (by simp)
    · exact unlinked_of_pc (by simp)
  | bind =>
    simp only [call, hpc]
    split
    · exact unlinked_of_pc (by simp)
    · exact unlinked_of_pc (by simp)
  | connect =>
    simp only [call, hpc]
    split
    · exact unlinked_leave (by simp)
    · split
      · exact unlinked_leave (by simp)
      · exact unlinked_of_pc (by simp)
  | remove =>
    simp only [call, hpc]
    split
    · exact unlinked_leave (by simp)
    · exact unlinked_of_pc (by simp)
  | rebind =>
    simp only [call, hpc]
    split
    · exact unlinked_of_pc (by simp)
    · exact unlinked_leave (by simp)
  | listen =>
    simp only [call, hpc]
    exact unlinked_of_pc (by simp)
  | stat =>
    simp only [call, hpc]
    split
    · exact unlinked_leave (by simp)
    · exact unlinked_of_pc (by simp)
  | chmod =>
    simp only [call, hpc]
    split
    · exact unlinked_leave (by simp)
    · exact unlinked_of_pc (by simp)
  | nonblocking =>
    simp only [call, hpc]
    exact unlinked_of_pc (by simp)
  | bound => simpa only [call, hpc] using hu
  | dropping todo outcome =>
    simp only [hpc] at hheld
    simp only [call, hpc]
    cases todo with
    | nil => exact unlinked_leave (by simp)
    | cons d rest => exact unlinked_runDrop hheld hpc hu
  | returned outcome => simpa only [call, hpc] using hu
  | crashed => simpa only [call, hpc] using hu

private theorem unlinked_fail (hpc : ∀ todo outcome, p.pc ≠ .dropping todo outcome)
    (hu : p.Unlinked path) : p.fail.Unlinked path := by
  unfold fail
  split
  all_goals first
    | exact hu
    | rename_i hdrop; exact absurd hdrop (hpc _ _)
    | exact unlinked_leave (by simp)

private theorem unlinked_drop (hu : p.Unlinked path) (listenerFirst : Bool) :
    (p.drop listenerFirst).Unlinked path := by
  unfold drop
  split
  · cases listenerFirst with
    | true => exact unlinked_leave (by simp)
    | false => exact unlinked_leave (by simp)
  · exact hu

private theorem call_callsLeft (h : p.Ok k.path) {n : Nat} (hn : p.pc.callsLeft = some n)
    (hlock : p.pc = .flock → k.lockTaken = false)
    (hanswered : p.pc = .connect → k.answered = false) :
    ∃ m, (p.call k).1.pc.callsLeft = some m ∧ m ≤ n - 1 := by
  have hheld := h.held
  unfold Held at hheld
  cases hpc : p.pc with
  | openLock =>
    rw [hpc] at hn
    cases hn
    simp only [call, hpc]
    exact ⟨9, rfl, by omega⟩
  | flock =>
    rw [hpc] at hn
    cases hn
    simp only [call, hpc, hlock hpc]
    exact ⟨8, rfl, by omega⟩
  | bind =>
    rw [hpc] at hn
    cases hn
    simp only [call, hpc]
    split
    · exact ⟨4, rfl, by omega⟩
    · exact ⟨7, rfl, by omega⟩
  | connect =>
    rw [hpc] at hn
    cases hn
    simp only [hpc] at hheld
    obtain ⟨f, hf⟩ := Option.isSome_iff_exists.mp hheld.2.2
    simp only [call, hpc, hf, hanswered hpc]
    exact ⟨6, rfl, by omega⟩
  | remove =>
    rw [hpc] at hn
    cases hn
    simp only [hpc] at hheld
    obtain ⟨f, hf⟩ := Option.isSome_iff_exists.mp hheld.2.2
    simp only [call, hpc, hf]
    exact ⟨5, rfl, by omega⟩
  | rebind =>
    rw [hpc] at hn
    cases hn
    simp only [hpc] at hheld
    simp only [call, hpc, hheld.2.2]
    exact ⟨4, rfl, by omega⟩
  | listen =>
    rw [hpc] at hn
    cases hn
    simp only [call, hpc]
    exact ⟨3, rfl, by omega⟩
  | stat =>
    rw [hpc] at hn
    cases hn
    simp only [hpc] at hheld
    obtain ⟨f, howns, -⟩ := hheld
    simp only [call, hpc, howns.path]
    exact ⟨2, rfl, by omega⟩
  | chmod =>
    rw [hpc] at hn
    cases hn
    simp only [hpc] at hheld
    obtain ⟨f, howns, -⟩ := hheld
    simp only [call, hpc, howns.path]
    exact ⟨1, rfl, by omega⟩
  | nonblocking =>
    rw [hpc] at hn
    cases hn
    simp only [call, hpc]
    exact ⟨0, rfl, by omega⟩
  | bound =>
    rw [hpc] at hn
    cases hn
    simp only [call, hpc]
    exact ⟨0, rfl, by omega⟩
  | dropping todo outcome => rw [hpc] at hn; cases hn
  | returned outcome => rw [hpc] at hn; cases hn
  | crashed => rw [hpc] at hn; cases hn

end Process

namespace Instances

variable {s : Instances} {p q : Nat} {proc proc' : Process}

/-- Where a process is. -/
def pcOf (s : Instances) (p : Nat) : Option Pc := (s.procs[p]?).map Process.pc

private theorem pcOf_eq_some_iff {pc : Pc} :
    s.pcOf p = some pc ↔ ∃ proc, s.procs[p]? = some proc ∧ proc.pc = pc := by
  simp only [pcOf, Option.map_eq_some_iff]

/-- No guard fails to look at its socket file or to remove it. -/
def GuardsWork (s : Instances) : InstanceInput → Prop
  | .fail p => ∀ todo outcome, s.pcOf p ≠ some (.dropping todo outcome)
  | _ => True

/-- The process is let run: none of its calls fails, it is not stopped, and the lock is free when
it asks. -/
def Unopposed (p : Nat) (s : Instances) : InstanceInput → Prop
  | .start => True
  | .call q _ => q = p → s.pcOf p = some .flock → s.lockTaken = false
  | .fail q => q ≠ p
  | .drop q _ => q ≠ p
  | .crash q => q ≠ p

instance (p : Nat) (s : Instances) : (input : InstanceInput) → Decidable (Unopposed p s input)
  | .start => inferInstanceAs (Decidable True)
  | .call q _ =>
    inferInstanceAs (Decidable (q = p → s.pcOf p = some .flock → s.lockTaken = false))
  | .fail q => inferInstanceAs (Decidable (q ≠ p))
  | .drop q _ => inferInstanceAs (Decidable (q ≠ p))
  | .crash q => inferInstanceAs (Decidable (q ≠ p))

/-- A file that is bound but not served by the holder of the lock is off the path. -/
def Clean (s : Instances) : Prop :=
  ∀ (p : Nat) proc, s.procs[p]? = some proc → proc.Unlinked s.path

private theorem clean_boot (stale : Option Nat) : Clean (boot stale) :=
  fun p proc h => by cases h

theorem Clean.move (hc : Clean s) (h : Inv s) (hp : s.procs[p]? = some proc) {ino : Nat}
    {r : Process × Option SocketFile} (hm : proc.Move (s.kernel ino) r) (hu : r.1.Unlinked r.2)
    {n : Nat} : Clean { procs := s.procs.set p r.1, path := r.2, nextId := n } := by
  intro q proc' hq
  rcases (getElem?_set_iff hp).mp hq with ⟨rfl, rfl⟩ | ⟨hne, hold⟩
  · exact hu
  · intro todo outcome f hpc htodo hf hpath
    change r.2 = some f at hpath
    rcases hm.path with hnone | hsame | hfresh
    · rw [hnone] at hpath
      cases hpath
    · exact hc q proc' hold todo outcome f hpc htodo hf (hsame.symm.trans hpath)
    · apply h.file_ne_fresh hold ino
      rw [hf, ← hpath, hfresh]

theorem Clean.modify (hc : Clean s) (h : Inv s) {f : Process → Process} {p : Nat}
    (hquiet : ∀ proc : Process, proc.Quiet (f proc))
    (hu : ∀ proc : Process, s.procs[p]? = some proc → (f proc).Unlinked s.path) :
    Clean (s.modify p f) := by
  unfold Instances.modify
  split
  · exact hc
  · rename_i proc hp
    have hm : proc.Move (s.kernel 0) (f proc, s.path) := (hquiet proc).move
    exact hc.move h hp hm (hu proc hp)

theorem Clean.step (hc : Clean s) (h : Inv s) {input : InstanceInput}
    (hok : GuardsWork s input) : Clean (s.step input) := by
  cases input with
  | start =>
    intro p proc hp
    rcases getElem?_concat_iff.mp hp with hold | ⟨-, rfl⟩
    · exact hc p proc hold
    · exact Process.unlinked_of_pc (by simp)
  | call p ino =>
    simp only [Instances.step]
    split
    · exact hc
    · rename_i proc hp
      have hproc := h.ok p proc hp
      exact hc.move h hp (Process.move_call hproc)
        (Process.unlinked_call hproc (hc p proc hp))
  | fail p =>
    apply hc.modify h (fun _ => Process.quiet_fail)
    intro proc hp
    apply Process.unlinked_fail
    · intro todo outcome hpc
      exact hok todo outcome (pcOf_eq_some_iff.mpr ⟨proc, hp, hpc⟩)
    · exact hc p proc hp
  | drop p listenerFirst =>
    exact hc.modify h (fun _ => Process.quiet_drop listenerFirst)
      (fun proc hp => Process.unlinked_drop (hc p proc hp) listenerFirst)
  | crash p =>
    exact hc.modify h (fun _ => Process.quiet_crash)
      (fun _ _ => Process.unlinked_of_pc (by simp [Process.crash]))

private theorem Inv.not_answered (h : Inv s) (hc : Clean s) (hp : s.procs[p]? = some proc)
    (hpc : proc.pc = .connect) (ino : Nat) : (s.kernel ino).answered = false := by
  have hheld := (h.ok p proc hp).held
  unfold Process.Held at hheld
  simp only [hpc] at hheld
  obtain ⟨hlocked, hbare, -⟩ := hheld
  rw [Bool.eq_false_iff]
  intro hanswered
  obtain ⟨q, proc', f, hq, hlistener, hpath⟩ := listens_of_answered hanswered
  have hf := (h.ok q proc' hq).listener_eq f hlistener
  rcases (h.ok q proc' hq).locked_or_closing hf with hlocked' | ⟨-, outcome, hclosing⟩
  · have hsame : q = p := h.lock q p proc' proc hq hp hlocked' hlocked
    subst hsame
    rw [hp] at hq
    cases hq
    rw [hbare.file] at hf
    cases hf
  · exact hc q proc' hq _ outcome f hclosing (.inr rfl) hf hpath

private theorem step_other (hp : s.procs[p]? = some proc) {input : InstanceInput}
    (hother : ∀ ino, input ≠ .call p ino) (hok : Unopposed p s input) :
    (s.step input).procs[p]? = some proc := by
  have hmodify : ∀ q f, q ≠ p → (s.modify q f).procs[p]? = some proc := by
    intro q f hne
    unfold Instances.modify
    split
    · exact hp
    · change (s.procs.set q _)[p]? = some proc
      rw [List.getElem?_set_ne hne]
      exact hp
  cases input with
  | start => exact getElem?_concat_iff.mpr (.inl hp)
  | call q ino =>
    have hne : q ≠ p := by
      intro heq
      exact hother ino (by rw [heq])
    simp only [Instances.step]
    split
    · exact hp
    · change (s.procs.set q _)[p]? = some proc
      rw [List.getElem?_set_ne hne]
      exact hp
  | fail q => exact hmodify q _ hok
  | drop q listenerFirst => exact hmodify q _ hok
  | crash q => exact hmodify q _ hok

private theorem run_callsLeft (h : Inv s) (hc : Clean s) (hp : s.procs[p]? = some proc) {n : Nat}
    (hn : proc.pc.callsLeft = some n) {inputs : List InstanceInput}
    (hguards : StepsMeet step GuardsWork s inputs)
    (hok : StepsMeet step (Unopposed p) s inputs) :
    ∃ proc' m, (s.run inputs).procs[p]? = some proc' ∧ proc'.pc.callsLeft = some m ∧
      m ≤ n - inputs.countP (InstanceInput.isCallOf p) := by
  induction inputs generalizing s proc n with
  | nil => exact ⟨proc, n, hp, hn, by simp⟩
  | cons input rest ih =>
    rw [stepsMeet_cons] at hguards hok
    have hinv := h.step input
    have hclean := hc.step h hguards.1
    by_cases hown : ∃ ino, input = .call p ino
    · obtain ⟨ino, rfl⟩ := hown
      obtain ⟨m, hm, hle⟩ := Process.call_callsLeft (k := s.kernel ino) (h.ok p proc hp) hn
        (fun hpc => hok.1 rfl (pcOf_eq_some_iff.mpr ⟨proc, hp, hpc⟩))
        (fun hpc => h.not_answered hc hp hpc ino)
      have hlt : p < s.procs.length := (List.getElem?_eq_some_iff.mp hp).1
      have hp' : (s.step (.call p ino)).procs[p]? = some (proc.call (s.kernel ino)).1 := by
        simp only [Instances.step, hp]
        exact List.getElem?_set_self hlt
      obtain ⟨proc', m', hproc', hm', hle'⟩ := ih hinv hclean hp' hm hguards.2 hok.2
      refine ⟨proc', m', hproc', hm', ?_⟩
      have hcount : (InstanceInput.call p ino :: rest).countP (InstanceInput.isCallOf p) =
          rest.countP (InstanceInput.isCallOf p) + 1 :=
        List.countP_cons_of_pos (by simp [InstanceInput.isCallOf])
      omega
    · have hother : ∀ ino, input ≠ .call p ino := fun ino heq => hown ⟨ino, heq⟩
      have hp' := step_other hp hother hok.1
      obtain ⟨proc', m', hproc', hm', hle'⟩ := ih hinv hclean hp' hn hguards.2 hok.2
      refine ⟨proc', m', hproc', hm', ?_⟩
      have hcount : (input :: rest).countP (InstanceInput.isCallOf p) =
          rest.countP (InstanceInput.isCallOf p) := by
        apply List.countP_cons_of_neg
        cases input <;> simp [InstanceInput.isCallOf]
        rename_i q ino
        intro heq
        exact hother ino (by rw [heq])
      omega

/-! ## One daemon -/

private theorem held_locked {path : Option SocketFile} (h : proc.Ok path)
    (hpc : proc.pc.pastAcquireLock = true) : proc.lockFd = .locked := by
  have hheld := h.held
  unfold Process.Held at hheld
  cases hcase : proc.pc <;> rw [hcase] at hheld hpc <;> simp only [Pc.pastAcquireLock] at hpc hheld
  case bind => exact hheld.1
  case connect => exact hheld.1
  case remove => exact hheld.1
  case rebind => exact hheld.1
  case listen => exact hheld.elim fun f hf => hf.1.locked
  case stat => exact hheld.elim fun f hf => hf.1.locked
  case chmod => exact hheld.elim fun f hf => hf.1.locked
  case nonblocking => exact hheld.elim fun f hf => hf.1.locked
  case bound => exact hheld.elim fun f hf => hf.1.locked
  all_goals cases hpc

/-- A step that takes a file off the path is a step of the process that bound it. -/
theorem Inv.unlink (h : Inv s) (hq : s.procs[q]? = some proc') {f : SocketFile}
    (hf : proc'.file = some f) (hpath : s.path = some f) {input : InstanceInput}
    (hgone : (s.step input).path ≠ some f) : ∃ ino, input = .call q ino := by
  have hmodify : ∀ p g, (s.modify p g).path = s.path := by
    intro p g
    unfold Instances.modify
    split <;> rfl
  cases input with
  | start => exact absurd hpath hgone
  | call p ino =>
    simp only [Instances.step] at hgone
    split at hgone
    · exact absurd hpath hgone
    · rename_i proc hp
      have hm : proc.Move (s.kernel ino) (proc.call (s.kernel ino)) :=
        Process.move_call (h.ok p proc hp)
      have hmoved : (proc.call (s.kernel ino)).2 ≠ (s.kernel ino).path := by
        intro hsame
        exact hgone (hsame.trans hpath)
      rcases hm.unlink f hpath hmoved with hown | hremove
      · exact ⟨ino, by rw [h.files p q proc proc' f hp hq hown hf]⟩
      · exact absurd hf (h.remove p q proc proc' f hp hremove hq hpath)
  | fail p => exact absurd ((hmodify p _).trans hpath) hgone
  | drop p listenerFirst => exact absurd ((hmodify p _).trans hpath) hgone
  | crash p => exact absurd ((hmodify p _).trans hpath) hgone

/-- There is one daemon, in every interleaving of system calls. The lock has one holder, which
every process past `acquire_lock` is, and which a process that is done with is not. A socket file
that a running process bound is taken away by that process only. Who serves finds its own file at
the path. And who asks for the lock while nobody holds it will serve after ten calls. -/
theorem one_daemon (stale : Option Nat) (inputs : List InstanceInput) (s : Instances)
    (hs : s = (boot stale).run inputs) :
    (∀ (p q : Nat) proc proc', s.procs[p]? = some proc → s.procs[q]? = some proc' →
      proc.lockFd = .locked → proc'.lockFd = .locked → p = q) ∧
    (∀ (p : Nat) proc, s.procs[p]? = some proc →
      (proc.pc.pastAcquireLock = true → proc.lockFd = .locked) ∧
      (proc.pc = .crashed ∨ (∃ outcome, proc.pc = .returned outcome) →
        proc.lockFd = .closed ∧ proc.listener = none)) ∧
    (∀ (q : Nat) proc f input, s.procs[q]? = some proc → proc.file = some f → s.path = some f →
      (s.step input).path ≠ some f → ∃ ino, input = .call q ino) ∧
    (∀ (p : Nat) proc, s.procs[p]? = some proc → proc.pc = .bound →
      ∃ f, proc.file = some f ∧ proc.listener = some f ∧ proc.listening = true ∧
        proc.guardIno = some f.ino ∧ s.path = some f) ∧
    (∀ (p : Nat) (rest : List InstanceInput), s.pcOf p = some .openLock →
      StepsMeet step GuardsWork (boot stale) (inputs ++ rest) →
      StepsMeet step (Unopposed p) s rest → 10 ≤ rest.countP (InstanceInput.isCallOf p) →
      (s.run rest).pcOf p = some .bound) := by
  have hinv : Inv s := by
    rw [hs]
    exact inv_run (inv_boot stale) inputs
  refine ⟨hinv.lock, ?_, ?_, ?_, ?_⟩
  · intro p proc hp
    have hok := hinv.ok p proc hp
    refine ⟨held_locked hok, ?_⟩
    have hheld := hok.held
    unfold Process.Held at hheld
    rintro (hpc | ⟨outcome, hpc⟩)
    · simp only [hpc] at hheld
      exact ⟨hheld.1, hheld.2.listener⟩
    · simp only [hpc] at hheld
      exact ⟨hheld.1, hheld.2.listener⟩
  · intro q proc f input hq hf hpath hgone
    exact hinv.unlink hq hf hpath hgone
  · intro p proc hp hpc
    have hheld := (hinv.ok p proc hp).held
    unfold Process.Held at hheld
    simp only [hpc] at hheld
    obtain ⟨f, howns, hlistens, hguard⟩ := hheld
    exact ⟨f, howns.file, hlistens.listener, hlistens.listening, hguard, howns.path⟩
  · intro p rest hp hguards hok hcalls
    obtain ⟨hbefore, hafter⟩ := (stepsMeet_append _ _ _).mp hguards
    have hclean : Inv s ∧ Clean s := by
      rw [hs]
      apply @StepsMeet.invariant _ _ _ _ (fun s => Inv s ∧ Clean s) _ _ hbefore
      · exact ⟨inv_boot stale, clean_boot stale⟩
      · intro s input h hguard
        exact ⟨h.1.step input, h.2.step h.1 hguard⟩
    obtain ⟨proc, hproc, hpc⟩ := pcOf_eq_some_iff.mp hp
    have hleft : proc.pc.callsLeft = some 10 := by rw [hpc]; rfl
    have hrest : StepsMeet step GuardsWork s rest := by
      rw [hs]
      exact hafter
    obtain ⟨proc', m, hproc', hm, hle⟩ := run_callsLeft hinv hclean.2 hproc hleft hrest hok
    have hzero : m = 0 := by omega
    subst hzero
    exact pcOf_eq_some_iff.mpr ⟨proc', hproc', Pc.callsLeft_zero hm⟩

/-- A daemon that takes over a stale socket, another that it turns away, and a crash. -/
def crashedHolder : List InstanceInput :=
  [.start, .start] ++ List.replicate 10 (.call 0 8) ++ List.replicate 3 (.call 1 8) ++
    [.crash 0, .start]

theorem one_daemon_crashedHolder :
    (((boot (some 7)).run crashedHolder).run (List.replicate 10 (.call 2 8))).pcOf 2 =
      some .bound := by
  have h := one_daemon (some 7) crashedHolder _ rfl
  apply h.2.2.2.2 2 (List.replicate 10 (.call 2 8))
  · decide
  · simp [crashedHolder, List.replicate, StepsMeet, GuardsWork]
  · decide
  · decide

end Instances
end Teiryo
