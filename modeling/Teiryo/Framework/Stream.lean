import Teiryo.Framework.Run
import Mathlib.Data.List.Infix
import Mathlib.Order.GameAdd
import Mathlib.Tactic.Common

/-!
# Programs on byte streams

A program that reads from and writes to a byte stream, run against everything its peer will ever
send; and two such programs connected to each other, taking turns in any order. The bytes each
side has written and not yet read are in flight.
-/

namespace Teiryo

inductive Proc (α : Type) where
  | done (result : α)
  | write (bytes : List UInt8) (next : Proc α)
  /-- Wait for that many bytes; none when the stream ends before. -/
  | readExact (n : Nat) (next : Option (List UInt8) → Proc α)

namespace Proc

variable {α β : Type}

def bind : Proc α → (α → Proc β) → Proc β
  | done r, f => f r
  | write bytes p, f => write bytes (p.bind f)
  | readExact n p, f => readExact n fun read => (p read).bind f

instance : Monad Proc where
  pure := done
  bind := bind

/-- What a program made of its input: its result, what it left unread and what it wrote. -/
structure Outcome (α : Type) where
  result : α
  unread : List UInt8
  written : List UInt8
  deriving DecidableEq

/-- A program against a stream that holds these bytes and then ends. -/
def run : Proc α → List UInt8 → Outcome α
  | done r, input => ⟨r, input, []⟩
  | write bytes p, input =>
    { p.run input with written := bytes ++ (p.run input).written }
  | readExact n p, input =>
    if n ≤ input.length then (p (some (input.take n))).run (input.drop n)
    else (p none).run []

@[simp] theorem run_done (r : α) (input : List UInt8) : (done r).run input = ⟨r, input, []⟩ := rfl

theorem run_bind (p : Proc α) (f : α → Proc β) (input : List UInt8) :
    (p.bind f).run input =
      { (f (p.run input).result).run (p.run input).unread with
        written := (p.run input).written ++
          ((f (p.run input).result).run (p.run input).unread).written } := by
  induction p generalizing input with
  | done r => rfl
  | write bytes p ih => simp only [bind, run, ih, List.append_assoc]
  | readExact n p ih =>
    simp only [bind, run]
    split
    · exact ih _ _
    · exact ih _ _

/-- Nothing is put back. -/
theorem unread_length_le (p : Proc α) (input : List UInt8) :
    (p.run input).unread.length ≤ input.length := by
  induction p generalizing input with
  | done r => exact Nat.le_refl _
  | write bytes p ih => exact ih input
  | readExact n p ih =>
    simp only [run]
    split
    · have h := ih (some (input.take n)) (input.drop n)
      rw [List.length_drop] at h
      omega
    · have h := ih none []
      rw [List.length_nil] at h
      omega

/-- What a program may go on as after one operation. -/
inductive Continues : Proc α → Proc α → Prop where
  | write (bytes : List UInt8) (p : Proc α) : Continues p (.write bytes p)
  | read (n : Nat) (next : Option (List UInt8) → Proc α) (read : Option (List UInt8)) :
      Continues (next read) (.readExact n next)

theorem acc_continues (p : Proc α) : Acc Continues p := by
  induction p with
  | done r =>
    refine ⟨_, ?_⟩
    intro p h
    cases h
  | write bytes p ih =>
    refine ⟨_, ?_⟩
    intro q h
    cases h
    exact ih
  | readExact n next ih =>
    refine ⟨_, ?_⟩
    intro q h
    cases h
    exact ih _

end Proc

inductive Side where
  | left
  | right
  deriving DecidableEq, Repr

/-- Two programs and the bytes in flight. The last two fields record history: everything each side
has written so far. -/
structure Duplex (α β : Type) where
  left : Proc α
  right : Proc β
  toLeft : List UInt8 := []
  toRight : List UInt8 := []
  fromLeft : List UInt8 := []
  fromRight : List UInt8 := []

namespace Duplex

variable {α β : Type}

/-- One side goes on by one operation. A read waits until all its bytes are there. -/
def step (s : Duplex α β) : Side → Duplex α β
  | .left =>
    match s.left with
    | .done _ => s
    | .write bytes p =>
      { s with left := p, toRight := s.toRight ++ bytes, fromLeft := s.fromLeft ++ bytes }
    | .readExact n p =>
      if n ≤ s.toLeft.length then
        { s with left := p (some (s.toLeft.take n)), toLeft := s.toLeft.drop n }
      else s
  | .right =>
    match s.right with
    | .done _ => s
    | .write bytes p =>
      { s with right := p, toLeft := s.toLeft ++ bytes, fromRight := s.fromRight ++ bytes }
    | .readExact n p =>
      if n ≤ s.toRight.length then
        { s with right := p (some (s.toRight.take n)), toRight := s.toRight.drop n }
      else s

/-- A side waits for more bytes than are in flight to it. -/
def Starved (p : Proc α) (buffer : List UInt8) : Prop :=
  ∃ n next, p = .readExact n next ∧ buffer.length < n

/-- Neither side can go on. -/
structure Quiet (s : Duplex α β) : Prop where
  left : (∃ r, s.left = .done r) ∨ Starved s.left s.toLeft
  right : (∃ r, s.right = .done r) ∨ Starved s.right s.toRight

/-- What the sides did so far is what they do on what the other has written, whatever follows. -/
structure Sound (p : Proc α) (q : Proc β) (s : Duplex α β) : Prop where
  left : ∀ more, p.run (s.fromRight ++ more) =
    { s.left.run (s.toLeft ++ more) with
      written := s.fromLeft ++ (s.left.run (s.toLeft ++ more)).written }
  right : ∀ more, q.run (s.fromLeft ++ more) =
    { s.right.run (s.toRight ++ more) with
      written := s.fromRight ++ (s.right.run (s.toRight ++ more)).written }

variable {p : Proc α} {q : Proc β} {s : Duplex α β}

theorem sound_start (p : Proc α) (q : Proc β) : Sound p q { left := p, right := q } :=
  ⟨fun _ => rfl, fun _ => rfl⟩

private theorem run_read {next : Option (List UInt8) → Proc α} {n : Nat} {buffer : List UInt8}
    (h : n ≤ buffer.length) (more : List UInt8) :
    (Proc.readExact n next).run (buffer ++ more) =
      (next (some (buffer.take n))).run (buffer.drop n ++ more) := by
  have hlen : n ≤ (buffer ++ more).length := by
    rw [List.length_append]
    omega
  rw [Proc.run, if_pos hlen, List.take_append_of_le_length h, List.drop_append_of_le_length h]

theorem sound_step (h : Sound p q s) (side : Side) : Sound p q (s.step side) := by
  cases side with
  | left =>
    simp only [step]
    split
    · exact h
    · rename_i bytes next hleft
      refine ⟨?_, ?_⟩
      · intro more
        rw [h.left more, hleft]
        simp only [Proc.run, List.append_assoc]
      · intro more
        rw [List.append_assoc, h.right (bytes ++ more)]
        simp only [List.append_assoc]
    · rename_i n next hleft
      split
      · rename_i hn
        refine ⟨?_, h.right⟩
        intro more
        rw [h.left more, hleft, run_read hn]
      · exact h
  | right =>
    simp only [step]
    split
    · exact h
    · rename_i bytes next hright
      refine ⟨?_, ?_⟩
      · intro more
        rw [List.append_assoc, h.left (bytes ++ more)]
        simp only [List.append_assoc]
      · intro more
        rw [h.right more, hright]
        simp only [Proc.run, List.append_assoc]
    · rename_i n next hright
      split
      · rename_i hn
        refine ⟨h.left, ?_⟩
        intro more
        rw [h.right more, hright, run_read hn]
      · exact h

/-- A starved side reads past what it has been sent. -/
theorem Starved.unread_ne {buffer : List UInt8} {p : Proc α} (h : Starved p buffer)
    {more left : List UInt8} (hmore : more ≠ []) :
    (p.run (buffer ++ more)).unread ≠ left ++ more := by
  obtain ⟨n, next, rfl, hshort⟩ := h
  intro heq
  have hlen := congrArg List.length heq
  have hpos : 0 < more.length := List.length_pos_iff.mpr hmore
  rw [List.length_append] at hlen
  simp only [Proc.run] at hlen
  split at hlen
  · have hle := Proc.unread_length_le (next (some ((buffer ++ more).take n)))
      ((buffer ++ more).drop n)
    rw [List.length_drop, List.length_append] at hle
    omega
  · have hle := Proc.unread_length_le (next none) []
    rw [List.length_nil] at hle
    omega

/-- The left side has not begun, or the message it begins with is out. -/
def Spoken (p : Proc α) (hello : List UInt8) (s : Duplex α β) : Prop :=
  (s.left = p ∧ s.fromLeft = []) ∨ hello <+: s.fromLeft

theorem spoken_step {hello : List UInt8} {next : Proc α}
    (h : Spoken (.write hello next) hello s) (side : Side) :
    Spoken (.write hello next) hello (s.step side) := by
  cases side with
  | left =>
    rcases h with ⟨hleft, hnone⟩ | hout
    · right
      simp only [step, hleft, hnone, List.nil_append]
      exact List.prefix_refl _
    · right
      simp only [step]
      split
      · exact hout
      · exact hout.trans (List.prefix_append _ _)
      · split
        · exact hout
        · exact hout
  | right =>
    have hkept : (s.step .right).left = s.left ∧ (s.step .right).fromLeft = s.fromLeft := by
      simp only [step]
      split
      · exact ⟨rfl, rfl⟩
      · exact ⟨rfl, rfl⟩
      · split
        · exact ⟨rfl, rfl⟩
        · exact ⟨rfl, rfl⟩
    rw [Spoken, hkept.1, hkept.2]
    exact h

private theorem done_of_quiet {p : Proc α} {buffer left : List UInt8}
    (hquiet : (∃ r, p = .done r) ∨ Starved p buffer)
    (hunread : ∀ more, (p.run (buffer ++ more)).unread = left ++ more) :
    ∃ r, p = .done r ∧ buffer = left := by
  rcases hquiet with ⟨r, rfl⟩ | hstarved
  · refine ⟨r, rfl, ?_⟩
    have h := hunread []
    rw [List.append_nil, List.append_nil] at h
    exact h
  · exact absurd (hunread [0]) (hstarved.unread_ne (List.cons_ne_nil _ _))

/-- The rule for a request and a reply. If the reply is what the right side writes on the request,
and the left side makes its result of the reply, then in whatever order the two go on, they stop
only with these results, and with nothing in flight but what follows the messages. -/
theorem quiet_result {hello reply restLeft restRight : List UInt8} {next : Proc α} {rp : α}
    {rq : β} (hq : ∀ more, q.run (hello ++ more) = ⟨rq, restRight ++ more, reply⟩)
    (hp : ∀ more, (Proc.write hello next).run (reply ++ more) = ⟨rp, restLeft ++ more, hello⟩)
    (schedule : List Side)
    (hquiet : Quiet (schedule.foldl step { left := .write hello next, right := q })) :
    (schedule.foldl step { left := .write hello next, right := q }).left = .done rp ∧
      (schedule.foldl step { left := .write hello next, right := q }).right = .done rq ∧
      (schedule.foldl step { left := .write hello next, right := q }).toLeft = restLeft ∧
      (schedule.foldl step { left := .write hello next, right := q }).toRight = restRight := by
  obtain ⟨hsound, hspoken⟩ : Sound (.write hello next) q
        (schedule.foldl step { left := .write hello next, right := q }) ∧
      Spoken (.write hello next) hello
        (schedule.foldl step { left := .write hello next, right := q }) := by
    apply @foldl_invariant _ _ step (fun s => Sound (.write hello next) q s ∧
      Spoken (.write hello next) hello s) _ schedule
    · exact ⟨sound_start _ _, .inl ⟨rfl, rfl⟩⟩
    · intro s side h
      exact ⟨sound_step h.1 side, spoken_step h.2 side⟩
  generalize schedule.foldl step { left := .write hello next, right := q } = s at *
  obtain ⟨extra, hextra⟩ : hello <+: s.fromLeft := by
    rcases hspoken with ⟨hleft, -⟩ | hout
    · rcases hquiet.left with ⟨r, hdone⟩ | ⟨n, p, hread, -⟩
      · rw [hleft] at hdone
        cases hdone
      · rw [hleft] at hread
        cases hread
    · exact hout
  -- the request is out, so the right side has all it reads
  have hright : ∀ more, { s.right.run (s.toRight ++ more) with
      written := s.fromRight ++ (s.right.run (s.toRight ++ more)).written } =
        (⟨rq, restRight ++ extra ++ more, reply⟩ : Proc.Outcome β) := by
    intro more
    rw [← hsound.right more, ← hextra, List.append_assoc, hq, List.append_assoc]
  obtain ⟨r, hdone, hbuffer⟩ := done_of_quiet hquiet.right
    fun more => congrArg Proc.Outcome.unread (hright more)
  have hreply := congrArg Proc.Outcome.written (hright [])
  have hresult := congrArg Proc.Outcome.result (hright [])
  simp only [hdone, Proc.run_done, List.append_nil] at hreply hresult
  -- so the reply is out, and the left side has all it reads
  have hleft : ∀ more, { s.left.run (s.toLeft ++ more) with
      written := s.fromLeft ++ (s.left.run (s.toLeft ++ more)).written } =
        (⟨rp, restLeft ++ more, hello⟩ : Proc.Outcome α) := by
    intro more
    rw [← hsound.left more, hreply, hp]
  obtain ⟨r', hdone', hbuffer'⟩ := done_of_quiet hquiet.left
    fun more => congrArg Proc.Outcome.unread (hleft more)
  have hwritten := congrArg Proc.Outcome.written (hleft [])
  have hresult' := congrArg Proc.Outcome.result (hleft [])
  simp only [hdone', Proc.run_done, List.append_nil] at hwritten hresult'
  have hnothing : extra = [] := by
    rw [hwritten] at hextra
    exact List.append_right_eq_self.mp hextra
  subst hresult hresult' hnothing
  exact ⟨hdone', hdone, hbuffer', by rw [hbuffer, List.append_nil]⟩

/-- Both sides together have gone on by one operation. -/
def Goes (s' s : Duplex α β) : Prop :=
  ∃ side, s' = s.step side ∧ match side with
    | .left => ¬ ((∃ r, s.left = .done r) ∨ Starved s.left s.toLeft)
    | .right => ¬ ((∃ r, s.right = .done r) ∨ Starved s.right s.toRight)

theorem acc_goes (s : Duplex α β) : Acc Goes s := by
  have hsub : ∀ s' s : Duplex α β, Goes s' s →
      Prod.GameAdd Proc.Continues Proc.Continues (s'.left, s'.right) (s.left, s.right) := by
    rintro s' s ⟨side, rfl, hgoes⟩
    cases side with
    | left =>
      simp only [step]
      split
      · rename_i r hleft
        exact absurd (.inl ⟨r, hleft⟩) hgoes
      · rename_i bytes p hleft
        rw [hleft]
        exact .fst (.write bytes p)
      · rename_i n p hleft
        split
        · rw [hleft]
          exact .fst (.read n p _)
        · rename_i hshort
          exact absurd (.inr ⟨n, p, hleft, not_le.mp hshort⟩) hgoes
    | right =>
      simp only [step]
      split
      · rename_i r hright
        exact absurd (.inl ⟨r, hright⟩) hgoes
      · rename_i bytes p hright
        rw [hright]
        exact .snd (.write bytes p)
      · rename_i n p hright
        split
        · rw [hright]
          exact .snd (.read n p _)
        · rename_i hshort
          exact absurd (.inr ⟨n, p, hright, not_le.mp hshort⟩) hgoes
  have hacc := (Proc.acc_continues s.left).prod_gameAdd (Proc.acc_continues s.right)
  exact Subrelation.accessible (fun {s' s} h => hsub s' s h)
    (InvImage.accessible (fun s : Duplex α β => (s.left, s.right)) hacc)

end Duplex
end Teiryo
