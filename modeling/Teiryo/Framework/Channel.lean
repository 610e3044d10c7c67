import Mathlib.Tactic.Common

/-!
# Channels

The two channels tasks talk over. A watch channel keeps only its newest value and counts the
sends; a receiver remembers the count it last looked at, so it can tell that something was sent
but not how often. An unbounded queue keeps everything, in order.
-/

namespace Teiryo

/-- The sending half of a watch channel. -/
structure Watch (α : Type) where
  value : α
  version : Nat := 0

namespace Watch

variable {α : Type}

def sendReplace (ch : Watch α) (value : α) : Watch α where
  value := value
  version := ch.version + 1

/-- Whether a receiver that last looked at version `seen` has something new to look at. -/
def hasChanged (ch : Watch α) (seen : Nat) : Bool := decide (seen < ch.version)

@[simp] theorem sendReplace_value (ch : Watch α) (a : α) : (ch.sendReplace a).value = a := rfl

@[simp] theorem sendReplace_version (ch : Watch α) (a : α) :
    (ch.sendReplace a).version = ch.version + 1 := rfl

/-- The channel later on: either nothing was sent, or a receiver can tell. -/
def Follows (later ch : Watch α) : Prop := later = ch ∨ ch.version < later.version

theorem Follows.trans {a b c : Watch α} (h : c.Follows b) (h' : b.Follows a) : c.Follows a := by
  rcases h with rfl | hlt
  · exact h'
  · rcases h' with rfl | hlt'
    · exact .inr hlt
    · exact .inr (Nat.lt_trans hlt' hlt)

theorem sendReplace_follows (ch : Watch α) (a : α) : (ch.sendReplace a).Follows ch :=
  .inr (Nat.lt_succ_self ch.version)

theorem Follows.version_le {later ch : Watch α} (h : later.Follows ch) :
    ch.version ≤ later.version := by
  rcases h with rfl | hlt
  · exact Nat.le_refl _
  · exact Nat.le_of_lt hlt

end Watch

/-- An unbounded queue with one receiver. -/
structure Mailbox (α : Type) where
  queue : List α := []

namespace Mailbox

variable {α : Type}

def send (box : Mailbox α) (a : α) : Mailbox α where
  queue := box.queue ++ [a]

/-- The next message and what is left. -/
def recv (box : Mailbox α) : Option (α × Mailbox α) :=
  match box.queue with
  | [] => none
  | a :: queue => some (a, { queue })

theorem recv_length {box box' : Mailbox α} {a : α} (h : box.recv = some (a, box')) :
    box.queue.length = box'.queue.length + 1 := by
  unfold recv at h
  split at h
  · cases h
  · rename_i hq
    cases h
    simp [hq]

end Mailbox
end Teiryo
