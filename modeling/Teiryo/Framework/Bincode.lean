import Mathlib.Algebra.BigOperators.Group.List.Basic
import Mathlib.Algebra.Order.Ring.Nat
import Teiryo.Framework.Utf8

/-!
# Bincode

Values as the bytes of bincode's standard configuration. Lengths and variant indices are varints,
a text or a list is its length and then its content, and an option is a tag byte and then its
content. Beside each encoder stands the number of bytes it writes.
-/

namespace Teiryo.Bincode

/-- The low bytes of a number, least significant first. -/
def littleEndian : Nat → Nat → List UInt8
  | 0, _ => []
  | k + 1, n => UInt8.ofNat n :: littleEndian k (n / 256)

/-- An unsigned integer: one byte, or a marker and then two, four or eight bytes. -/
def varint (n : Nat) : List UInt8 :=
  if n < 251 then [UInt8.ofNat n]
  else if n < 2 ^ 16 then 251 :: littleEndian 2 n
  else if n < 2 ^ 32 then 252 :: littleEndian 4 n
  else 253 :: littleEndian 8 n

def varintSize (n : Nat) : Nat :=
  if n < 251 then 1 else if n < 2 ^ 16 then 3 else if n < 2 ^ 32 then 5 else 9

def text (s : String) : List UInt8 :=
  varint (Utf8.encode s.toList).length ++ Utf8.encode s.toList

def textSize (s : String) : Nat :=
  varintSize (Utf8.encode s.toList).length + (Utf8.encode s.toList).length

section Containers

variable {α : Type}

def option (encode : α → List UInt8) : Option α → List UInt8
  | none => [0]
  | some a => 1 :: encode a

def optionSize (size : α → Nat) (a : Option α) : Nat := 1 + (a.map size).getD 0

def seq (encode : α → List UInt8) (as : List α) : List UInt8 :=
  varint as.length ++ as.flatMap encode

def seqSize (size : α → Nat) (as : List α) : Nat := varintSize as.length + (as.map size).sum

end Containers

@[simp] theorem length_littleEndian (k n : Nat) : (littleEndian k n).length = k := by
  induction k generalizing n with
  | zero => rfl
  | succ k ih => rw [littleEndian, List.length_cons, ih]

@[simp] theorem length_varint (n : Nat) : (varint n).length = varintSize n := by
  unfold varint varintSize
  split
  · rfl
  split
  · simp
  split <;> simp

theorem varintSize_pos (n : Nat) : 0 < varintSize n := by
  unfold varintSize
  split
  · omega
  split
  · omega
  split <;> omega

@[simp] theorem length_text (s : String) : (text s).length = textSize s := by
  rw [text, List.length_append, length_varint, textSize]

/-- A text takes its length and at least a byte a character. -/
theorem length_lt_textSize (s : String) : s.toList.length < textSize s := by
  have hpos := varintSize_pos (Utf8.encode s.toList).length
  have hchars : ∀ cs : List Char, cs.length ≤ (Utf8.encode cs).length := by
    intro cs
    induction cs with
    | nil => exact Nat.le_refl 0
    | cons c cs ih =>
      have hc := Utf8.utf8EncodeChar_length_pos c
      rw [Utf8.encode_cons, List.length_cons, List.length_append]
      omega
  have hle := hchars s.toList
  rw [textSize]
  omega

section Containers

variable {α β : Type} {encode : α → List UInt8} {size : α → Nat}

theorem length_option (h : ∀ a, (encode a).length = size a) (a : Option α) :
    (option encode a).length = optionSize size a := by
  cases a with
  | none => rfl
  | some a =>
    rw [option, List.length_cons, h, optionSize, Option.map_some, Option.getD_some]
    omega

theorem length_seq (h : ∀ a, (encode a).length = size a) (as : List α) :
    (seq encode as).length = seqSize size as := by
  rw [seq, List.length_append, length_varint, List.length_flatMap, seqSize]
  simp only [h]

/-- The order of a list does not change its size. -/
theorem seqSize_perm {as bs : List α} (h : as.Perm bs) : seqSize size as = seqSize size bs := by
  rw [seqSize, seqSize, h.length_eq, (h.map size).sum_eq]

theorem seqSize_map (f : β → α) (bs : List β) :
    seqSize size (bs.map f) = seqSize (fun b => size (f b)) bs := by
  rw [seqSize, seqSize, List.length_map, List.map_map]
  rfl

/-- A list of elements of at least `c` bytes each. -/
theorem mul_length_le_seqSize {c : Nat} {as : List α} (h : ∀ a ∈ as, c ≤ size a) :
    c * as.length ≤ seqSize size as := by
  have hsum : c * as.length ≤ (as.map size).sum := by
    induction as with
    | nil => exact Nat.le_refl 0
    | cons a as ih =>
      have ha := h a List.mem_cons_self
      have has := ih fun b hb => h b (List.mem_cons_of_mem a hb)
      rw [List.length_cons, Nat.mul_succ, List.map_cons, List.sum_cons]
      omega
  rw [seqSize]
  omega

end Containers
end Teiryo.Bincode
