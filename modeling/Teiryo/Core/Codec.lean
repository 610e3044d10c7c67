import Teiryo.Core.Wire
import Teiryo.Framework.Bincode
import Teiryo.Framework.Rfc3339
import Mathlib.Data.List.GetD

/-!
# Frames

The frame that carries a message's bytes, following `teiryo-core/src/protocol/codec.rs`, and the
texts that stand for values there: an id goes as the text of its ULID and an instant as its
RFC 3339 text.
-/

namespace Teiryo

/-- Maximum frame payload size (1 MiB). -/
def maxFrameLen : Nat := 1024 * 1024

/-- What `framed` sends for a payload: the length, then the payload. It refuses a longer one. -/
def sendFrame (payload : List UInt8) : Option (List UInt8) :=
  if maxFrameLen < payload.length then none
  else some (Bincode.littleEndian 4 payload.length ++ payload)

/-- The digits of Crockford's base 32. -/
def crockford : List Char := "0123456789ABCDEFGHJKMNPQRSTVWXYZ".toList

/-- A ULID's text, most significant digit first. -/
def ulidText (id : PollId) : String :=
  String.ofList ((List.range 26).reverse.map fun i => crockford.getD (id.val / 32 ^ i % 32) '0')

def QuotaUnit.variant : QuotaUnit → Nat
  | .percent => 0
  | .messages => 1
  | .tokens => 2
  | .hours => 3

def RolloverKind.variant : RolloverKind → Nat
  | .scheduled => 0
  | .early => 1
  | .retracted => 2
  | .unannounced => 3

def tsSize (ts : DateTime) : Nat := Bincode.textSize (Rfc3339.format ts)

theorem sendFrame_isSome_iff (payload : List UInt8) :
    (sendFrame payload).isSome ↔ payload.length ≤ maxFrameLen := by
  unfold sendFrame
  split
  · rename_i h
    simp [h]
  · rename_i h
    simp [Nat.le_of_not_lt h]

private theorem length_encode_crockford (i : Nat) :
    (String.utf8EncodeChar (crockford.getD i '0')).length = 1 := by
  have hascii : (('0' :: crockford).all fun c => (String.utf8EncodeChar c).length == 1) = true := by
    decide
  apply eq_of_beq
  apply List.all_eq_true.mp hascii
  rcases Nat.lt_or_ge i crockford.length with h | h
  · rw [List.getD_eq_getElem _ _ h]
    exact List.mem_cons_of_mem _ (List.getElem_mem h)
  · rw [List.getD_eq_default _ _ h]
    exact List.mem_cons_self

theorem length_encode_ulidText (id : PollId) :
    (Utf8.encode (ulidText id).toList).length = 26 := by
  unfold ulidText Utf8.encode
  rw [String.toList_ofList, List.length_flatMap, List.map_map]
  simp only [Function.comp_def, length_encode_crockford]
  rfl

/-- No instant takes fewer bytes than one on a whole second. -/
theorem le_tsSize (ts : DateTime) : 21 ≤ tsSize ts := by
  have hchars := Rfc3339.twenty_le_length_format ts
  have hbytes := Bincode.length_lt_textSize (Rfc3339.format ts)
  unfold tsSize
  omega

end Teiryo
