import Teiryo.Core.Messages

/-!
# The wire format

How a frame's payload is read, how many bytes a page of history takes there, and the formats with
floats as their bits.
-/

namespace Teiryo.Wire

open Bincode

/-- Decode a frame payload. What follows the value in the payload is not looked at. -/
def decodeFrame {α : Type} (c : Codec α) (payload : List UInt8) : Option α :=
  (c.decode payload).map Prod.fst

section Frames

variable {α : Type} (c : Codec α)

theorem decodeFrame_encode {a : α} (ha : c.Fits a) (more : List UInt8) :
    decodeFrame c (c.encode a ++ more) = some a := by
  rw [decodeFrame, c.decode_encode a ha more]
  rfl

theorem fits_of_decodeFrame {payload : List UInt8} {a : α} (h : decodeFrame c payload = some a) :
    c.Fits a := by
  obtain ⟨⟨a', rest⟩, hread, heq⟩ := Option.map_eq_some_iff.mp h
  cases heq
  exact c.fits_of_decode _ _ _ hread

end Frames

section Sizes

variable {F S : Type} (f : Formats F S)

/-- The bytes of a reading: 27 of its id, one of its unit and eight of its value, and those of its
texts and options. -/
def snapshotSize (s : QuotaSnapshot F) : Nat :=
  36 + tsSize s.ts + textSize s.window.val + textSize s.label + optionSize (fun _ => 8) s.limit +
    optionSize tsSize s.resetAt

/-- The bytes of a rollover: 27 of its id, one of its kind and eight of each value, and those of
its texts and options. -/
def rolloverSize (r : WindowRollover F) : Nat :=
  44 + textSize r.account.val + textSize r.window.val + tsSize r.observedAt +
    optionSize tsSize r.prevResetAt + optionSize tsSize r.newResetAt +
    optionSize tsSize r.prevObservedAt

@[simp] private theorem length_encode_double (x : F) : ((double f).encode x).length = 8 :=
  (f.double x).size_toArray

@[simp] private theorem length_encode_instant (t : DateTime) :
    ((instant f).encode t).length = tsSize t := by
  rw [instant, Codec.encode_partialMap, encode_string, length_text, tsSize]

@[simp] private theorem length_encode_pollId (id : PollId) :
    ((pollId f).encode id).length = 27 := by
  rw [pollId, Codec.encode_partialMap, encode_string, length_text, textSize,
    length_encode_ulidText]
  rfl

@[simp] private theorem length_encode_optional {α : Type} {c : Codec α} {size : α → Nat}
    (h : ∀ a, (c.encode a).length = size a) (a : Option α) :
    ((optional c).encode a).length = optionSize size a := by
  rw [encode_optional, length_option h]

private theorem length_encode_quotaSnapshot (s : QuotaSnapshot F) :
    ((quotaSnapshot f).encode s).length = snapshotSize s := by
  have hwindow : (windowId.encode s.window).length = textSize s.window.val := length_text _
  have hlabel : (string.encode s.label).length = textSize s.label := length_text _
  have hunit : (quotaUnit.encode s.unit).length = 1 := by cases s.unit <;> rfl
  have hlimit := length_encode_optional (length_encode_double f) s.limit
  have hreset := length_encode_optional (length_encode_instant f) s.resetAt
  simp only [quotaSnapshot, Codec.encode_iso, Codec.encode_pair, List.length_append,
    length_encode_pollId, length_encode_instant, length_encode_double, hwindow, hlabel, hunit,
    hlimit, hreset, snapshotSize]
  omega

private theorem length_encode_windowRollover (r : WindowRollover F) :
    ((windowRollover f).encode r).length = rolloverSize r := by
  have haccount : (accountId.encode r.account).length = textSize r.account.val := length_text _
  have hwindow : (windowId.encode r.window).length = textSize r.window.val := length_text _
  have hkind : (rolloverKind.encode r.kind).length = 1 := by cases r.kind <;> rfl
  have hinstant := length_encode_optional (length_encode_instant f)
  simp only [windowRollover, Codec.encode_iso, Codec.encode_pair, List.length_append,
    length_encode_pollId, length_encode_instant, length_encode_double, haccount, hwindow, hkind,
    hinstant, rolloverSize]
  omega

theorem length_encode_history (page : HistoryPage F) :
    ((response f).encode (.history page)).length =
      1 + seqSize snapshotSize page.snapshots + optionSize tsSize page.earliest +
        seqSize rolloverSize page.rollovers := by
  have hpage : ((response f).encode (.history page)).length =
      1 + ((historyPage f).encode page).length := by
    have htag : (response f).encode (.history page) = 4 :: (historyPage f).encode page := rfl
    rw [htag, List.length_cons, Nat.add_comm]
  have hearliest := length_encode_optional (length_encode_instant f) page.earliest
  simp only [hpage, historyPage, Codec.encode_iso, Codec.encode_pair, List.length_append,
    encode_list, length_seq (length_encode_quotaSnapshot f),
    length_seq (length_encode_windowRollover f), hearliest]
  omega

end Sizes

private theorem foldl_digits (b k n acc : Nat) :
    ((List.range k).reverse.map fun i => n / b ^ i % b).foldl (fun m d => m * b + d) acc =
      acc * b ^ k + n % b ^ k := by
  induction k generalizing acc with
  | zero => simp [Nat.mod_one]
  | succ k ih =>
    rw [List.range_succ, List.reverse_append, List.reverse_singleton, List.singleton_append,
      List.map_cons, List.foldl_cons, ih, pow_succ, Nat.mod_mul, Nat.add_mul, Nat.mul_assoc,
      Nat.mul_comm b, Nat.mul_comm (n / b ^ k % b), Nat.add_assoc, Nat.add_comm (n % b ^ k)]

/-- An id of its text. -/
def readUlid (text : String) : Option PollId :=
  if text.toList.length = 26 ∧ text.toList.all crockford.contains then
    some (Fin.ofNat (2 ^ 128) (text.toList.foldl (fun n c => n * 32 + crockford.idxOf c) 0))
  else none

private theorem readUlid_ulidText (id : PollId) : readUlid (ulidText id) = some id := by
  have hdigit : ∀ d < 32, crockford.contains (crockford.getD d '0') = true ∧
      crockford.idxOf (crockford.getD d '0') = d := by decide
  have hmod : ∀ i, id.val / 32 ^ i % 32 < 32 := fun i => Nat.mod_lt _ (by decide)
  have htext : (ulidText id).toList =
      (List.range 26).reverse.map fun i => crockford.getD (id.val / 32 ^ i % 32) '0' :=
    String.toList_ofList
  have hall : (ulidText id).toList.all crockford.contains = true := by
    rw [htext, List.all_map]
    exact List.all_eq_true.mpr fun i _ => (hdigit _ (hmod i)).1
  have hvalue : (ulidText id).toList.foldl (fun n c => n * 32 + crockford.idxOf c) 0 = id.val := by
    have hdigits := foldl_digits 32 26 id.val 0
    rw [List.foldl_map] at hdigits
    rw [htext, List.foldl_map]
    simp only [(hdigit _ (hmod _)).2]
    rw [hdigits, Nat.zero_mul, Nat.zero_add]
    exact Nat.mod_eq_of_lt (id.isLt.trans (by decide))
  have hlength : (ulidText id).toList.length = 26 := by rw [htext]; rfl
  rw [readUlid, if_pos ⟨hlength, hall⟩, hvalue]
  exact congrArg some (Fin.ofNat_val_eq_self id)

/-- The bytes of a number that this many hold. -/
def leVector (k n : Nat) : Vector UInt8 k := ⟨(littleEndian k n).toArray, length_littleEndian k n⟩

private theorem fromLittleEndian_leVector (k n : Nat) :
    fromLittleEndian (leVector k n).toList = n % 256 ^ k :=
  fromLittleEndian_littleEndian k n

/-- Floats as their bits, and no other texts of ids and instants than those written. -/
def bits : Formats UInt64 UInt32 where
  IsDouble _ := True
  double x := leVector 8 x.toNat
  ofDouble v := UInt64.ofNat (fromLittleEndian v.toList)
  isDouble_ofDouble _ := trivial
  ofDouble_double x _ := by
    have hlt : x.toNat < 256 ^ 8 := x.toNat_lt
    rw [fromLittleEndian_leVector, Nat.mod_eq_of_lt hlt, UInt64.ofNat_toNat]
  single x := leVector 4 x.toNat
  ofSingle v := UInt32.ofNat (fromLittleEndian v.toList)
  ofSingle_single x := by
    have hlt : x.toNat < 256 ^ 4 := x.toNat_lt
    rw [fromLittleEndian_leVector, Nat.mod_eq_of_lt hlt, UInt32.ofNat_toNat]
  parseInstant s := (Rfc3339.parse s).filter fun t => decide (Instant t)
  parseInstant_format t ht := by
    rw [Rfc3339.parse_format, Option.filter_some, if_pos (decide_eq_true ht)]
  instant_of_parse s t h := of_decide_eq_true (Option.filter_eq_some_iff.mp h).2
  parseUlid := readUlid
  parseUlid_text := readUlid_ulidText

/-- A view whose bytes the source records. -/
def recordedView : WindowView UInt64 UInt32 where
  window := {
    id := ⟨"session_5h_opus"⟩
    label := "Opus — 5 hour"
    scope := .model "opus"
    resetKind := .rolling 18000000000000
    unit := .hours
    used := 0x4045400000000000
    limit := some 0x4044000000000000
    resetAt := some 1786795200000000000 }
  hint := {
    style := .percent
    warnThreshold := 0x3f4ccccd
    criticalThreshold := 0x3f733333
    note := some "blocks entirely at cap" }
  observedStart := some ⟨1786779000000000000, 1786779900000000000⟩

example : (windowView bits).encode recordedView =
    [0x0f, 0x73, 0x65, 0x73, 0x73, 0x69, 0x6f, 0x6e, 0x5f, 0x35, 0x68, 0x5f, 0x6f, 0x70, 0x75,
      0x73, 0x0f, 0x4f, 0x70, 0x75, 0x73, 0x20, 0xe2, 0x80, 0x94, 0x20, 0x35, 0x20, 0x68, 0x6f,
      0x75, 0x72, 0x01, 0x04, 0x6f, 0x70, 0x75, 0x73, 0x00, 0xfb, 0x50, 0x46, 0x00, 0x03, 0x00,
      0x00, 0x00, 0x00, 0x00, 0x40, 0x45, 0x40, 0x01, 0x00, 0x00, 0x00, 0x00, 0x00, 0x00, 0x44,
      0x40, 0x01, 0x14, 0x32, 0x30, 0x32, 0x36, 0x2d, 0x30, 0x38, 0x2d, 0x31, 0x35, 0x54, 0x31,
      0x32, 0x3a, 0x30, 0x30, 0x3a, 0x30, 0x30, 0x5a, 0x00, 0xcd, 0xcc, 0x4c, 0x3f, 0x33, 0x33,
      0x73, 0x3f, 0x01, 0x16, 0x62, 0x6c, 0x6f, 0x63, 0x6b, 0x73, 0x20, 0x65, 0x6e, 0x74, 0x69,
      0x72, 0x65, 0x6c, 0x79, 0x20, 0x61, 0x74, 0x20, 0x63, 0x61, 0x70, 0x01, 0x14, 0x32, 0x30,
      0x32, 0x36, 0x2d, 0x30, 0x38, 0x2d, 0x31, 0x35, 0x54, 0x30, 0x37, 0x3a, 0x33, 0x30, 0x3a,
      0x30, 0x30, 0x5a, 0x14, 0x32, 0x30, 0x32, 0x36, 0x2d, 0x30, 0x38, 0x2d, 0x31, 0x35, 0x54,
      0x30, 0x37, 0x3a, 0x34, 0x35, 0x3a, 0x30, 0x30, 0x5a] := by
  decide +kernel

end Teiryo.Wire
