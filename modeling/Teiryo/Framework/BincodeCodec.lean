import Teiryo.Framework.Codec

/-!
# Reading bincode

The formats of bincode's standard configuration, by the encoders of `Teiryo.Framework.Bincode`.
An integer is read from any of the widths its type admits, not only from the shortest.
-/

namespace Teiryo.Bincode

/-- The number whose bytes these are, least significant first. -/
def fromLittleEndian : List UInt8 → Nat
  | [] => 0
  | b :: bs => b.toNat + 256 * fromLittleEndian bs

theorem fromLittleEndian_littleEndian (k n : Nat) :
    fromLittleEndian (littleEndian k n) = n % 256 ^ k := by
  induction k generalizing n with
  | zero => simp [littleEndian, fromLittleEndian, Nat.mod_one]
  | succ k ih =>
    have hlow : (UInt8.ofNat n).toNat = n % 256 := UInt8.toNat_ofNat'
    rw [littleEndian, fromLittleEndian, ih, hlow, pow_succ', Nat.mod_mul]

theorem fromLittleEndian_lt (bytes : List UInt8) :
    fromLittleEndian bytes < 256 ^ bytes.length := by
  induction bytes with
  | nil => decide
  | cons b bs ih =>
    have hb := b.toNat_lt
    rw [fromLittleEndian, List.length_cons, pow_succ']
    omega

/-- As many bytes as are asked for. -/
def bytes (k : Nat) : Codec (Vector UInt8 k) where
  encode v := v.toList
  decode input :=
    if h : k ≤ input.length then
      some (⟨(input.take k).toArray, by simp [h]⟩, input.drop k)
    else none
  Fits _ := True
  decode_encode v _ rest := by
    have hlength : v.toList.length = k := Vector.length_toList
    have hle : k ≤ (v.toList ++ rest).length := by
      rw [List.length_append]
      omega
    rw [dif_pos hle]
    congr 2
    · apply Vector.toList_inj.mp
      change ((v.toList ++ rest).take k).toArray.toList = v.toList
      rw [List.toList_toArray, List.take_append_of_le_length hlength.ge,
        List.take_of_length_le hlength.le]
    · rw [List.drop_append_of_le_length hlength.ge, List.drop_of_length_le hlength.le,
        List.nil_append]
  fits_of_decode _ _ _ _ := trivial

/-- A number in as many bytes as are asked for. -/
def fixed (k : Nat) : Codec Nat where
  encode n := littleEndian k n
  decode input :=
    if k ≤ input.length then some (fromLittleEndian (input.take k), input.drop k) else none
  Fits n := n < 256 ^ k
  decode_encode n hn rest := by
    have hlength := length_littleEndian k n
    have hle : k ≤ (littleEndian k n ++ rest).length := by
      rw [List.length_append]
      omega
    have htake : (littleEndian k n ++ rest).take k = littleEndian k n := by
      rw [List.take_append_of_le_length hlength.ge, List.take_of_length_le hlength.le]
    have hdrop : (littleEndian k n ++ rest).drop k = rest := by
      rw [List.drop_append_of_le_length hlength.ge, List.drop_of_length_le hlength.le,
        List.nil_append]
    rw [if_pos hle, htake, hdrop, fromLittleEndian_littleEndian, Nat.mod_eq_of_lt hn]
  fits_of_decode input n rest h := by
    split at h
    · rename_i hle
      cases h
      have hlt := fromLittleEndian_lt (input.take k)
      rwa [List.length_take, Nat.min_eq_left hle] at hlt
    · cases h

/-- How many bytes follow a marker. -/
def markedWidth (marker : UInt8) : Option Nat :=
  if marker = 251 then some 2 else if marker = 252 then some 4
  else if marker = 253 then some 8 else none

/-- Read an unsigned integer whose type has this many bytes. -/
def decodeVarint (k : Nat) : List UInt8 → Option (Nat × List UInt8)
  | [] => none
  | b :: rest =>
    if b < 251 then some (b.toNat, rest)
    else (markedWidth b).bind fun width => if width ≤ k then (fixed width).decode rest else none

theorem decodeVarint_marked {k width n : Nat} {marker : UInt8} (hmarker : ¬ marker < 251)
    (hwidth : markedWidth marker = some width) (hle : width ≤ k) (hn : n < 256 ^ width)
    (rest : List UInt8) :
    decodeVarint k (marker :: littleEndian width n ++ rest) = some (n, rest) := by
  rw [List.cons_append, decodeVarint, if_neg hmarker, hwidth, Option.bind_some, if_pos hle]
  exact (fixed width).decode_encode n hn rest

/-- An unsigned integer of a type of four or of eight bytes. -/
def integer (k : Nat) (hk : k = 4 ∨ k = 8) : Codec Nat where
  encode := varint
  decode := decodeVarint k
  Fits n := n < 256 ^ k
  decode_encode n hn rest := by
    unfold varint
    split
    · rename_i hsmall
      have hbyte : (UInt8.ofNat n).toNat = n := by
        rw [UInt8.toNat_ofNat']
        omega
      have hlt : UInt8.ofNat n < 251 := by
        rw [UInt8.lt_iff_toNat_lt, hbyte]
        exact hsmall
      rw [List.singleton_append, decodeVarint, if_pos hlt, hbyte]
    split
    · exact decodeVarint_marked (by decide) rfl (by omega) (by assumption) rest
    split
    · exact decodeVarint_marked (by decide) rfl (by omega) (by assumption) rest
    · rename_i hbig
      have hk8 : k = 8 := by
        rcases hk with rfl | rfl
        · exact absurd hn hbig
        · rfl
      subst hk8
      exact decodeVarint_marked (by decide) rfl (Nat.le_refl 8) hn rest
  fits_of_decode input n rest h := by
    cases input with
    | nil => cases h
    | cons b bs =>
      rw [decodeVarint] at h
      split at h
      · cases h
        have hb := b.toNat_lt
        rcases hk with rfl | rfl
        · omega
        · omega
      · obtain ⟨width, -, h⟩ := Option.bind_eq_some_iff.mp h
        split at h
        · rename_i hle
          have hlt : n < 256 ^ width := (fixed width).fits_of_decode _ _ _ h
          exact hlt.trans_le (Nat.pow_le_pow_right (by decide) hle)
        · cases h

/-- The index of a variant, or any other `u32`. -/
def word : Codec Nat := integer 4 (.inl rfl)

/-- A length, or any other `u64`. -/
def long : Codec Nat := integer 8 (.inr rfl)

def u32 : Codec UInt32 :=
  word.partialMap (fun n => some (UInt32.ofNat n)) UInt32.toNat (fun _ => True)
    (fun b _ => ⟨b.toNat_lt, by rw [UInt32.ofNat_toNat]⟩) fun _ _ _ _ => trivial

/-- The byte of a `bool`, or of an option's tag. -/
def flag : Codec Nat := fixed 1

theorem flag_fits {n : Nat} (h : n ≤ 1) : flag.Fits n := by
  change n < 256 ^ 1
  omega

def bool : Codec Bool :=
  flag.partialMap (fun n => if n = 0 then some false else if n = 1 then some true else none)
    Bool.toNat (fun _ => True)
    (fun b _ => by cases b <;> exact ⟨flag_fits (by decide), rfl⟩) fun _ _ _ _ => trivial

/-- A text whose length a `u64` holds. -/
def string : Codec String :=
  (Codec.counted long).partialMap Utf8.fromUtf8 (fun s => Utf8.encode s.toList)
    (fun s => (Utf8.encode s.toList).length < 2 ^ 64)
    (fun s hs => ⟨hs, Utf8.fromUtf8_encode s⟩)
    (fun _ _ h hs => Utf8.encode_of_fromUtf8 hs ▸ h)

def optional {α : Type} (c : Codec α) : Codec (Option α) :=
  Codec.option flag c ⟨flag_fits (by decide), flag_fits (by decide)⟩

def list {α : Type} (c : Codec α) : Codec (List α) := Codec.seq long c

theorem encode_string (s : String) : string.encode s = text s := rfl

theorem encode_optional {α : Type} (c : Codec α) (a : Option α) :
    (optional c).encode a = option c.encode a := by
  cases a with
  | none => rfl
  | some a => rfl

theorem encode_list {α : Type} (c : Codec α) (as : List α) :
    (list c).encode as = seq c.encode as := rfl

end Teiryo.Bincode
