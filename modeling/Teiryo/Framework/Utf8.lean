import Mathlib.Data.List.Basic
import Mathlib.Data.List.Infix
import Mathlib.Tactic.Common

/-!
# UTF-8 bytes

Texts as bytes, cutting them at a character boundary, and reading bytes back as text with a
replacement character for what is not UTF-8.
-/

namespace Teiryo.Utf8

def encode (cs : List Char) : List UInt8 := cs.flatMap String.utf8EncodeChar

/-- Whether a byte only ever continues a character. -/
def isContinuation (b : UInt8) : Bool := decide (0x80 ≤ b.toNat) && decide (b.toNat < 0xC0)

/-- `str::is_char_boundary`: the first byte of a character, or the end. -/
def isCharBoundary (bytes : List UInt8) (i : Nat) : Bool :=
  if i = 0 then true
  else
    match bytes[i]? with
    | some b => !isContinuation b
    | none => decide (i = bytes.length)

/-- The last boundary at or before an index. -/
def floorBoundary (bytes : List UInt8) : Nat → Nat
  | 0 => 0
  | n + 1 => if isCharBoundary bytes (n + 1) then n + 1 else floorBoundary bytes n

/-- The longest prefix of a text that fits a number of bytes. -/
structure IsCut (limit : Nat) (cs pre : List Char) : Prop where
  isPrefix : pre <+: cs
  fits : (encode pre).length ≤ limit
  longest : ∀ p, p <+: cs → (encode p).length ≤ limit → p.length ≤ pre.length

@[simp] theorem encode_nil : encode [] = [] := rfl

@[simp] theorem encode_cons (c : Char) (cs : List Char) :
    encode (c :: cs) = String.utf8EncodeChar c ++ encode cs := rfl

theorem encode_append (cs ds : List Char) : encode (cs ++ ds) = encode cs ++ encode ds :=
  List.flatMap_append

/-- A character is one byte that begins it and some that continue it. -/
theorem utf8EncodeChar_eq_cons (c : Char) : ∃ b tail, String.utf8EncodeChar c = b :: tail ∧
    isContinuation b = false ∧ ∀ x ∈ tail, isContinuation x = true := by
  have hcont : ∀ n, isContinuation (UInt8.ofNat (n % 0x40 + 0x80)) = true := by
    intro n
    simp only [isContinuation, UInt8.toNat_ofNat', Bool.and_eq_true, decide_eq_true_eq]
    omega
  have hfirst : ∀ n, (n < 0x80 ∨ 0xC0 ≤ n ∧ n < 0x100) →
      isContinuation (UInt8.ofNat n) = false := by
    intro n hn
    simp only [isContinuation, UInt8.toNat_ofNat', Bool.and_eq_false_iff, decide_eq_false_iff_not]
    omega
  unfold String.utf8EncodeChar
  simp only
  split
  · exact ⟨_, _, rfl, hfirst _ (by omega), by simp⟩
  · split
    · refine ⟨_, _, rfl, hfirst _ (by omega), ?_⟩
      intro x hx
      simp only [List.mem_cons, List.not_mem_nil, or_false] at hx
      subst hx
      exact hcont _
    · split
      · refine ⟨_, _, rfl, hfirst _ (by omega), ?_⟩
        intro x hx
        simp only [List.mem_cons, List.not_mem_nil, or_false] at hx
        rcases hx with rfl | rfl
        · exact hcont _
        · exact hcont _
      · refine ⟨_, _, rfl, hfirst _ (by omega), ?_⟩
        intro x hx
        simp only [List.mem_cons, List.not_mem_nil, or_false] at hx
        rcases hx with rfl | rfl | rfl
        · exact hcont _
        · exact hcont _
        · exact hcont _

theorem utf8EncodeChar_length_pos (c : Char) : 0 < (String.utf8EncodeChar c).length := by
  obtain ⟨b, tail, h, -⟩ := utf8EncodeChar_eq_cons c
  rw [h]
  exact Nat.succ_pos _

/-- A character is at most four bytes. -/
theorem length_encode_le (cs : List Char) : (encode cs).length ≤ 4 * cs.length := by
  induction cs with
  | nil => exact Nat.le_refl 0
  | cons c cs ih =>
    have hc := c.utf8Size_le_four
    rw [encode_cons, List.length_cons, List.length_append, String.length_utf8EncodeChar]
    omega

/-- The boundaries of a text are the ends of its prefixes. -/
theorem isCharBoundary_encode_iff (cs : List Char) (i : Nat) :
    isCharBoundary (encode cs) i = true ↔ ∃ pre, pre <+: cs ∧ (encode pre).length = i := by
  induction cs generalizing i with
  | nil =>
    constructor
    · intro h
      refine ⟨[], List.nil_prefix, ?_⟩
      by_cases hi : i = 0
      · exact hi.symm
      · simp [isCharBoundary, hi] at h
    · rintro ⟨pre, hpre, rfl⟩
      rw [List.prefix_nil.mp hpre]
      rfl
  | cons c cs ih =>
    obtain ⟨b, tail, hchar, -, htail⟩ := utf8EncodeChar_eq_cons c
    by_cases hzero : i = 0
    · subst hzero
      exact iff_of_true rfl ⟨[], List.nil_prefix, rfl⟩
    by_cases hinside : i < (String.utf8EncodeChar c).length
    · -- inside the first character: its bytes there continue it
      have hfalse : isCharBoundary (encode (c :: cs)) i = false := by
        obtain ⟨j, rfl⟩ := Nat.exists_eq_succ_of_ne_zero hzero
        rw [hchar, List.length_cons, Nat.succ_eq_add_one, Nat.add_lt_add_iff_right] at hinside
        have hbyte : (encode (c :: cs))[j + 1]? = some tail[j] := by
          rw [encode_cons, hchar, List.cons_append, List.getElem?_cons_succ,
            List.getElem?_append_left hinside, List.getElem?_eq_getElem hinside]
        rw [isCharBoundary, if_neg hzero, hbyte]
        simp [htail _ (List.getElem_mem hinside)]
      rw [hfalse]
      refine iff_of_false Bool.false_ne_true ?_
      rintro ⟨pre, hpre, hlen⟩
      cases pre with
      | nil => exact hzero hlen.symm
      | cons d pre =>
        obtain ⟨rfl, -⟩ := List.cons_prefix_cons.mp hpre
        rw [encode_cons, List.length_append] at hlen
        omega
    · have hshift : isCharBoundary (encode (c :: cs)) i =
          isCharBoundary (encode cs) (i - (String.utf8EncodeChar c).length) := by
        have hbyte : (encode (c :: cs))[i]? =
            (encode cs)[i - (String.utf8EncodeChar c).length]? := by
          rw [encode_cons, List.getElem?_append_right (not_lt.mp hinside)]
        rw [isCharBoundary, if_neg hzero, hbyte, isCharBoundary]
        by_cases hstart : i - (String.utf8EncodeChar c).length = 0
        · rw [if_pos hstart, hstart]
          cases cs with
          | nil =>
            have hsize := String.length_utf8EncodeChar c
            simp
            omega
          | cons d ds =>
            obtain ⟨e, tail', hchar', hbegins, -⟩ := utf8EncodeChar_eq_cons d
            simp [hchar', hbegins]
        · rw [if_neg hstart]
          cases (encode cs)[i - (String.utf8EncodeChar c).length]? with
          | some x => rfl
          | none =>
            rw [encode_cons, List.length_append]
            apply decide_eq_decide.mpr
            omega
      rw [hshift, ih]
      constructor
      · rintro ⟨pre, hpre, hlen⟩
        refine ⟨c :: pre, List.cons_prefix_cons.mpr ⟨rfl, hpre⟩, ?_⟩
        rw [encode_cons, List.length_append]
        omega
      · rintro ⟨pre, hpre, hlen⟩
        cases pre with
        | nil => exact absurd hlen.symm hzero
        | cons d pre =>
          obtain ⟨rfl, htail⟩ := List.cons_prefix_cons.mp hpre
          refine ⟨pre, htail, ?_⟩
          rw [encode_cons, List.length_append] at hlen
          omega

theorem floorBoundary_le (bytes : List UInt8) (n : Nat) : floorBoundary bytes n ≤ n := by
  induction n with
  | zero => exact Nat.le_refl _
  | succ n ih =>
    rw [floorBoundary]
    split
    · exact Nat.le_refl _
    · omega

theorem isCharBoundary_floorBoundary (bytes : List UInt8) (n : Nat) :
    isCharBoundary bytes (floorBoundary bytes n) = true := by
  induction n with
  | zero => rfl
  | succ n ih =>
    rw [floorBoundary]
    split
    · assumption
    · exact ih

theorem le_floorBoundary {bytes : List UInt8} {i n : Nat} (hi : isCharBoundary bytes i = true)
    (hle : i ≤ n) : i ≤ floorBoundary bytes n := by
  induction n with
  | zero => omega
  | succ n ih =>
    rw [floorBoundary]
    split
    · exact hle
    · rename_i hnot
      apply ih
      have hne : i ≠ n + 1 := by
        rintro rfl
        exact hnot hi
      omega

/-- Of two prefixes of a text the one with more bytes has more characters. -/
theorem length_le_of_encode_length_le {cs p q : List Char} (hp : p <+: cs) (hq : q <+: cs)
    (h : (encode p).length ≤ (encode q).length) : p.length ≤ q.length := by
  rcases List.prefix_or_prefix_of_prefix hp hq with hpq | hqp
  · exact hpq.length_le
  · obtain ⟨more, rfl⟩ := hqp
    cases more with
    | nil => rw [List.append_nil]
    | cons c more =>
      have hpos := utf8EncodeChar_length_pos c
      rw [encode_append, encode_cons, List.length_append, List.length_append] at h
      omega

/-- Cutting a text's bytes at the last boundary cuts the text. -/
theorem take_floorBoundary (cs : List Char) (limit : Nat) :
    ∃ pre, IsCut limit cs pre ∧
      (encode cs).take (floorBoundary (encode cs) (min (encode cs).length limit)) =
        encode pre := by
  have hboundary := isCharBoundary_floorBoundary (encode cs) (min (encode cs).length limit)
  have hle := floorBoundary_le (encode cs) (min (encode cs).length limit)
  obtain ⟨pre, hpre, hlen⟩ := (isCharBoundary_encode_iff cs _).mp hboundary
  refine ⟨pre, ⟨hpre, by omega, ?_⟩, ?_⟩
  · intro p hp hfits
    apply length_le_of_encode_length_le hp hpre
    rw [hlen]
    apply le_floorBoundary ((isCharBoundary_encode_iff cs _).mpr ⟨p, hp, rfl⟩)
    obtain ⟨more, rfl⟩ := hp
    rw [encode_append, List.length_append]
    omega
  · obtain ⟨more, rfl⟩ := hpre
    rw [← hlen, encode_append, List.take_left]

/-- The second byte of a character of three or four bytes, after this first one. -/
def secondByteOk (first second : UInt8) : Bool :=
  let b := second.toNat
  match first.toNat with
  | 0xE0 => decide (0xA0 ≤ b ∧ b ≤ 0xBF)
  | 0xED => decide (0x80 ≤ b ∧ b ≤ 0x9F)
  | 0xF0 => decide (0x90 ≤ b ∧ b ≤ 0xBF)
  | 0xF4 => decide (0x80 ≤ b ∧ b ≤ 0x8F)
  | _ => isContinuation second

/-- How many bytes one replacement character stands for: those that began a character. -/
def invalidLength : List UInt8 → Nat
  | first :: second :: third :: _ =>
    if 0xE0 ≤ first.toNat ∧ first.toNat ≤ 0xEF ∧ secondByteOk first second then 2
    else if 0xF0 ≤ first.toNat ∧ first.toNat ≤ 0xF4 ∧ secondByteOk first second then
      if isContinuation third then 3 else 2
    else 1
  | first :: second :: _ =>
    if 0xE0 ≤ first.toNat ∧ first.toNat ≤ 0xF4 ∧ secondByteOk first second then 2 else 1
  | _ => 1

/-- `String::from_utf8_lossy`, reading at most `fuel` characters. -/
def decodeLossy : Nat → List UInt8 → List Char
  | 0, _ => []
  | _ + 1, [] => []
  | fuel + 1, b :: bs =>
    match (b :: bs).toByteArray.utf8DecodeChar? 0 with
    | some c => c :: decodeLossy fuel ((b :: bs).drop (String.utf8EncodeChar c).length)
    | none => '\uFFFD' :: decodeLossy fuel ((b :: bs).drop (invalidLength (b :: bs)))

def fromUtf8Lossy (bytes : List UInt8) : String :=
  String.ofList (decodeLossy bytes.length bytes)

theorem utf8DecodeChar?_encodeChar_append (c : Char) (rest : List UInt8) :
    (String.utf8EncodeChar c ++ rest).toByteArray.utf8DecodeChar? 0 = some c := by
  rw [List.toByteArray_append]
  exact ByteArray.utf8DecodeChar?_utf8EncodeChar_append

theorem decodeLossy_encode {cs : List Char} {fuel : Nat} (hfuel : (encode cs).length ≤ fuel) :
    decodeLossy fuel (encode cs) = cs := by
  induction cs generalizing fuel with
  | nil => cases fuel <;> rfl
  | cons c cs ih =>
    obtain ⟨b, tail, hchar, -⟩ := utf8EncodeChar_eq_cons c
    have hdecode := utf8DecodeChar?_encodeChar_append c (encode cs)
    have hpos := utf8EncodeChar_length_pos c
    rw [encode_cons, List.length_append] at hfuel
    obtain ⟨fuel, rfl⟩ := Nat.exists_eq_succ_of_ne_zero (by omega : fuel ≠ 0)
    have hrest : (encode (c :: cs)).drop (String.utf8EncodeChar c).length = encode cs := by
      rw [encode_cons, List.drop_left]
    have hbytes : encode (c :: cs) = b :: (tail ++ encode cs) := by
      rw [encode_cons, hchar, List.cons_append]
    rw [← encode_cons, hbytes] at hdecode
    rw [hbytes] at hrest
    rw [hbytes, decodeLossy, hdecode]
    simp only
    rw [hrest, ih (by omega)]

/-- Reading a text's own bytes gives the text back. -/
theorem fromUtf8Lossy_encode (cs : List Char) : fromUtf8Lossy (encode cs) = String.ofList cs := by
  rw [fromUtf8Lossy, decodeLossy_encode (Nat.le_refl _)]

example : fromUtf8Lossy [0x61, 0xFF] = "a\uFFFD" := by decide

/-- `String::from_utf8`: the text that loses none of the bytes. -/
def fromUtf8 (bytes : List UInt8) : Option String :=
  if encode (fromUtf8Lossy bytes).toList = bytes then some (fromUtf8Lossy bytes) else none

@[simp] theorem fromUtf8_encode (s : String) : fromUtf8 (encode s.toList) = some s := by
  rw [fromUtf8, fromUtf8Lossy_encode, String.ofList_toList, if_pos rfl]

theorem encode_of_fromUtf8 {bytes : List UInt8} {s : String} (h : fromUtf8 bytes = some s) :
    encode s.toList = bytes := by
  rw [fromUtf8] at h
  split at h
  · cases h
    assumption
  · cases h

end Teiryo.Utf8
