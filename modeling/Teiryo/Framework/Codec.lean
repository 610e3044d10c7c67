import Teiryo.Framework.Bincode

/-!
# Formats of values

A format writes a value as bytes and reads one off the front of a stream. A format carries its
laws: what is written is read back whatever follows, and what is read is a value the format can
write. Formats of parts make formats of the whole, so a message's format obeys the laws by
construction.
-/

namespace Teiryo

structure Codec (α : Type) where
  encode : α → List UInt8
  /-- The value at the front of a stream, and the rest of the stream. -/
  decode : List UInt8 → Option (α × List UInt8)
  /-- The values the format is for. -/
  Fits : α → Prop
  decode_encode : ∀ a, Fits a → ∀ rest, decode (encode a ++ rest) = some (a, rest)
  fits_of_decode : ∀ bytes a rest, decode bytes = some (a, rest) → Fits a

namespace Codec

variable {α β : Type}

/-- The values of a list, one behind the other. -/
def decodeAll (c : Codec α) : Nat → List UInt8 → Option (List α × List UInt8)
  | 0, bytes => some ([], bytes)
  | n + 1, bytes =>
    (c.decode bytes).bind fun head =>
      (c.decodeAll n head.2).map fun tail => (head.1 :: tail.1, tail.2)

theorem decodeAll_encode (c : Codec α) {as : List α} (h : ∀ a ∈ as, c.Fits a)
    (rest : List UInt8) :
    c.decodeAll as.length (as.flatMap c.encode ++ rest) = some (as, rest) := by
  induction as with
  | nil => rfl
  | cons a as ih =>
    have htail := ih fun b hb => h b (List.mem_cons_of_mem a hb)
    have hhead := c.decode_encode a (h a List.mem_cons_self) (as.flatMap c.encode ++ rest)
    rw [List.length_cons, decodeAll, List.flatMap_cons, List.append_assoc, hhead]
    simp only [Option.bind_some]
    rw [htail]
    rfl

theorem decodeAll_spec (c : Codec α) {n : Nat} {bytes rest : List UInt8} {as : List α}
    (h : c.decodeAll n bytes = some (as, rest)) : as.length = n ∧ ∀ a ∈ as, c.Fits a := by
  induction n generalizing bytes as with
  | zero =>
    cases h
    exact ⟨rfl, by simp⟩
  | succ n ih =>
    rw [decodeAll] at h
    obtain ⟨head, hhead, h⟩ := Option.bind_eq_some_iff.mp h
    obtain ⟨⟨tail, left⟩, htail, heq⟩ := Option.map_eq_some_iff.mp h
    cases heq
    obtain ⟨hlength, hfits⟩ := ih htail
    refine ⟨by rw [List.length_cons, hlength], ?_⟩
    intro a ha
    rcases List.mem_cons.mp ha with rfl | ha
    · exact c.fits_of_decode _ _ _ hhead
    · exact hfits a ha

/-- A format for a type that some of the values of another stand for. -/
def partialMap (c : Codec α) (read : α → Option β) (write : β → α) (Fits : β → Prop)
    (hwrite : ∀ b, Fits b → c.Fits (write b) ∧ read (write b) = some b)
    (hread : ∀ a b, c.Fits a → read a = some b → Fits b) : Codec β where
  encode b := c.encode (write b)
  decode bytes := (c.decode bytes).bind fun found => (read found.1).map fun b => (b, found.2)
  Fits := Fits
  decode_encode b hb rest := by
    rw [c.decode_encode _ (hwrite b hb).1, Option.bind_some, (hwrite b hb).2]
    rfl
  fits_of_decode bytes b rest h := by
    obtain ⟨found, hfound, hmap⟩ := Option.bind_eq_some_iff.mp h
    obtain ⟨b', hb', heq⟩ := Option.map_eq_some_iff.mp hmap
    cases heq
    exact hread found.1 b (c.fits_of_decode _ _ _ hfound) hb'

/-- A format for a type whose values stand for those of another, one for one. -/
def iso (c : Codec α) (read : α → β) (write : β → α)
    (hread : ∀ b, read (write b) = b := by intro _; rfl)
    (hwrite : ∀ a, write (read a) = a := by intro _; rfl) : Codec β where
  encode b := c.encode (write b)
  decode bytes := (c.decode bytes).map fun found => (read found.1, found.2)
  Fits b := c.Fits (write b)
  decode_encode b hb rest := by
    rw [c.decode_encode _ hb, Option.map_some, hread]
  fits_of_decode bytes b rest h := by
    obtain ⟨found, hfound, heq⟩ := Option.map_eq_some_iff.mp h
    cases heq
    rw [hwrite]
    exact c.fits_of_decode _ _ _ hfound

/-- One value behind the other. -/
def pair (c : Codec α) (d : Codec β) : Codec (α × β) where
  encode v := c.encode v.1 ++ d.encode v.2
  decode bytes :=
    (c.decode bytes).bind fun first =>
      (d.decode first.2).map fun second => ((first.1, second.1), second.2)
  Fits v := c.Fits v.1 ∧ d.Fits v.2
  decode_encode v hv rest := by
    rw [List.append_assoc, c.decode_encode _ hv.1, Option.bind_some, d.decode_encode _ hv.2]
    rfl
  fits_of_decode bytes v rest h := by
    obtain ⟨first, hfirst, hmap⟩ := Option.bind_eq_some_iff.mp h
    obtain ⟨second, hsecond, heq⟩ := Option.map_eq_some_iff.mp hmap
    cases heq
    exact ⟨c.fits_of_decode _ _ _ hfirst, d.fits_of_decode _ _ _ hsecond⟩

@[simp] theorem encode_partialMap (c : Codec α) (read : α → Option β) (write : β → α)
    (Fits : β → Prop) (hwrite hread) (b : β) :
    (c.partialMap read write Fits hwrite hread).encode b = c.encode (write b) := rfl

@[simp] theorem encode_iso (c : Codec α) (read : α → β) (write : β → α) (hread hwrite) (b : β) :
    (c.iso read write hread hwrite).encode b = c.encode (write b) := rfl

@[simp] theorem encode_pair (c : Codec α) (d : Codec β) (v : α × β) :
    (c.pair d).encode v = c.encode v.1 ++ d.encode v.2 := rfl

/-- Nothing at all. -/
def unit : Codec Unit where
  encode _ := []
  decode bytes := some ((), bytes)
  Fits _ := True
  decode_encode _ _ _ := rfl
  fits_of_decode _ _ _ _ := trivial

/-- As many bytes as a length in front of them says. -/
def counted (count : Codec Nat) : Codec (List UInt8) where
  encode bytes := count.encode bytes.length ++ bytes
  decode bytes :=
    (count.decode bytes).bind fun found =>
      if found.1 ≤ found.2.length then some (found.2.take found.1, found.2.drop found.1) else none
  Fits bytes := count.Fits bytes.length
  decode_encode bytes h rest := by
    rw [List.append_assoc, count.decode_encode _ h, Option.bind_some,
      if_pos (by simp), List.take_left, List.drop_left]
  fits_of_decode bytes read rest h := by
    obtain ⟨found, hfound, h⟩ := Option.bind_eq_some_iff.mp h
    split at h
    · rename_i hle
      cases h
      rw [List.length_take, Nat.min_eq_left hle]
      exact count.fits_of_decode _ _ _ hfound
    · cases h

/-- As many values as a length in front of them says. -/
def seq (count : Codec Nat) (c : Codec α) : Codec (List α) where
  encode as := count.encode as.length ++ as.flatMap c.encode
  decode bytes := (count.decode bytes).bind fun found => c.decodeAll found.1 found.2
  Fits as := count.Fits as.length ∧ ∀ a ∈ as, c.Fits a
  decode_encode as h rest := by
    rw [List.append_assoc, count.decode_encode _ h.1, Option.bind_some,
      c.decodeAll_encode h.2]
  fits_of_decode bytes as rest h := by
    obtain ⟨found, hfound, h⟩ := Option.bind_eq_some_iff.mp h
    obtain ⟨hlength, hfits⟩ := c.decodeAll_spec h
    exact ⟨hlength ▸ count.fits_of_decode _ _ _ hfound, hfits⟩

/-- One variant of a type, and the format of what its values carry. -/
structure Arm (β : Type) where
  Carried : Type
  codec : Codec Carried
  build : Carried → β
  carried : β → Option Carried
  carried_build : ∀ a, carried (build a) = some a
  build_of_carried : ∀ b a, carried b = some a → build a = b

def Arm.of (codec : Codec α) (build : α → β) (carried : β → Option α)
    (hbuild : ∀ a, carried (build a) = some a := by intro _; rfl)
    (hcarried : ∀ b a, carried b = some a → build a = b := by
      intro b a h
      cases b <;> cases h <;> rfl) : Arm β :=
  ⟨α, codec, build, carried, hbuild, hcarried⟩

/-- Each variant of a list has its place in the list as its index, counted from a number on. -/
def Indexed (index : β → Nat) : Nat → List (Arm β) → Prop
  | _, [] => True
  | n, arm :: arms => (∀ a, index (arm.build a) = n) ∧ Indexed index (n + 1) arms

theorem index_of_indexed {index : β → Nat} {n i : Nat} {arms : List (Arm β)} {arm : Arm β}
    (h : Indexed index n arms) (harm : arms[i]? = some arm) (a : arm.Carried) :
    index (arm.build a) = n + i := by
  induction arms generalizing n i with
  | nil => cases harm
  | cons first arms ih =>
    cases i with
    | zero =>
      cases harm
      exact h.1 a
    | succ i =>
      have hrest := ih h.2 harm
      omega

/-- The index of the variant, then what the value carries. -/
def variants (tag : Codec Nat) (index : β → Nat) (arms : List (Arm β))
    (h : Indexed index 0 arms := by
      repeat' first | exact trivial | (intro _; rfl) | apply And.intro) : Codec β where
  encode b :=
    tag.encode (index b) ++
      ((arms[index b]?).bind fun arm => (arm.carried b).map arm.codec.encode).getD []
  decode bytes :=
    (tag.decode bytes).bind fun found =>
      (arms[found.1]?).bind fun arm =>
        (arm.codec.decode found.2).map fun carried => (arm.build carried.1, carried.2)
  Fits b := tag.Fits (index b) ∧
    ∃ arm, arms[index b]? = some arm ∧ ∃ a, arm.carried b = some a ∧ arm.codec.Fits a
  decode_encode b hb rest := by
    obtain ⟨htag, arm, harm, a, ha, hfits⟩ := hb
    rw [List.append_assoc, tag.decode_encode _ htag, Option.bind_some, harm, Option.bind_some,
      Option.bind_some, ha, Option.map_some, Option.getD_some,
      arm.codec.decode_encode _ hfits, Option.map_some, arm.build_of_carried b a ha]
  fits_of_decode bytes b rest hread := by
    obtain ⟨found, hfound, hread⟩ := Option.bind_eq_some_iff.mp hread
    obtain ⟨arm, harm, hread⟩ := Option.bind_eq_some_iff.mp hread
    obtain ⟨⟨a, left⟩, ha, heq⟩ := Option.map_eq_some_iff.mp hread
    cases heq
    have hindex := index_of_indexed h harm a
    rw [Nat.zero_add] at hindex
    rw [hindex]
    exact ⟨tag.fits_of_decode _ _ _ hfound, arm, harm, a, arm.carried_build a,
      arm.codec.fits_of_decode _ _ _ ha⟩

/-- Values that carry nothing, in the order of their indices. -/
def listed (tag : Codec Nat) (values : List β) (index : β → Nat)
    (h : ∀ b, tag.Fits (index b) ∧ values[index b]? = some b) : Codec β :=
  tag.partialMap (fun n => values[n]?) index (fun _ => True) (fun b _ => h b)
    fun _ _ _ _ => trivial

/-- A tag that says whether there is a value, and then the value. -/
def option (tag : Codec Nat) (c : Codec α) (h : tag.Fits 0 ∧ tag.Fits 1) : Codec (Option α) where
  encode
    | none => tag.encode 0
    | some a => tag.encode 1 ++ c.encode a
  decode bytes :=
    (tag.decode bytes).bind fun found =>
      if found.1 = 0 then some (none, found.2)
      else if found.1 = 1 then (c.decode found.2).map fun a => (some a.1, a.2)
      else none
  Fits a := ∀ b, a = some b → c.Fits b
  decode_encode a ha rest := by
    cases a with
    | none =>
      dsimp only
      rw [tag.decode_encode _ h.1, Option.bind_some, if_pos rfl]
    | some a =>
      dsimp only
      rw [List.append_assoc, tag.decode_encode _ h.2, Option.bind_some,
        if_neg (by simp), if_pos rfl, c.decode_encode _ (ha a rfl), Option.map_some]
  fits_of_decode bytes a rest hread := by
    obtain ⟨found, -, hread⟩ := Option.bind_eq_some_iff.mp hread
    intro b hb
    subst hb
    split at hread
    · cases hread
    · split at hread
      · obtain ⟨⟨a, left⟩, ha, heq⟩ := Option.map_eq_some_iff.mp hread
        cases heq
        exact c.fits_of_decode _ _ _ ha
      · cases hread

end Codec
end Teiryo
