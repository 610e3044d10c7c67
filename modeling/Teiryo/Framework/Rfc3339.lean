import Mathlib.Algebra.Order.Ring.Nat
import Mathlib.Data.Int.Notation
import Mathlib.Tactic.Common

/-!
# RFC 3339 texts

An instant, in nanoseconds since the Unix epoch, as the text chrono writes for it: the UTC date
and time, with as many digits of a second as it needs.
-/

namespace Teiryo.Rfc3339

/-- Decimal digits, filled up with zeros on the left. -/
def pad (width n : Nat) : List Char := (Nat.toDigits 10 n).leftpad width '0'

/-- Year, month and day of a day count from 1970-01-01, in the proleptic Gregorian calendar.
Years begin in March, so that a leap day ends its year. -/
def civil (days : Int) : Int × Nat × Nat :=
  let z := days + 719468
  let era := z / 146097
  let dayOfEra := (z % 146097).toNat
  let yearOfEra := (dayOfEra - dayOfEra / 1460 + dayOfEra / 36524 - dayOfEra / 146096) / 365
  let dayOfYear := dayOfEra - (365 * yearOfEra + yearOfEra / 4 - yearOfEra / 100)
  let month := (5 * dayOfYear + 2) / 153
  let day := dayOfYear - (153 * month + 2) / 5 + 1
  if month < 10 then (yearOfEra + era * 400, month + 3, day)
  else (yearOfEra + era * 400 + 1, month - 9, day)

/-- Four digits, and a sign outside the years 0 to 9999. -/
def year (y : Int) : List Char :=
  if 0 ≤ y ∧ y ≤ 9999 then pad 4 y.toNat
  else (if y < 0 then '-' else '+') :: pad 4 y.natAbs

/-- The fraction of a second, to the first of milli-, micro- and nanoseconds that is exact. -/
def fraction (nanos : Nat) : List Char :=
  if nanos = 0 then []
  else if nanos % 1000000 = 0 then '.' :: pad 3 (nanos / 1000000)
  else if nanos % 1000 = 0 then '.' :: pad 6 (nanos / 1000)
  else '.' :: pad 9 nanos

def format (instant : Int) : String :=
  let secs := instant / 1000000000
  let (y, month, day) := civil (secs / 86400)
  let second := (secs % 86400).toNat
  String.ofList (year y ++ '-' :: pad 2 month ++ '-' :: pad 2 day ++ 'T' :: pad 2 (second / 3600) ++
    ':' :: pad 2 (second / 60 % 60) ++ ':' :: pad 2 (second % 60) ++
    fraction (instant % 1000000000).toNat ++ ['Z'])

theorem le_length_pad (width n : Nat) : width ≤ (pad width n).length := by
  rw [pad, List.length_leftpad]
  exact Nat.le_max_left _ _

theorem four_le_length_year (y : Int) : 4 ≤ (year y).length := by
  unfold year
  split
  · exact le_length_pad 4 _
  · have := le_length_pad 4 y.natAbs
    rw [List.length_cons]
    omega

/-- No instant takes fewer characters than `1970-01-01T00:00:00Z`. -/
theorem twenty_le_length_format (instant : Int) : 20 ≤ (format instant).toList.length := by
  rcases hcivil : civil (instant / 1000000000 / 86400) with ⟨y, month, day⟩
  have hy := four_le_length_year y
  have hmonth := le_length_pad 2 month
  have hday := le_length_pad 2 day
  have hhour := le_length_pad 2 ((instant / 1000000000 % 86400).toNat / 3600)
  have hminute := le_length_pad 2 ((instant / 1000000000 % 86400).toNat / 60 % 60)
  have hsecond := le_length_pad 2 ((instant / 1000000000 % 86400).toNat % 60)
  simp only [format, hcivil, String.toList_ofList, List.length_append, List.length_cons,
    List.length_nil]
  omega

example : format 1787313600123000000 = "2026-08-21T12:00:00.123Z" := by decide

/-- The day count of a date. -/
def days (year : Int) (month day : Nat) : Int :=
  let monthOfYear := if month < 3 then month + 9 else month - 3
  let yearFromMarch := if month < 3 then year - 1 else year
  let yearOfEra := (yearFromMarch % 400).toNat
  let dayOfYear := (153 * monthOfYear + 2) / 5 + day - 1
  let dayOfEra := 365 * yearOfEra + yearOfEra / 4 - yearOfEra / 100 + dayOfYear
  yearFromMarch / 400 * 146097 + dayOfEra - 719468

/-- The year of an era that `civil` finds has begun and not ended. -/
theorem yearOfEra_spec {dayOfEra yearOfEra : Nat} (hday : dayOfEra < 146097)
    (hyear : (dayOfEra - dayOfEra / 1460 + dayOfEra / 36524 - dayOfEra / 146096) / 365 =
      yearOfEra) :
    yearOfEra < 400 ∧ 365 * yearOfEra + yearOfEra / 4 - yearOfEra / 100 ≤ dayOfEra ∧
      dayOfEra ≤ 365 * yearOfEra + yearOfEra / 4 - yearOfEra / 100 + 365 := by
  have hcentury : dayOfEra / 36524 = 0 ∨ dayOfEra / 36524 = 1 ∨ dayOfEra / 36524 = 2 ∨
      dayOfEra / 36524 = 3 ∨ dayOfEra = 146096 := by omega
  rcases hcentury with h | h | h | h | h
  · have : yearOfEra / 100 = 0 := by omega
    omega
  · have : yearOfEra / 100 = 1 := by omega
    omega
  · have : yearOfEra / 100 = 2 := by omega
    omega
  · have : yearOfEra / 100 = 3 := by omega
    omega
  · omega

theorem days_civil {d year : Int} {month day : Nat} (h : civil d = (year, month, day)) :
    days year month day = d := by
  unfold civil at h
  dsimp only at h
  generalize hdoe : ((d + 719468) % 146097).toNat = dayOfEra at h
  generalize hyear :
    (dayOfEra - dayOfEra / 1460 + dayOfEra / 36524 - dayOfEra / 146096) / 365 = yearOfEra at h
  obtain ⟨hlt, hle, hend⟩ := yearOfEra_spec (by omega) hyear
  generalize hdoy :
    dayOfEra - (365 * yearOfEra + yearOfEra / 4 - yearOfEra / 100) = dayOfYear at h
  generalize hmonth : (5 * dayOfYear + 2) / 153 = monthOfYear at h
  have hfirst : (153 * monthOfYear + 2) / 5 ≤ dayOfYear := by omega
  have hyears : ((yearOfEra : Int) + (d + 719468) / 146097 * 400) % 400 = yearOfEra ∧
      ((yearOfEra : Int) + (d + 719468) / 146097 * 400) / 400 = (d + 719468) / 146097 := by
    omega
  unfold days
  dsimp only
  split at h
  · obtain ⟨rfl, rfl, rfl⟩ : _ ∧ _ ∧ _ := by simpa only [Prod.mk.injEq] using h
    have hmarch : ¬ monthOfYear + 3 < 3 := by omega
    rw [if_neg hmarch, if_neg hmarch, hyears.1, hyears.2, Int.toNat_natCast]
    omega
  · obtain ⟨rfl, rfl, rfl⟩ : _ ∧ _ ∧ _ := by simpa only [Prod.mk.injEq] using h
    have hmarch : monthOfYear - 9 < 3 := by omega
    rw [if_pos hmarch, if_pos hmarch, Int.add_sub_cancel, hyears.1, hyears.2, Int.toNat_natCast]
    omega

/-- The number that the leading digits spell, and what follows them. -/
def number (cs : List Char) : Nat × List Char :=
  (Nat.ofDigitChars 10 (cs.takeWhile Char.isDigit) 0, cs.dropWhile Char.isDigit)

/-- Nothing here would be taken for one more digit. -/
def Ends (cs : List Char) : Prop := ∀ c ∈ cs.head?, c.isDigit = false

theorem ends_cons {c : Char} (h : c.isDigit = false) (cs : List Char) : Ends (c :: cs) := by
  intro c' hc'
  cases hc'
  exact h

theorem isDigit_of_mem_pad {width n : Nat} {c : Char} (h : c ∈ pad width n) :
    c.isDigit = true := by
  rw [pad, List.leftpad, List.mem_append] at h
  rcases h with h | h
  · rw [List.eq_of_mem_replicate h]
    rfl
  · exact Nat.isDigit_of_mem_toDigits (by decide) (by decide) h

theorem takeWhile_pad (width n : Nat) {rest : List Char} (h : Ends rest) :
    (pad width n ++ rest).takeWhile Char.isDigit = pad width n ∧
      (pad width n ++ rest).dropWhile Char.isDigit = rest := by
  have hdigits : ∀ c ∈ pad width n, c.isDigit = true := fun c hc => isDigit_of_mem_pad hc
  rw [List.takeWhile_append_of_pos hdigits, List.dropWhile_append_of_pos hdigits]
  cases rest with
  | nil => simp
  | cons c cs =>
    have hc := h c rfl
    simp [hc]

theorem ofDigitChars_pad (width n : Nat) : Nat.ofDigitChars 10 (pad width n) 0 = n := by
  rw [pad, List.leftpad, Nat.ofDigitChars_append, Nat.ofDigitChars_replicate_zero, Nat.mul_zero,
    Nat.ofDigitChars_ten_toDigits]

@[simp] theorem number_pad (width n : Nat) {rest : List Char} (h : Ends rest) :
    number (pad width n ++ rest) = (n, rest) := by
  rw [number, (takeWhile_pad width n h).1, (takeWhile_pad width n h).2, ofDigitChars_pad]

/-- A number behind a separator. -/
def field (separator : Char) : List Char → Option (Nat × List Char)
  | [] => none
  | c :: cs => if c = separator then some (number cs) else none

theorem field_pad (separator : Char) (width n : Nat) {rest : List Char} (h : Ends rest) :
    field separator (separator :: (pad width n ++ rest)) = some (n, rest) := by
  rw [field, if_pos rfl, number_pad width n h]

def readYear (cs : List Char) : Int × List Char :=
  let signed := cs.head? = some '-' ∨ cs.head? = some '+'
  let found := number (if signed then cs.tail else cs)
  (if cs.head? = some '-' then -(found.1 : Int) else found.1, found.2)

theorem readYear_year (y : Int) {rest : List Char} (h : Ends rest) :
    readYear (year y ++ rest) = (y, rest) := by
  by_cases hyear : 0 ≤ y ∧ y ≤ 9999
  · have hdigit : ∀ c ∈ (pad 4 y.toNat ++ rest).head?, c.isDigit = true := by
      intro c hc
      have hlength := le_length_pad 4 y.toNat
      cases hpad : pad 4 y.toNat with
      | nil =>
        rw [hpad] at hlength
        exact absurd hlength (by decide)
      | cons c' cs =>
        rw [hpad] at hc
        cases hc
        exact isDigit_of_mem_pad (hpad ▸ List.mem_cons_self)
    have hminus : (pad 4 y.toNat ++ rest).head? ≠ some '-' := fun hc =>
      absurd (hdigit _ hc) (by decide)
    have hplus : (pad 4 y.toNat ++ rest).head? ≠ some '+' := fun hc =>
      absurd (hdigit _ hc) (by decide)
    rw [year, if_pos hyear]
    simp only [readYear, hminus, hplus, or_self, if_false, number_pad 4 y.toNat h]
    rw [Int.toNat_of_nonneg hyear.1]
  · rw [year, if_neg hyear, List.cons_append]
    by_cases hy : y < 0
    · rw [if_pos hy]
      simp only [readYear, List.head?_cons, true_or, if_true, List.tail_cons,
        number_pad 4 y.natAbs h]
      congr 1
      omega
    · have hplus : some '+' ≠ some '-' := by decide
      rw [if_neg hy]
      simp only [readYear, List.head?_cons, hplus, or_true, if_true, if_false, List.tail_cons,
        number_pad 4 y.natAbs h]
      congr 1
      omega

/-- The nanoseconds of a fraction of at most nine digits. -/
def readFraction (cs : List Char) : Nat × List Char :=
  if cs.head? = some '.' then
    let digits := cs.tail.takeWhile Char.isDigit
    (Nat.ofDigitChars 10 digits 0 * 10 ^ (9 - digits.length), cs.tail.dropWhile Char.isDigit)
  else (0, cs)

theorem length_pad {width n : Nat} (hwidth : 0 < width) (h : n < 10 ^ width) :
    (pad width n).length = width := by
  rw [pad, List.length_leftpad]
  exact Nat.max_eq_left ((Nat.length_toDigits_le_iff (by decide) hwidth).mpr h)

theorem readFraction_pad {width n : Nat} (hwidth : 0 < width) (h : n < 10 ^ width)
    {rest : List Char} (hrest : Ends rest) :
    readFraction ('.' :: pad width n ++ rest) = (n * 10 ^ (9 - width), rest) := by
  obtain ⟨htake, hdrop⟩ := takeWhile_pad width n hrest
  simp only [List.cons_append, readFraction, List.head?_cons, if_true, List.tail_cons, htake,
    hdrop, ofDigitChars_pad, length_pad hwidth h]

theorem readFraction_fraction {nanos : Nat} (h : nanos < 1000000000) :
    readFraction (fraction nanos ++ ['Z']) = (nanos, ['Z']) := by
  have hZ : Ends ['Z'] := ends_cons (by decide) []
  unfold fraction
  split
  · rename_i hzero
    rw [hzero]
    rfl
  split
  · rw [readFraction_pad (by decide) (by omega) hZ]
    congr 1
    omega
  split
  · rw [readFraction_pad (by decide) (by omega) hZ]
    congr 1
    omega
  · rw [readFraction_pad (by decide) (by omega) hZ]
    congr 1
    omega

/-- The instant of a text that `format` could have written. -/
def parse (text : String) : Option Int := do
  let (year, cs) := readYear text.toList
  let (month, cs) ← field '-' cs
  let (day, cs) ← field '-' cs
  let (hour, cs) ← field 'T' cs
  let (minute, cs) ← field ':' cs
  let (second, cs) ← field ':' cs
  let (nanos, cs) := readFraction cs
  if cs = ['Z'] then
    some ((days year month day * 86400 + (hour * 3600 + minute * 60 + second : Nat)) *
      1000000000 + nanos)
  else none

theorem parse_format (instant : Int) : parse (format instant) = some instant := by
  rcases hcivil : civil (instant / 1000000000 / 86400) with ⟨y, month, day⟩
  have hfraction := @readFraction_fraction (instant % 1000000000).toNat (by omega)
  have hminus : ∀ cs, Ends ('-' :: cs) := ends_cons (by decide)
  have hT : ∀ cs, Ends ('T' :: cs) := ends_cons (by decide)
  have hcolon : ∀ cs, Ends (':' :: cs) := ends_cons (by decide)
  have hlast : Ends (fraction (instant % 1000000000).toNat ++ ['Z']) := by
    unfold fraction
    repeat' split
    all_goals exact ends_cons (by decide) _
  unfold parse format
  simp only [hcivil, String.toList_ofList, List.append_assoc, List.cons_append,
    readYear_year y (hminus _), field_pad _ _ _ (hminus _), field_pad _ _ _ (hT _),
    field_pad _ _ _ (hcolon _), field_pad _ _ _ hlast, hfraction, Option.bind_eq_bind,
    Option.bind_some, if_true, days_civil hcivil]
  congr 1
  omega

/-- A text has at most this many characters where years have at most six digits. -/
theorem length_format_le {instant : Int} (h : -31000000000000000000000 ≤ instant)
    (h' : instant ≤ 31000000000000000000000) : (format instant).toList.length ≤ 33 := by
  rcases hcivil : civil (instant / 1000000000 / 86400) with ⟨y, month, day⟩
  have hdate : y.natAbs < 1000000 ∧ month < 100 ∧ day < 100 := by
    unfold civil at hcivil
    dsimp only at hcivil
    generalize hdoe : ((instant / 1000000000 / 86400 + 719468) % 146097).toNat = dayOfEra at hcivil
    generalize hyear :
      (dayOfEra - dayOfEra / 1460 + dayOfEra / 36524 - dayOfEra / 146096) / 365 = yearOfEra
        at hcivil
    obtain ⟨hyearLt, hle, hend⟩ := yearOfEra_spec (by omega) hyear
    generalize hdoy :
      dayOfEra - (365 * yearOfEra + yearOfEra / 4 - yearOfEra / 100) = dayOfYear at hcivil
    split at hcivil
    · obtain ⟨rfl, rfl, rfl⟩ : _ ∧ _ ∧ _ := by simpa only [Prod.mk.injEq] using hcivil
      omega
    · obtain ⟨rfl, rfl, rfl⟩ : _ ∧ _ ∧ _ := by simpa only [Prod.mk.injEq] using hcivil
      omega
  have hy : (year y).length ≤ 7 := by
    have hpad : (pad 4 y.natAbs).length ≤ 6 := by
      rw [pad, List.length_leftpad]
      exact Nat.max_le.mpr ⟨by decide,
        (Nat.length_toDigits_le_iff (by decide) (by decide)).mpr hdate.1⟩
    unfold year
    split
    · rw [show y.toNat = y.natAbs by omega]
      omega
    · rw [List.length_cons]
      omega
  have hfraction : (fraction (instant % 1000000000).toNat).length ≤ 10 := by
    have hlength : ∀ {width n : Nat}, 0 < width → width ≤ 9 → n < 10 ^ width →
        ('.' :: pad width n).length ≤ 10 := by
      intro width n hwidth hle h
      rw [List.length_cons, length_pad hwidth h]
      omega
    unfold fraction
    split
    · exact Nat.zero_le _
    split
    · exact hlength (by decide) (by decide) (by omega)
    split
    · exact hlength (by decide) (by decide) (by omega)
    · exact hlength (by decide) (by decide) (by omega)
  simp only [format, hcivil, String.toList_ofList, List.length_append, List.length_cons,
    List.length_nil]
  rw [length_pad (by decide) (by omega), length_pad (by decide) (by omega),
    length_pad (by decide) (by omega), length_pad (by decide) (by omega),
    length_pad (by decide) (by omega)]
  omega

end Teiryo.Rfc3339
