import Mathlib.Algebra.Order.Floor.Ring
import Mathlib.Algebra.Order.Ring.Abs
import Mathlib.Analysis.Real.Sqrt
import Mathlib.Data.Rat.Floor
import Mathlib.Tactic.Linarith
import Mathlib.Tactic.NormNum
import Mathlib.Tactic.Ring
import Teiryo.Core.Domain

/-!
# Arithmetic on readings

The further `f64` operations a client applies to readings, over any type that carries them. Any
ordered field with a floor carries them exactly, the reals and the rationals among them; what is
proved over such a field is about exact arithmetic in place of `f64`.
-/

namespace Teiryo

/-- `f64` with its sums, roundings and conversions. No law is assumed of them. -/
class F64Math (F : Type) extends F64 F, Add F where
  /-- `n as f64`. -/
  ofInt : Int → F
  /-- Half away from zero. -/
  round : F → F
  sqrt : F → F
  abs : F → F
  isFinite : F → Bool
  /-- `x as i64`: towards zero, and the nearest `i64` where there is none. -/
  toI64 : F → Int
  /-- `i64::MAX as f64`, which is no `f64` itself. -/
  i64MaxAsF64 : F

instance : F64Math Float where
  ofInt := Float.ofInt
  round := Float.round
  sqrt := Float.sqrt
  abs := Float.abs
  isFinite := Float.isFinite
  toI64 x := x.toInt64.toInt
  i64MaxAsF64 := 9223372036854775808

/-- `i64::MAX`. -/
def i64Max : Int := 2 ^ 63 - 1

/-- What `i64::MAX` is rounded to as an `f64`. -/
def i64Guard : Int := 2 ^ 63

/-- `f64::max`, the other one of a NaN. -/
def F64.max {F : Type} [F64 F] (x y : F) : F :=
  if F64.isNaN x then y else if x < y then y else x

/-- The square root of exact arithmetic. Nothing proved here depends on which function it is. -/
class SquareRoot (K : Type) where
  sqrt : K → K

noncomputable instance : SquareRoot ℝ := ⟨Real.sqrt⟩

/-- The root of `n / d` to within `1 / d`. -/
instance : SquareRoot ℚ where
  sqrt x := Nat.sqrt (x.num.toNat * x.den) / x.den

section Exact

namespace F64

theorem zero_eq {K : Type} [Field K] [LinearOrder K] [FloorRing K] : (0.0 : K) = 0 := by
  norm_num

theorem one_eq {K : Type} [Field K] [LinearOrder K] [FloorRing K] : (1.0 : K) = 1 := by
  norm_num

end F64

variable {K : Type} [Field K] [LinearOrder K] [FloorRing K] [SquareRoot K]

instance (priority := low) : F64Math K where
  decLe _ _ := inferInstance
  decLt _ _ := inferInstance
  ofInt n := n
  round x := if 0 ≤ x then (⌊x + 1 / 2⌋ : K) else (⌈x - 1 / 2⌉ : K)
  sqrt := SquareRoot.sqrt
  abs x := |x|
  isFinite _ := true
  toI64 x := max (-2 ^ 63) (min i64Max (if 0 ≤ x then ⌊x⌋ else ⌈x⌉))
  i64MaxAsF64 := i64Guard

namespace F64Math

@[simp] theorem ofInt_eq (n : Int) : (ofInt n : K) = n := rfl

@[simp] theorem abs_eq (x : K) : F64Math.abs x = |x| := rfl

@[simp] theorem i64MaxAsF64_eq : (i64MaxAsF64 : K) = i64Guard := rfl

@[simp] theorem isFinite_eq (x : K) : isFinite x = true := rfl

theorem round_of_nonneg {x : K} (h : 0 ≤ x) : round x = (⌊x + 1 / 2⌋ : K) := if_pos h

end F64Math

namespace F64

@[simp] theorem isNaN_eq (x : K) : isNaN x = false := by
  unfold isNaN
  rw [decide_eq_true le_rfl]
  rfl

@[simp] theorem max_eq (x y : K) : F64.max x y = Max.max x y := by
  unfold F64.max
  rw [isNaN_eq, if_neg Bool.false_ne_true]
  split
  · rename_i h
    exact (max_eq_right h.le).symm
  · rename_i h
    exact (max_eq_left (not_lt.mp h)).symm

/-- A reading inside the bounds is not clamped. -/
theorem clamp_of_mem {x lo hi : K} (hlo : lo ≤ x) (hhi : x ≤ hi) : clamp x lo hi = x := by
  unfold clamp
  rw [if_neg (not_lt.mpr hlo), if_neg (not_lt.mpr hhi)]

end F64

variable [IsStrictOrderedRing K]

namespace F64Math

@[simp] theorem round_intCast (n : Int) : round (n : K) = n := by
  show (if (0 : K) ≤ n then (⌊(n : K) + 1 / 2⌋ : K) else (⌈(n : K) - 1 / 2⌉ : K)) = n
  have hup : ⌊(n : K) + 1 / 2⌋ = n := by
    rw [Int.floor_intCast_add, add_eq_left, Int.floor_eq_zero_iff]
    constructor <;> norm_num
  have hdown : ⌈(n : K) - 1 / 2⌉ = n := by
    rw [Int.ceil_eq_iff]
    constructor <;> linarith
  rw [hup, hdown, ite_self]

/-- Only the top end of an `i64` cuts off what is not negative. -/
theorem toI64_intCast {n : Int} (hnonneg : 0 ≤ n) : toI64 (n : K) = min i64Max n := by
  have hmax : (0 : Int) ≤ i64Max := by decide
  show max (-2 ^ 63) (min i64Max (if (0 : K) ≤ n then ⌊(n : K)⌋ else ⌈(n : K)⌉)) = min i64Max n
  rw [Int.floor_intCast, Int.ceil_intCast, ite_self]
  exact max_eq_right (by omega)

end F64Math
end Exact
end Teiryo
