import Mathlib.Algebra.Order.Ring.Abs
import Mathlib.Tactic.Linarith

/-!
# Lib.CInt

C integer conversions on Lean's fixed-width types. A `uint32_t` operand of a 64-bit expression is
converted to `int64_t` (`u32ToI64`); sums, products and quotients that stay inside 64 bits have
the value of the same operation on `Int`.
-/

namespace CInt

/-- The value of an `int64_t` operand converted from `uint32_t`. -/
def u32ToI64 (x : UInt32) : Int64 := x.toUInt64.toInt64

/-- `x` fits `int64_t`. -/
def FitsI64 (x : Int) : Prop := -2 ^ 63 ≤ x ∧ x < 2 ^ 63

/-- `x` fits `int32_t`. -/
def FitsI32 (x : Int) : Prop := -2 ^ 31 ≤ x ∧ x < 2 ^ 31

theorem bmod_of_fitsI64 {x : Int} (h : FitsI64 x) : x.bmod (2 ^ 64) = x :=
  Int.bmod_eq_of_le (by have := h.1; omega) (by have := h.2; omega)

theorem bmod_of_fitsI32 {x : Int} (h : FitsI32 x) : x.bmod (2 ^ 32) = x :=
  Int.bmod_eq_of_le (by have := h.1; omega) (by have := h.2; omega)

theorem toInt_toInt64 {x : UInt64} (h : x.toNat < 2 ^ 63) : x.toInt64.toInt = x.toNat := by
  show x.toBitVec.toInt = x.toNat
  rw [BitVec.toInt_eq_toNat_bmod, UInt64.toNat_toBitVec]
  exact bmod_of_fitsI64 ⟨by omega, by omega⟩

@[simp] theorem toInt_u32ToI64 (x : UInt32) : (u32ToI64 x).toInt = x.toNat := by
  have hlt : x.toNat < 2 ^ 32 := x.toNat_lt
  rw [u32ToI64, toInt_toInt64 (by simp; omega), UInt32.toNat_toUInt64]

theorem toInt_add {a b : Int64} (h : FitsI64 (a.toInt + b.toInt)) :
    (a + b).toInt = a.toInt + b.toInt := by
  rw [Int64.toInt_add, bmod_of_fitsI64 h]

theorem toInt_sub {a b : Int64} (h : FitsI64 (a.toInt - b.toInt)) :
    (a - b).toInt = a.toInt - b.toInt := by
  rw [Int64.toInt_sub, bmod_of_fitsI64 h]

theorem toInt_mul {a b : Int64} (h : FitsI64 (a.toInt * b.toInt)) :
    (a * b).toInt = a.toInt * b.toInt := by
  rw [Int64.toInt_mul, bmod_of_fitsI64 h]

theorem toInt_neg {a : Int64} (h : FitsI64 (-a.toInt)) : (-a).toInt = -a.toInt := by
  rw [Int64.toInt_neg, bmod_of_fitsI64 h]

theorem toInt_toInt32 {a : Int64} (h : FitsI32 a.toInt) : a.toInt32.toInt = a.toInt := by
  rw [Int64.toInt_toInt32, bmod_of_fitsI32 h]

/-- Narrowing to `int16_t` keeps exactly the values that fit. -/
theorem toInt_toInt16_eq_iff {a : Int32} :
    a.toInt16.toInt = a.toInt ↔ -2 ^ 15 ≤ a.toInt ∧ a.toInt < 2 ^ 15 := by
  constructor
  · intro h
    have hlo := a.toInt16.le_toInt
    have hhi := a.toInt16.toInt_lt
    rw [h] at hlo hhi
    exact ⟨hlo, hhi⟩
  · rintro ⟨hlo, hhi⟩
    rw [Int32.toInt_toInt16]
    exact Int.bmod_eq_of_le (by omega) (by omega)

/-- C division by a positive constant truncates toward zero and never overflows. -/
theorem toInt_div {a b : Int64} (hb : b ≠ -1) : (a / b).toInt = a.toInt.tdiv b.toInt :=
  Int64.toInt_div_of_ne_right a b hb

/-- The product of a 32-bit signed and a 32-bit unsigned operand never overflows. -/
theorem fitsI64_mul {a b : Int} (ha : |a| ≤ 2 ^ 31) (hb : 0 ≤ b) (hb' : b < 2 ^ 32) :
    FitsI64 (a * b) := by
  have h : |a * b| ≤ 2 ^ 31 * (2 ^ 32 - 1) := by
    rw [abs_mul, abs_of_nonneg hb]
    exact Int.mul_le_mul ha (by omega) hb (by norm_num)
  rw [abs_le] at h
  constructor <;> omega

theorem abs_le_of_fitsI32 {x : Int} (h : FitsI32 x) : |x| ≤ 2 ^ 31 := abs_le.mpr ⟨h.1, h.2.le⟩

theorem abs_toInt_le (x : Int32) : |x.toInt| ≤ 2 ^ 31 := by
  have := x.le_toInt
  have := x.toInt_lt
  rw [abs_le]; omega

/-- Reading a signed 64-bit value as unsigned takes the residue modulo `2^64`. -/
theorem toNat_toUInt64 (a : Int64) : (a.toUInt64.toNat : Int) = a.toInt % 2 ^ 64 := by
  have h := BitVec.toInt_eq_toNat_bmod a.toBitVec
  have hlt : a.toUInt64.toNat < 2 ^ 64 := a.toUInt64.toNat_lt
  have e : a.toInt = (a.toUInt64.toNat : Int).bmod (2 ^ 64) := h
  rw [e]
  have := Int.bmod_emod (x := (a.toUInt64.toNat : Int)) (m := 2 ^ 64)
  omega

end CInt
