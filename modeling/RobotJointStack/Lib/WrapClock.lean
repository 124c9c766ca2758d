import Mathlib.Data.UInt

/-!
# Lib.WrapClock

A counter that wraps at `2^32`, read as the low word of an unbounded time. Differences of two
readings are exact while less than a full wrap lies between them; comparisons are only while the
counter does not wrap in between.
-/

namespace WrapClock

/-- The 32-bit reading of the time `t`. -/
def wrap (t : Nat) : UInt32 := UInt32.ofNat t

theorem toNat_wrap (t : Nat) : (wrap t).toNat = t % 2 ^ 32 := by simp [wrap]

theorem toNat_wrap_sub {a b : Nat} (hab : a ≤ b) (hlt : b - a < 2 ^ 32) :
    (wrap b - wrap a).toNat = b - a := by
  have ha := Nat.div_add_mod a (2 ^ 32)
  have hb := Nat.div_add_mod b (2 ^ 32)
  rw [UInt32.toNat_sub, toNat_wrap, toNat_wrap]
  omega

/-- A later reading is smaller exactly when the counter has wrapped in between. -/
theorem wrap_lt_wrap_iff {a b : Nat} (hab : a ≤ b) (hlt : b - a < 2 ^ 32) :
    wrap b < wrap a ↔ a / 2 ^ 32 ≠ b / 2 ^ 32 := by
  rw [UInt32.lt_iff_toNat_lt, toNat_wrap, toNat_wrap]
  omega

end WrapClock
