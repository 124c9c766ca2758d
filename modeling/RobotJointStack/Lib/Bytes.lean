import Mathlib.Data.Nat.Bitwise

/-!
# Lib.Bytes

Little-endian splitting of 16- and 32-bit words into bytes with C's masks and shifts, and the fact
that or-ing the shifted bytes puts the word together again.
-/

namespace Bytes

theorem or_shiftLeft {a i : Nat} (h : a < 2 ^ i) (b : Nat) : a ||| b <<< i = b * 2 ^ i + a := by
  rw [Nat.or_comm, ← Nat.shiftLeft_add_eq_or_of_lt h, Nat.shiftLeft_eq]

theorem toNat_byte16 (b : UInt8) : (b.toUInt16 <<< 8).toNat = b.toNat <<< 8 := by
  have := b.toNat_lt
  simp only [UInt16.toNat_shiftLeft, UInt8.toNat_toUInt16, Nat.shiftLeft_eq, UInt16.reduceToNat,
    Nat.reduceMod]
  omega

theorem toNat_byte32 (b : UInt8) {i : UInt32} (hi : i.toNat ≤ 24) :
    (b.toUInt32 <<< i).toNat = b.toNat <<< i.toNat := by
  have hb : b.toNat < 2 ^ 8 := b.toNat_lt
  have hlt : b.toNat * 2 ^ i.toNat < 2 ^ 32 :=
    calc b.toNat * 2 ^ i.toNat < 2 ^ 8 * 2 ^ i.toNat :=
          Nat.mul_lt_mul_of_pos_right hb (Nat.two_pow_pos _)
      _ = 2 ^ (8 + i.toNat) := (Nat.pow_add 2 8 i.toNat).symm
      _ ≤ 2 ^ 32 := Nat.pow_le_pow_right (by omega) (by omega)
  simp only [UInt32.toNat_shiftLeft, UInt8.toNat_toUInt32, Nat.shiftLeft_eq]
  rw [Nat.mod_eq_of_lt (show i.toNat < 32 by omega), Nat.mod_eq_of_lt hlt]

/-- The value of two bytes put together. -/
theorem toNat_join16 (b0 b1 : UInt8) :
    (b0.toUInt16 ||| (b1.toUInt16 <<< 8)).toNat = b0.toNat + 256 * b1.toNat := by
  rw [UInt16.toNat_or, toNat_byte16, UInt8.toNat_toUInt16, or_shiftLeft b0.toNat_lt]
  omega

/-- The value of four bytes put together. -/
theorem toNat_join32 (b0 b1 b2 b3 : UInt8) :
    (b0.toUInt32 ||| (b1.toUInt32 <<< 8) ||| (b2.toUInt32 <<< 16) ||| (b3.toUInt32 <<< 24)).toNat =
      b0.toNat + 256 * b1.toNat + 65536 * b2.toNat + 16777216 * b3.toNat := by
  have h0 : b0.toNat < 2 ^ 8 := b0.toNat_lt
  have h1 : b1.toNat < 2 ^ 8 := b1.toNat_lt
  have h2 : b2.toNat < 2 ^ 8 := b2.toNat_lt
  have e8 : (8 : UInt32).toNat = 8 := rfl
  have e16 : (16 : UInt32).toNat = 16 := rfl
  have e24 : (24 : UInt32).toNat = 24 := rfl
  rw [UInt32.toNat_or, UInt32.toNat_or, UInt32.toNat_or, toNat_byte32 b1 (by rw [e8]; omega),
    toNat_byte32 b2 (by rw [e16]; omega), toNat_byte32 b3 (by rw [e24]), UInt8.toNat_toUInt32,
    e8, e16, e24, or_shiftLeft h0, or_shiftLeft (i := 16) (by omega),
    or_shiftLeft (i := 24) (by omega)]
  omega

theorem join16_split (v : UInt16) :
    (v &&& 0xFF).toUInt8.toUInt16 ||| ((v >>> 8).toUInt8.toUInt16 <<< 8) = v := by
  have hv := v.toNat_lt
  apply UInt16.toNat_inj.mp
  rw [toNat_join16]
  have hand : (v &&& 0xFF).toNat = v.toNat % 256 := by
    rw [UInt16.toNat_and]; exact Nat.and_two_pow_sub_one_eq_mod v.toNat 8
  simp only [UInt16.toNat_toUInt8, hand, UInt16.toNat_shiftRight, Nat.shiftRight_eq_div_pow,
    UInt16.reduceToNat, Nat.reduceMod]
  omega

theorem join32_split (v : UInt32) :
    (v &&& 0xFF).toUInt8.toUInt32 ||| (((v >>> 8) &&& 0xFF).toUInt8.toUInt32 <<< 8) |||
      (((v >>> 16) &&& 0xFF).toUInt8.toUInt32 <<< 16) |||
      ((v >>> 24).toUInt8.toUInt32 <<< 24) = v := by
  have hv := v.toNat_lt
  apply UInt32.toNat_inj.mp
  rw [toNat_join32]
  have hand : ∀ w : UInt32, (w &&& 0xFF).toNat = w.toNat % 256 := by
    intro w
    rw [UInt32.toNat_and]; exact Nat.and_two_pow_sub_one_eq_mod w.toNat 8
  simp only [UInt32.toNat_toUInt8, hand, UInt32.toNat_shiftRight, Nat.shiftRight_eq_div_pow,
    UInt32.reduceToNat, Nat.reduceMod]
  omega

end Bytes
