import RobotJointStack.Lib.Bytes

/-!
# Lib.Struct

Unpacking little-endian fields from a string of bytes, as `struct.unpack_from` does for a format
that starts with `<`. `unpack_u8` and its siblings read a field off the front; a field of several
bytes has the value of the machine word that the bytes make, and the bytes are determined by the
value (`Code.value_inj`).
-/

namespace Struct

/-- The format characters `B`, `H`, `I`, `h` and `i`. -/
inductive Code where
  | u8
  | u16
  | u32
  | i16
  | i32
deriving DecidableEq, Repr

def Code.size : Code → Nat
  | u8 => 1
  | u16 | i16 => 2
  | u32 | i32 => 4

def littleEndian : List UInt8 → Nat
  | [] => 0
  | b :: bytes => b.toNat + 256 * littleEndian bytes

def Code.value (c : Code) (bytes : List UInt8) : Int :=
  match c with
  | u8 | u16 | u32 => littleEndian bytes
  | i16 => (littleEndian bytes : Int).bmod (2 ^ 16)
  | i32 => (littleEndian bytes : Int).bmod (2 ^ 32)

/-- Nothing where the data is too short. -/
def unpack : List Code → List UInt8 → Option (List Int)
  | [], _ => some []
  | c :: codes, data =>
    if data.length < c.size then none
    else (unpack codes (data.drop c.size)).map (c.value (data.take c.size) :: ·)

def unpackFrom (codes : List Code) (data : List UInt8) (offset : Nat) : Option (List Int) :=
  unpack codes (data.drop offset)

theorem unpack_nil (data : List UInt8) : unpack [] data = some [] := rfl

theorem unpack_cons (c : Code) (codes : List Code) (bytes data : List UInt8)
    (h : bytes.length = c.size) :
    unpack (c :: codes) (bytes ++ data) = (unpack codes data).map (c.value bytes :: ·) := by
  have hlong : ¬(bytes ++ data).length < c.size := by
    rw [List.length_append]; omega
  rw [unpack, if_neg hlong, List.drop_left' h, List.take_left' h]

/-- Enough data gives a value for each field. -/
theorem unpack_eq_some {codes : List Code} {data : List UInt8}
    (h : (codes.map Code.size).sum ≤ data.length) :
    ∃ values, unpack codes data = some values ∧ values.length = codes.length := by
  induction codes generalizing data with
  | nil => exact ⟨[], rfl, rfl⟩
  | cons c codes ih =>
    rw [List.map_cons, List.sum_cons] at h
    have hrest : (codes.map Code.size).sum ≤ (data.drop c.size).length := by
      rw [List.length_drop]
      omega
    obtain ⟨values, hv, hn⟩ := ih hrest
    refine ⟨c.value (data.take c.size) :: values, ?_, congrArg (· + 1) hn⟩
    rw [unpack, if_neg (by omega), hv]
    rfl

theorem unpackFrom_eq_some (codes : List Code) {data : List UInt8} {offset : Nat}
    (h : offset + (codes.map Code.size).sum ≤ data.length) :
    ∃ values, unpackFrom codes data offset = some values ∧ values.length = codes.length :=
  unpack_eq_some (by rw [List.length_drop]; omega)

section Unpack

variable (codes : List Code) (b0 b1 b2 b3 : UInt8) (data : List UInt8)

theorem littleEndian_pair :
    littleEndian [b0, b1] = (b0.toUInt16 ||| (b1.toUInt16 <<< 8)).toNat := by
  rw [Bytes.toNat_join16]
  simp [littleEndian]

theorem littleEndian_quad :
    littleEndian [b0, b1, b2, b3] = (b0.toUInt32 ||| (b1.toUInt32 <<< 8) |||
      (b2.toUInt32 <<< 16) ||| (b3.toUInt32 <<< 24)).toNat := by
  rw [Bytes.toNat_join32]
  simp only [littleEndian]
  omega

theorem unpack_u8 : unpack (.u8 :: codes) (b0 :: data) =
    (unpack codes data).map ((b0.toNat : Int) :: ·) :=
  unpack_cons .u8 codes [b0] data rfl

theorem unpack_u16 : unpack (.u16 :: codes) (b0 :: b1 :: data) =
    (unpack codes data).map (((b0.toUInt16 ||| (b1.toUInt16 <<< 8)).toNat : Int) :: ·) := by
  rw [← littleEndian_pair]
  exact unpack_cons .u16 codes [b0, b1] data rfl

theorem unpack_i16 : unpack (.i16 :: codes) (b0 :: b1 :: data) =
    (unpack codes data).map ((b0.toUInt16 ||| (b1.toUInt16 <<< 8)).toInt16.toInt :: ·) := by
  have hword : (b0.toUInt16 ||| (b1.toUInt16 <<< 8)).toInt16.toInt =
      ((b0.toUInt16 ||| (b1.toUInt16 <<< 8)).toNat : Int).bmod (2 ^ 16) :=
    BitVec.toInt_eq_toNat_bmod _
  rw [hword, ← littleEndian_pair]
  exact unpack_cons .i16 codes [b0, b1] data rfl

theorem unpack_u32 : unpack (.u32 :: codes) (b0 :: b1 :: b2 :: b3 :: data) =
    (unpack codes data).map (((b0.toUInt32 ||| (b1.toUInt32 <<< 8) ||| (b2.toUInt32 <<< 16) |||
      (b3.toUInt32 <<< 24)).toNat : Int) :: ·) := by
  rw [← littleEndian_quad]
  exact unpack_cons .u32 codes [b0, b1, b2, b3] data rfl

theorem unpack_i32 : unpack (.i32 :: codes) (b0 :: b1 :: b2 :: b3 :: data) =
    (unpack codes data).map ((b0.toUInt32 ||| (b1.toUInt32 <<< 8) ||| (b2.toUInt32 <<< 16) |||
      (b3.toUInt32 <<< 24)).toInt32.toInt :: ·) := by
  have hword : (b0.toUInt32 ||| (b1.toUInt32 <<< 8) ||| (b2.toUInt32 <<< 16) |||
      (b3.toUInt32 <<< 24)).toInt32.toInt = ((b0.toUInt32 ||| (b1.toUInt32 <<< 8) |||
        (b2.toUInt32 <<< 16) ||| (b3.toUInt32 <<< 24)).toNat : Int).bmod (2 ^ 32) :=
    BitVec.toInt_eq_toNat_bmod _
  rw [hword, ← littleEndian_quad]
  exact unpack_cons .i32 codes [b0, b1, b2, b3] data rfl

end Unpack

/-! ## The bytes of a value -/

theorem littleEndian_lt (bytes : List UInt8) : littleEndian bytes < 256 ^ bytes.length := by
  induction bytes with
  | nil => simp [littleEndian]
  | cons b bytes ih =>
    have hb := b.toNat_lt
    rw [littleEndian, List.length_cons, Nat.pow_succ]
    omega

theorem littleEndian_inj {xs ys : List UInt8} (hlen : xs.length = ys.length)
    (h : littleEndian xs = littleEndian ys) : xs = ys := by
  induction xs generalizing ys with
  | nil => exact (List.length_eq_zero_iff.mp hlen.symm).symm
  | cons x xs ih =>
    cases ys with
    | nil => cases hlen
    | cons y ys =>
      have hx := x.toNat_lt
      have hy := y.toNat_lt
      simp only [littleEndian] at h
      have hhead : x = y := UInt8.toNat_inj.mp (by omega)
      have htail : xs = ys := ih (Nat.succ.inj hlen) (by omega)
      rw [hhead, htail]

theorem bmod_inj {m a b : Nat} (ha : a < m) (hb : b < m) (h : (a : Int).bmod m = (b : Int).bmod m) :
    a = b := by
  have hemod : (a : Int) % m = (b : Int) % m := by
    rw [← Int.bmod_emod, h, Int.bmod_emod]
  rw [Int.emod_eq_of_lt (by omega) (by omega), Int.emod_eq_of_lt (by omega) (by omega)] at hemod
  exact Int.ofNat_inj.mp hemod

/-- Two fields of the same type with the same value have the same bytes. -/
theorem Code.value_inj (c : Code) {xs ys : List UInt8} (hx : xs.length = c.size)
    (hy : ys.length = c.size) (h : c.value xs = c.value ys) : xs = ys := by
  have hltx := littleEndian_lt xs
  have hlty := littleEndian_lt ys
  rw [hx] at hltx
  rw [hy] at hlty
  refine littleEndian_inj (hx.trans hy.symm) ?_
  cases c with
  | u8 | u16 | u32 => exact Int.ofNat_inj.mp h
  | i16 | i32 => exact bmod_inj hltx hlty h

end Struct
