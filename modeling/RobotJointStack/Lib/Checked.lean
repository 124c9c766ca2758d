import RobotJointStack.Lib.CInt

/-!
# Lib.Checked

C arithmetic with overflow made visible. An operation is carried out on mathematical integers, and
is `none` where the result does not fit its type: C leaves that undefined for a signed type and
wraps an unsigned one around.

* `checked64_eq_some_iff`, `checkedU64_eq_some_iff`: a checked result is the exact one.
* `add64_eq`, `uadd64_eq` and so on: where the result fits, the operation is the wrapping one.
* `mul64_eq_none`, `umul32_eq_none`: where it does not, there is none.
-/

namespace CInt

instance (x : Int) : Decidable (FitsI64 x) := inferInstanceAs (Decidable (_ ∧ _))

instance (x : Int) : Decidable (FitsI32 x) := inferInstanceAs (Decidable (_ ∧ _))

/-- The `int64_t` with the value `x`. -/
def checked64 (x : Int) : Option Int64 := if FitsI64 x then some (Int64.ofInt x) else none

/-- The `int32_t` with the value `x`. -/
def checked32 (x : Int) : Option Int32 := if FitsI32 x then some (Int32.ofInt x) else none

def add64 (a b : Int64) : Option Int64 := checked64 (a.toInt + b.toInt)

def sub64 (a b : Int64) : Option Int64 := checked64 (a.toInt - b.toInt)

def mul64 (a b : Int64) : Option Int64 := checked64 (a.toInt * b.toInt)

def neg64 (a : Int64) : Option Int64 := checked64 (-a.toInt)

def div64 (a b : Int64) : Option Int64 :=
  if b = 0 then none else checked64 (a.toInt.tdiv b.toInt)

def add32 (a b : Int32) : Option Int32 := checked32 (a.toInt + b.toInt)

def neg32 (a : Int32) : Option Int32 := checked32 (-a.toInt)

def div32 (a b : Int32) : Option Int32 :=
  if b = 0 then none else checked32 (a.toInt.tdiv b.toInt)

/-- An `int64_t` value stored in an `int32_t`. -/
def narrow32 (a : Int64) : Option Int32 := checked32 a.toInt

/-- A `uint64_t` value stored in an `int64_t`. -/
def ofU64 (x : UInt64) : Option Int64 := checked64 x.toNat

/-- The `uint64_t` with the value `x`. -/
def checkedU64 (x : Int) : Option UInt64 :=
  if 0 ≤ x ∧ x < 2 ^ 64 then some (UInt64.ofNat x.toNat) else none

/-- The `uint32_t` with the value `x`. -/
def checkedU32 (x : Int) : Option UInt32 :=
  if 0 ≤ x ∧ x < 2 ^ 32 then some (UInt32.ofNat x.toNat) else none

def uadd64 (a b : UInt64) : Option UInt64 := checkedU64 (a.toNat + b.toNat)

def usub64 (a b : UInt64) : Option UInt64 := checkedU64 (a.toNat - b.toNat)

def udiv64 (a b : UInt64) : Option UInt64 := if b = 0 then none else some (a / b)

def umod64 (a b : UInt64) : Option UInt64 := if b = 0 then none else some (a % b)

def uadd32 (a b : UInt32) : Option UInt32 := checkedU32 (a.toNat + b.toNat)

def usub32 (a b : UInt32) : Option UInt32 := checkedU32 (a.toNat - b.toNat)

def umul32 (a b : UInt32) : Option UInt32 := checkedU32 (a.toNat * b.toNat)

/-- A `uint64_t` value stored in a `uint32_t`. -/
def unarrow32 (a : UInt64) : Option UInt32 := checkedU32 a.toNat

/-! ## One operation of a computation -/

theorem bind_of_eq_some {α β : Type} {o : Option α} {a : α} (h : o = some a) (f : α → Option β) :
    (o >>= f) = f a := by rw [h]; rfl

theorem bind_of_eq_none {α β : Type} {o : Option α} (h : o = none) (f : α → Option β) :
    (o >>= f) = none := by rw [h]; rfl

section Values

variable {x : Int}

theorem checked64_eq_some_iff {c : Int64} : checked64 x = some c ↔ c.toInt = x := by
  unfold checked64
  constructor
  · intro h
    split at h
    · rename_i hfits
      cases h
      rw [Int64.toInt_ofInt]
      exact bmod_of_fitsI64 hfits
    · cases h
  · rintro rfl
    rw [if_pos ⟨c.le_toInt, c.toInt_lt⟩, Int64.ofInt_toInt]

theorem checked32_eq_some_iff {c : Int32} : checked32 x = some c ↔ c.toInt = x := by
  unfold checked32
  constructor
  · intro h
    split at h
    · rename_i hfits
      cases h
      rw [Int32.toInt_ofInt]
      exact bmod_of_fitsI32 hfits
    · cases h
  · rintro rfl
    rw [if_pos ⟨c.le_toInt, c.toInt_lt⟩, Int32.ofInt_toInt]

theorem checkedU64_eq_some_iff {c : UInt64} : checkedU64 x = some c ↔ (c.toNat : Int) = x := by
  unfold checkedU64
  constructor
  · intro h
    split at h
    · rename_i hfits
      cases h
      rw [UInt64.toNat_ofNat']
      omega
    · cases h
  · rintro rfl
    have hlt := c.toNat_lt
    rw [if_pos (by omega), Int.toNat_natCast, UInt64.ofNat_toNat]

theorem checkedU32_eq_some_iff {c : UInt32} : checkedU32 x = some c ↔ (c.toNat : Int) = x := by
  unfold checkedU32
  constructor
  · intro h
    split at h
    · rename_i hfits
      cases h
      rw [UInt32.toNat_ofNat']
      omega
    · cases h
  · rintro rfl
    have hlt := c.toNat_lt
    rw [if_pos (by omega), Int.toNat_natCast, UInt32.ofNat_toNat]

end Values

section Operations

variable {a b : Int64}

theorem add64_eq (h : FitsI64 (a.toInt + b.toInt)) : add64 a b = some (a + b) :=
  checked64_eq_some_iff.mpr (toInt_add h)

theorem sub64_eq (h : FitsI64 (a.toInt - b.toInt)) : sub64 a b = some (a - b) :=
  checked64_eq_some_iff.mpr (toInt_sub h)

theorem mul64_eq (h : FitsI64 (a.toInt * b.toInt)) : mul64 a b = some (a * b) :=
  checked64_eq_some_iff.mpr (toInt_mul h)

theorem mul64_eq_none (h : ¬FitsI64 (a.toInt * b.toInt)) : mul64 a b = none := if_neg h

theorem neg64_eq (h : FitsI64 (-a.toInt)) : neg64 a = some (-a) :=
  checked64_eq_some_iff.mpr (toInt_neg h)

theorem div64_eq (h0 : b ≠ 0) (h : b ≠ -1) : div64 a b = some (a / b) := by
  rw [div64, if_neg h0]
  exact checked64_eq_some_iff.mpr (toInt_div h)

theorem narrow32_eq (h : FitsI32 a.toInt) : narrow32 a = some a.toInt32 :=
  checked32_eq_some_iff.mpr (toInt_toInt32 h)

theorem ofU64_eq {x : UInt64} (h : x.toNat < 2 ^ 63) : ofU64 x = some x.toInt64 :=
  checked64_eq_some_iff.mpr (toInt_toInt64 h)

end Operations

section Operations32

variable {a b : Int32}

theorem add32_eq (h : FitsI32 (a.toInt + b.toInt)) : add32 a b = some (a + b) := by
  refine checked32_eq_some_iff.mpr ?_
  rw [Int32.toInt_add, bmod_of_fitsI32 h]

theorem neg32_eq (h : FitsI32 (-a.toInt)) : neg32 a = some (-a) := by
  refine checked32_eq_some_iff.mpr ?_
  rw [Int32.toInt_neg, bmod_of_fitsI32 h]

theorem div32_eq (h0 : b ≠ 0) (h : b ≠ -1) : div32 a b = some (a / b) := by
  rw [div32, if_neg h0]
  exact checked32_eq_some_iff.mpr (Int32.toInt_div_of_ne_right a b h)

end Operations32

section Unsigned

variable {x y : UInt64} {a b : UInt32}

theorem uadd64_eq (h : x.toNat + y.toNat < 2 ^ 64) : uadd64 x y = some (x + y) := by
  refine checkedU64_eq_some_iff.mpr ?_
  rw [UInt64.toNat_add, Nat.mod_eq_of_lt h, Nat.cast_add]

theorem usub64_eq (h : y ≤ x) : usub64 x y = some (x - y) := by
  refine checkedU64_eq_some_iff.mpr ?_
  rw [UInt64.toNat_sub_of_le _ _ h, Nat.cast_sub (UInt64.le_iff_toNat_le.mp h)]

theorem uadd32_eq (h : a.toNat + b.toNat < 2 ^ 32) : uadd32 a b = some (a + b) := by
  refine checkedU32_eq_some_iff.mpr ?_
  rw [UInt32.toNat_add, Nat.mod_eq_of_lt h, Nat.cast_add]

theorem usub32_eq (h : b ≤ a) : usub32 a b = some (a - b) := by
  refine checkedU32_eq_some_iff.mpr ?_
  rw [UInt32.toNat_sub_of_le _ _ h, Nat.cast_sub (UInt32.le_iff_toNat_le.mp h)]

theorem umul32_eq (h : a.toNat * b.toNat < 2 ^ 32) : umul32 a b = some (a * b) := by
  refine checkedU32_eq_some_iff.mpr ?_
  rw [UInt32.toNat_mul, Nat.mod_eq_of_lt h, Nat.cast_mul]

theorem umul32_eq_none (h : 2 ^ 32 ≤ a.toNat * b.toNat) : umul32 a b = none := by
  rw [umul32, checkedU32, if_neg]
  rw [← Nat.cast_mul]
  omega

theorem unarrow32_eq (h : x.toNat < 2 ^ 32) : unarrow32 x = some x.toUInt32 := by
  refine checkedU32_eq_some_iff.mpr ?_
  rw [UInt64.toNat_toUInt32, Nat.mod_eq_of_lt h]

end Unsigned

end CInt
