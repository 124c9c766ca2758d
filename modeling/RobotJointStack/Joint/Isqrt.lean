import RobotJointStack.Lib.BitSqrt
import RobotJointStack.Lib.Checked
import RobotJointStack.Joint.Basic

/-!
# Joint.Isqrt

`isqrtU64` is the integer square root. Both of its loops follow the digit weights `topBit k`, and
the 64-bit registers never wrap, so the loops compute `BitSqrt.bitSqrt` on natural numbers.

* `Registers`: the loop invariant on the 64-bit registers. `Registers.accept`, `Registers.reject`:
  the two ways through a round keep it.
* `isqrtChecked`: the function once more, with `none` where a sum or a difference wraps around.
* `isqrtU64_exact`: it never does, and the result is the root rounded down.
-/

namespace Rjs

open BitSqrt CInt

theorem toNat_shiftRight_two {bit : UInt64} {k : Nat} (h : bit.toNat = topBit k) :
    (bit >>> 2).toNat = topBit (k - 1) := by
  rw [← topBit_div, ← h]
  simp [UInt64.toNat_shiftRight, Nat.shiftRight_eq_div_pow]

theorem isqrtTopBit_spec {x : UInt64} : ∀ (k : Nat) {bit : UInt64}, bit.toNat = topBit k →
    x.toNat < 4 ^ k →
    ∃ j, j ≤ k ∧ (isqrtTopBit x bit).toNat = topBit j ∧ x.toNat < 4 ^ j := by
  intro k
  induction k with
  | zero =>
    intro bit hb hx
    have hle : ¬bit > x := by
      rw [gt_iff_lt, UInt64.lt_iff_toNat_lt, hb]; simp [topBit]
    rw [isqrtTopBit, dif_neg hle]
    exact ⟨0, le_refl 0, hb, hx⟩
  | succ k ih =>
    intro bit hb hx
    rw [isqrtTopBit]
    split
    · rename_i hgt
      have hx' : x.toNat < 4 ^ k := by
        have := UInt64.lt_iff_toNat_lt.mp hgt; rwa [hb] at this
      obtain ⟨j, hj, he, hlt⟩ := ih (toNat_shiftRight_two hb) hx'
      exact ⟨j, by omega, he, hlt⟩
    · exact ⟨k + 1, le_refl _, hb, hx⟩

/-- The registers of the second loop with `k` digits still to be tried, for the radicand `n`. -/
structure Registers (n k : Nat) (x r bit : UInt64) : Prop where
  fits : n < 4 ^ 32
  digits : k ≤ 32
  weight : bit.toNat = topBit k
  inv : ∃ s, Inv n k x.toNat r.toNat s

theorem toNat_shiftRight_one (r : UInt64) : (r >>> 1).toNat = r.toNat / 2 := by
  simp [UInt64.toNat_shiftRight, Nat.shiftRight_eq_div_pow]

namespace Registers

variable {n k : Nat} {x r bit : UInt64}

theorem bit_eq_zero (h : Registers n 0 x r bit) : bit = 0 :=
  UInt64.toNat_inj.mp (by simpa [topBit] using h.weight)

theorem bit_ne_zero (h : Registers n (k + 1) x r bit) : bit ≠ 0 := by
  rintro rfl
  have hweight : 0 = 4 ^ k := h.weight
  have : 0 < 4 ^ k := Nat.pow_pos (by omega)
  omega

/-- The sum `r + bit` fits its register. -/
theorem trial_lt (h : Registers n (k + 1) x r bit) : r.toNat + bit.toNat < 2 ^ 64 := by
  obtain ⟨s, hinv⟩ := h.inv
  rw [h.weight]
  exact hinv.trial_lt h.fits h.digits

theorem toNat_trial (h : Registers n (k + 1) x r bit) : (r + bit).toNat = r.toNat + 4 ^ k := by
  rw [UInt64.toNat_add, Nat.mod_eq_of_lt h.trial_lt, h.weight, topBit]

theorem trial_le_iff (h : Registers n (k + 1) x r bit) :
    r + bit ≤ x ↔ r.toNat + 4 ^ k ≤ x.toNat := by
  rw [UInt64.le_iff_toNat_le, h.toNat_trial]

theorem toNat_rest (h : Registers n (k + 1) x r bit) (hle : r + bit ≤ x) :
    (x - (r + bit)).toNat = x.toNat - (r.toNat + 4 ^ k) := by
  rw [UInt64.toNat_sub_of_le _ _ hle, h.toNat_trial]

/-- So does the sum `(r >> 1) + bit`. -/
theorem root_lt (h : Registers n (k + 1) x r bit) : (r >>> 1).toNat + bit.toNat < 2 ^ 64 := by
  have htrial := h.trial_lt
  rw [toNat_shiftRight_one]
  omega

theorem toNat_root (h : Registers n (k + 1) x r bit) :
    ((r >>> 1) + bit).toNat = r.toNat / 2 + 4 ^ k := by
  rw [UInt64.toNat_add, Nat.mod_eq_of_lt h.root_lt, toNat_shiftRight_one, h.weight, topBit]

theorem accept (h : Registers n (k + 1) x r bit) (hle : r + bit ≤ x) :
    Registers n k (x - (r + bit)) ((r >>> 1) + bit) (bit >>> 2) where
  fits := h.fits
  digits := Nat.le_of_succ_le h.digits
  weight := toNat_shiftRight_two h.weight
  inv := by
    obtain ⟨s, hinv⟩ := h.inv
    rw [h.toNat_rest hle, h.toNat_root]
    exact ⟨_, hinv.accept (h.trial_le_iff.mp hle)⟩

theorem reject (h : Registers n (k + 1) x r bit) (hlt : ¬r + bit ≤ x) :
    Registers n k x (r >>> 1) (bit >>> 2) where
  fits := h.fits
  digits := Nat.le_of_succ_le h.digits
  weight := toNat_shiftRight_two h.weight
  inv := by
    obtain ⟨s, hinv⟩ := h.inv
    rw [toNat_shiftRight_one]
    exact ⟨_, hinv.reject (mt h.trial_le_iff.mpr hlt)⟩

/-- The registers after the first loop. -/
theorem start (x : UInt64) : ∃ k, Registers x.toNat k x 0 (isqrtTopBit x ((1 : UInt64) <<< 62)) := by
  have hx : x.toNat < 4 ^ 32 := x.toNat_lt
  have htop : ((1 : UInt64) <<< 62).toNat = topBit 32 := rfl
  obtain ⟨k, hk, hweight, hlt⟩ := isqrtTopBit_spec 32 htop hx
  exact ⟨k, hx, hk, hweight, 0, inv_start hlt⟩

end Registers

theorem isqrtLoop_spec {n k : Nat} {x r bit : UInt64} (h : Registers n k x r bit) :
    (isqrtLoop x r bit).toNat = bitSqrt k x.toNat r.toNat := by
  induction k generalizing x r bit with
  | zero =>
    rw [isqrtLoop, dif_neg (not_not.mpr h.bit_eq_zero)]
    rfl
  | succ k ih =>
    rw [isqrtLoop, dif_pos h.bit_ne_zero, bitSqrt]
    by_cases hle : r + bit ≤ x
    · rw [if_pos hle, if_pos (h.trial_le_iff.mp hle), ih (h.accept hle), h.toNat_rest hle,
        h.toNat_root]
    · rw [if_neg hle, if_neg (mt h.trial_le_iff.mpr hle), ih (h.reject hle), toNat_shiftRight_one]

/-- `isqrt_u64` is the exact integer square root on the whole 64-bit range. -/
theorem toNat_isqrtU64 (x : UInt64) : (isqrtU64 x).toNat = Nat.sqrt x.toNat := by
  obtain ⟨k, hstart⟩ := Registers.start x
  obtain ⟨s, hinv⟩ := hstart.inv
  rw [isqrtU64, isqrtLoop_spec hstart]
  exact bitSqrt_spec hinv

/-- A root fits 32 bits. -/
theorem isqrtU64_lt (x : UInt64) : (isqrtU64 x).toNat < 2 ^ 32 := by
  rw [toNat_isqrtU64]
  exact Nat.sqrt_lt.mpr (x.toNat_lt.trans_le (by norm_num))

/-! ## No register wraps around -/

theorem toNat_shiftRight_two_lt {bit : UInt64} (h : bit ≠ 0) :
    (bit >>> 2).toNat < bit.toNat := by
  have hpos : bit.toNat ≠ 0 := fun h0 => h (UInt64.toNat_inj.mp h0)
  have hquot : (bit >>> 2).toNat = bit.toNat / 4 := by
    simp [UInt64.toNat_shiftRight, Nat.shiftRight_eq_div_pow]
  omega

/-- The second loop with its sums and its difference checked. -/
def isqrtLoopChecked (x r bit : UInt64) : Option UInt64 :=
  if _h : bit ≠ 0 then do
    let trial ← uadd64 r bit
    if x ≥ trial then do
      let rest ← usub64 x trial
      let root ← uadd64 (r >>> 1) bit
      isqrtLoopChecked rest root (bit >>> 2)
    else isqrtLoopChecked x (r >>> 1) (bit >>> 2)
  else some r
termination_by bit.toNat
decreasing_by
  all_goals exact toNat_shiftRight_two_lt _h

def isqrtChecked (x : UInt64) : Option UInt64 :=
  isqrtLoopChecked x 0 (isqrtTopBit x ((1 : UInt64) <<< 62))

theorem isqrtLoopChecked_eq {n k : Nat} {x r bit : UInt64} (h : Registers n k x r bit) :
    isqrtLoopChecked x r bit = some (isqrtLoop x r bit) := by
  induction k generalizing x r bit with
  | zero =>
    have hdone : ¬bit ≠ 0 := not_not.mpr h.bit_eq_zero
    rw [isqrtLoopChecked, isqrtLoop, dif_neg hdone, dif_neg hdone]
  | succ k ih =>
    rw [isqrtLoopChecked, isqrtLoop, dif_pos h.bit_ne_zero, dif_pos h.bit_ne_zero,
      bind_of_eq_some (uadd64_eq h.trial_lt)]
    by_cases hle : r + bit ≤ x
    · rw [if_pos hle, if_pos hle, bind_of_eq_some (usub64_eq hle),
        bind_of_eq_some (uadd64_eq h.root_lt)]
      exact ih (h.accept hle)
    · rw [if_neg hle, if_neg hle]
      exact ih (h.reject hle)

/-- **`isqrt_u64` is exact.** For every radicand both loops end, no sum or difference wraps around,
and the result is the largest root whose square is not above the radicand. -/
theorem isqrtU64_exact (x : UInt64) :
    isqrtChecked x = some (isqrtU64 x) ∧
      (isqrtU64 x).toNat * (isqrtU64 x).toNat ≤ x.toNat ∧
      x.toNat < ((isqrtU64 x).toNat + 1) * ((isqrtU64 x).toNat + 1) := by
  obtain ⟨k, hstart⟩ := Registers.start x
  rw [toNat_isqrtU64]
  exact ⟨isqrtLoopChecked_eq hstart, Nat.sqrt_le _, Nat.lt_succ_sqrt _⟩

end Rjs
