import Mathlib.Data.Nat.Sqrt
import Mathlib.Tactic.Ring
import Mathlib.Tactic.Linarith

/-!
# Lib.BitSqrt

The digit-by-digit integer square root on natural numbers. `bitSqrt k x r` tries the root's
binary digits `k - 1, ..., 0`; `x` is what is left of the radicand and `r` the part of the root
found so far, scaled by `2^k`.

* `bitSqrt_spec`: from the invariant state the loop returns `Nat.sqrt` of the radicand.
* `Inv.trial_lt`: the value compared with `x` in each round stays below `4^K` when the radicand
  does, so a register that holds the radicand holds every trial value.
-/

namespace BitSqrt

def bitSqrt : Nat → Nat → Nat → Nat
  | 0, _, r => r
  | k + 1, x, r =>
    if r + 4 ^ k ≤ x then bitSqrt k (x - (r + 4 ^ k)) (r / 2 + 4 ^ k)
    else bitSqrt k x (r / 2)

/-- The loop invariant before digit `k - 1` is tried: `s` is the root found so far, a lower bound
whose error is below `2^k` and which has no smaller digits; the running values are determined
by it. -/
structure Inv (n k x r s : Nat) : Prop where
  digits : 2 ^ k ∣ s
  rem : x + s * s = n
  scaled : r = s * 2 ^ k
  upper : n < (s + 2 ^ k) * (s + 2 ^ k)

variable {n k x r s : Nat}

theorem four_pow (k : Nat) : 4 ^ k = 2 ^ k * 2 ^ k := by
  rw [← Nat.mul_pow]

theorem Inv.half (h : Inv n (k + 1) x r s) : r / 2 = s * 2 ^ k := by
  rw [h.scaled, Nat.pow_succ, ← Nat.mul_assoc, Nat.mul_div_cancel _ (by omega)]

/-- Adding the digit `2^k` to the root adds `r + 4^k` to its square. -/
theorem Inv.square (h : Inv n (k + 1) x r s) :
    (s + 2 ^ k) * (s + 2 ^ k) = s * s + (r + 4 ^ k) := by
  rw [h.scaled, four_pow]; ring

theorem Inv.accept (h : Inv n (k + 1) x r s) (hle : r + 4 ^ k ≤ x) :
    Inv n k (x - (r + 4 ^ k)) (r / 2 + 4 ^ k) (s + 2 ^ k) where
  digits := (Nat.dvd_add_left (dvd_refl _)).mpr ((Nat.pow_dvd_pow 2 (by omega)).trans h.digits)
  rem := by rw [h.square]; have := h.rem; omega
  scaled := by rw [h.half, four_pow]; ring
  upper := by
    have e : s + 2 ^ k + 2 ^ k = s + 2 ^ (k + 1) := by ring
    rw [e]; exact h.upper

theorem Inv.reject (h : Inv n (k + 1) x r s) (hlt : ¬ r + 4 ^ k ≤ x) :
    Inv n k x (r / 2) s where
  digits := (Nat.pow_dvd_pow 2 (by omega)).trans h.digits
  rem := h.rem
  scaled := h.half
  upper := by rw [h.square]; have := h.rem; omega

theorem Inv.sqrt (h : Inv n 0 x r s) : r = Nat.sqrt n := by
  have hr : r = s := by simpa using h.scaled
  have hlow : s * s ≤ n := by have := h.rem; omega
  have hup : n < (s + 1) * (s + 1) := by simpa using h.upper
  rw [hr]
  exact (Nat.eq_sqrt.mpr ⟨hlow, hup⟩)

theorem bitSqrt_spec : ∀ {k x r s : Nat}, Inv n k x r s → bitSqrt k x r = Nat.sqrt n
  | 0, _, _, _, h => h.sqrt
  | k + 1, x, r, s, h => by
    unfold bitSqrt
    split
    · rename_i hle; exact bitSqrt_spec (h.accept hle)
    · rename_i hlt; exact bitSqrt_spec (h.reject hlt)

/-- Starting with no digit found, any scale whose square exceeds the radicand will do. -/
theorem inv_start (h : n < 4 ^ k) : Inv n k n 0 0 where
  digits := Nat.dvd_zero _
  rem := by simp
  scaled := by simp
  upper := by rw [four_pow] at h; simpa using h

theorem Inv.trial_lt {K : Nat} (h : Inv n (k + 1) x r s) (hn : n < 4 ^ K) (hk : k < K) :
    r + 4 ^ k < 4 ^ K := by
  have hs : s < 2 ^ K := by
    have hsq : s * s < 2 ^ K * 2 ^ K := by have := h.rem; rw [four_pow] at hn; omega
    exact Nat.mul_self_lt_mul_self_iff.mp hsq
  -- Both `s` and `2^K` are multiples of `2^(k+1)`, so a whole such step fits between them.
  have hgap : 2 ^ (k + 1) ≤ 2 ^ K - s :=
    Nat.le_of_dvd (by omega) (Nat.dvd_sub (Nat.pow_dvd_pow 2 hk) h.digits)
  have hlt : s + 2 ^ k < 2 ^ K := by
    have : 2 ^ (k + 1) = 2 * 2 ^ k := by ring
    have : 0 < 2 ^ k := Nat.two_pow_pos k
    omega
  calc r + 4 ^ k ≤ (s + 2 ^ k) * (s + 2 ^ k) := by rw [h.square]; omega
    _ < 2 ^ K * 2 ^ K := Nat.mul_self_lt_mul_self_iff.mpr hlt
    _ = 4 ^ K := (four_pow K).symm

/-! ## The digit weights a program shifts through -/

/-- The weight `4^(k-1)` of the first digit still to be tried, `0` when none is left. -/
def topBit : Nat → Nat
  | 0 => 0
  | k + 1 => 4 ^ k

theorem topBit_div (k : Nat) : topBit k / 4 = topBit (k - 1) := by
  match k with
  | 0 => rfl
  | 1 => rfl
  | k + 2 => simp [topBit, Nat.pow_succ]

end BitSqrt
