import Mathlib.Algebra.Order.Group.Unbundled.Abs
import Mathlib.Algebra.Order.Group.Abs
import Mathlib.Algebra.Order.Group.Lattice
import Mathlib.Order.Interval.Set.UnorderedInterval
import Mathlib.Tactic.Abel

/-!
# Lib.Slew

A slew-rate limiter over an ordered additive group: `slew d v w` moves `v` toward the wanted value
`w` by at most `d`.

* `slew_eq`: it is `w` clamped to `[v - d, v + d]`.
* `abs_slew_sub_le`: one application changes the value by at most `d`.
* `abs_slew_le`: it never leaves a symmetric range that holds both `v` and `w`.
-/

namespace Slew

variable {α : Type*} [AddCommGroup α] [LinearOrder α] [IsOrderedAddMonoid α]

/-- Move `v` toward `w` by at most `d`. -/
def slew (d v w : α) : α :=
  if v < w then (if d < w - v then v + d else w) else (if d < v - w then v - d else w)

variable {d v w m : α}

theorem slew_eq (hd : 0 ≤ d) : slew d v w = max (v - d) (min (v + d) w) := by
  unfold slew
  have hlo : v - d ≤ v := sub_le_self v hd
  have hhi : v ≤ v + d := le_add_of_nonneg_right hd
  split
  · rename_i hvw
    split
    · rename_i h
      have : v + d ≤ w := (add_comm v d ▸ (lt_sub_iff_add_lt.mp h)).le
      rw [min_eq_left this, max_eq_right (hlo.trans hhi)]
    · rename_i h
      have : w ≤ v + d := sub_le_iff_le_add'.mp (not_lt.mp h)
      rw [min_eq_right this, max_eq_right (hlo.trans hvw.le)]
  · rename_i hvw
    have hwv : w ≤ v := not_lt.mp hvw
    rw [min_eq_right (hwv.trans hhi)]
    split
    · rename_i h
      exact (max_eq_left (lt_sub_comm.mp h).le).symm
    · rename_i h
      exact (max_eq_right (sub_le_comm.mp (not_lt.mp h))).symm

/-- The limiter treats both directions alike. -/
theorem slew_neg (hd : 0 ≤ d) : slew d (-v) (-w) = -slew d v w := by
  have hle : -v - d ≤ -v + d := (sub_le_self _ hd).trans (le_add_of_nonneg_right hd)
  have hlo : -(v - d) = -v + d := by abel
  have hhi : -(v + d) = -v - d := by abel
  rw [slew_eq hd, slew_eq hd, neg_sup, neg_inf, hlo, hhi, max_min_distrib_left, max_eq_right hle]

theorem sub_le_slew (hd : 0 ≤ d) : v - d ≤ slew d v w := by
  rw [slew_eq hd]; exact le_max_left _ _

theorem slew_le_add (hd : 0 ≤ d) : slew d v w ≤ v + d := by
  rw [slew_eq hd]
  exact max_le ((sub_le_self v hd).trans (le_add_of_nonneg_right hd)) (min_le_left _ _)

/-- The rate limit. -/
theorem abs_slew_sub_le (hd : 0 ≤ d) : |slew d v w - v| ≤ d := by
  rw [abs_sub_le_iff]
  exact ⟨sub_le_iff_le_add'.mpr (slew_le_add hd), sub_le_comm.mp (sub_le_slew hd)⟩

theorem min_le_slew (hd : 0 ≤ d) : min v w ≤ slew d v w := by
  rw [slew_eq hd]
  exact le_max_of_le_right
    (le_min ((min_le_left _ _).trans (le_add_of_nonneg_right hd)) (min_le_right _ _))

theorem slew_le_max (hd : 0 ≤ d) : slew d v w ≤ max v w := by
  rw [slew_eq hd]
  exact max_le ((sub_le_self v hd).trans (le_max_left _ _))
    ((min_le_right _ _).trans (le_max_right _ _))

/-- A symmetric bound on the present and the wanted value bounds the next value. -/
theorem abs_slew_le (hd : 0 ≤ d) (hv : |v| ≤ m) (hw : |w| ≤ m) : |slew d v w| ≤ m := by
  rw [abs_le] at *
  exact ⟨(le_min hv.1 hw.1).trans (min_le_slew hd), (slew_le_max hd).trans (max_le hv.2 hw.2)⟩

end Slew
