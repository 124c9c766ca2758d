import Mathlib.Analysis.Real.Sqrt
import Mathlib.Tactic.FieldSimp
import Mathlib.Tactic.Linarith
import Mathlib.Tactic.Positivity

/-!
# Lib.Approach

How many steps a motion takes that approaches a point at full speed as long as it is far away, and
nearer with at least half of the speed `√(c * e)` that a constant deceleration prescribes at the
distance `e`. Half is what rounding down to whole units leaves of it, and one unit a step.

* `timeToGo_step`: every such step takes one off `timeToGo`.
* `timeToGo_le`: at most `e / cap` steps for the way and `3 * cap / c` for braking.
-/

namespace Approach

variable {c cap e e' s : ℝ}

/-- The step `s` at the distance `e`: `cap` where the prescribed speed is that large. -/
def Covers (c cap e s : ℝ) : Prop := if cap ^ 2 ≤ c * e then cap ≤ s else √(c * e) ≤ 2 * s

/-- A bound on the number of steps. -/
noncomputable def timeToGo (c cap e : ℝ) : ℝ :=
  if cap ^ 2 ≤ c * e then 3 * cap / c + e / cap else 4 * √(e / c)

theorem timeToGo_nonneg (hc : 0 < c) (hcap : 0 < cap) (he : 0 ≤ e) : 0 ≤ timeToGo c cap e := by
  unfold timeToGo
  split <;> positivity

theorem timeToGo_pos (hc : 0 < c) (hcap : 0 < cap) (he : 0 < e) : 0 < timeToGo c cap e := by
  unfold timeToGo
  split <;> positivity

/-- The two parts of the bound: one of them is larger at any distance. -/
theorem timeToGo_le (hc : 0 < c) (hcap : 0 < cap) (he : 0 ≤ e) :
    timeToGo c cap e ≤ 3 * cap / c + e / cap := by
  unfold timeToGo
  split
  · exact le_rfl
  · rename_i hnear
    have hle : e / cap ≤ cap / c := by
      rw [div_le_div_iff₀ hcap hc]; nlinarith
    have hmean : √(e / c) ≤ (cap / c + e / cap) / 2 := by
      have hprod : e / c = cap / c * (e / cap) := by field_simp
      rw [hprod]
      refine Real.sqrt_le_iff.mpr ⟨by positivity, ?_⟩
      nlinarith [sq_nonneg (cap / c - e / cap)]
    have hthree : 3 * cap / c = 3 * (cap / c) := by ring
    linarith

theorem timeToGo_mono (hc : 0 < c) (hcap : 0 < cap) (he' : 0 ≤ e') (hle : e' ≤ e) :
    timeToGo c cap e' ≤ timeToGo c cap e := by
  by_cases hfar : cap ^ 2 ≤ c * e
  · have hdiv : e' / cap ≤ e / cap := by gcongr
    have h := timeToGo_le hc hcap he'
    rw [timeToGo.eq_def c cap e, if_pos hfar]
    linarith
  · have hnear : ¬cap ^ 2 ≤ c * e' := fun h => hfar (h.trans (by gcongr))
    rw [timeToGo, timeToGo, if_neg hfar, if_neg hnear]
    gcongr

/-- A step takes one off. -/
theorem timeToGo_step (hc : 0 < c) (hcap : 0 < cap) (he : 0 < e) (he' : 0 ≤ e')
    (hs : Covers c cap e s) (hle : e' + s ≤ e) : timeToGo c cap e' + 1 ≤ timeToGo c cap e := by
  unfold Covers at hs
  by_cases hfar : cap ^ 2 ≤ c * e
  · rw [if_pos hfar] at hs
    have hone : e' / cap + 1 ≤ e / cap := by
      rw [div_add_one hcap.ne']
      gcongr
      linarith
    have h := timeToGo_le hc hcap he'
    rw [timeToGo.eq_def c cap e, if_pos hfar]
    linarith
  · rw [if_neg hfar] at hs
    have hs0 : 0 ≤ s := by have := Real.sqrt_nonneg (c * e); linarith
    have hnear : ¬cap ^ 2 ≤ c * e' := by
      refine fun h => hfar (h.trans ?_)
      gcongr
      linarith
    rw [timeToGo, timeToGo, if_neg hfar, if_neg hnear]
    -- the difference of the roots is that of the squares over their sum
    have hx : 0 < √(e / c) := Real.sqrt_pos.mpr (by positivity)
    have hxsq : √(e / c) ^ 2 = e / c := Real.sq_sqrt (by positivity)
    have hysq : √(e' / c) ^ 2 = e' / c := Real.sq_sqrt (by positivity)
    have hroot : √(c * e) = c * √(e / c) := by
      rw [show c * e = c ^ 2 * (e / c) by field_simp, Real.sqrt_mul (by positivity),
        Real.sqrt_sq hc.le]
    have hdrop : √(e' / c) ^ 2 + √(e / c) / 2 ≤ √(e / c) ^ 2 := by
      rw [hxsq, hysq]
      have hhalf : √(e / c) / 2 ≤ s / c := by
        rw [le_div_iff₀ hc]
        linarith
      have hdiv : e' / c + s / c ≤ e / c := by
        rw [← add_div]
        gcongr
      linarith
    have hlong : 1 / 2 ≤ √(e / c) := by
      by_contra hshort
      nlinarith [sq_nonneg √(e' / c)]
    have hquarter : √(e' / c) ≤ √(e / c) - 1 / 4 := by
      refine le_of_sq_le_sq ?_ (by linarith)
      nlinarith
    linarith

end Approach
