import Mathlib.Algebra.Order.Ring.Abs
import RobotJointStack.Joint.Motion

/-!
# Joint.Tracking

What a position-mode step achieves, on the integer model. Everything follows from `track_cases`,
which lists the three outcomes of a step.

* `track_le_target`, `track_stop`: a step never passes the target, and reaching it stops.
* `abs_track_vel_le`, `track_vel_sq`: the speed stays below the commanded limit and below the
  speed that can be stopped within the range.
* `abs_track_vel_sub`: only an arrival can exceed the acceleration limit.
* `abs_track_pos_sub`: only a creeping step can exceed the commanded speed.
* `stepsLeft_track`: each step brings the end of the motion nearer.
-/

namespace Rjs
namespace Plant

open Slew

variable {p : Plant} {target vmax : Int} (dt : Nat) {m : Motion}

variable {dt} in
theorem track_arrives (ha : Arrives (target - m.pos) (travel dt (p.trackVel target vmax dt m))) :
    p.track target vmax dt m = ⟨target, 0⟩ := if_pos ha

variable {dt} in
theorem track_moves
    (ha : ¬Arrives (target - m.pos) (travel dt (p.trackVel target vmax dt m))) :
    p.track target vmax dt m =
      ⟨p.clamp (m.pos + if travel dt (p.trackVel target vmax dt m) = 0 then (target - m.pos).sign
        else travel dt (p.trackVel target vmax dt m)), p.trackVel target vmax dt m⟩ := if_neg ha

variable (vmax) in
/-- The three outcomes of a tracking step of length `s` at velocity `v`. -/
theorem track_cases (hp : p.Holds m.pos) (ht : p.Holds target) :
    let err := target - m.pos
    let v := p.trackVel target vmax dt m
    let s := travel dt v
    (Arrives err s ∧ p.track target vmax dt m = ⟨target, 0⟩) ∨
    (¬Arrives err s ∧ s = 0 ∧ 2 ≤ |err| ∧ p.track target vmax dt m = ⟨m.pos + err.sign, v⟩) ∨
    (¬Arrives err s ∧ s ≠ 0 ∧ p.track target vmax dt m = ⟨p.clamp (m.pos + s), v⟩) := by
  intro err v s
  by_cases ha : Arrives err s
  · exact .inl ⟨ha, track_arrives ha⟩
  have htrack : p.track target vmax dt m =
      ⟨p.clamp (m.pos + if s = 0 then err.sign else s), v⟩ := track_moves ha
  by_cases hs : s = 0
  · have herr : 2 ≤ |err| := by
      by_contra hlt
      exact ha (.inr (.inr ⟨hs, by omega⟩))
    refine .inr (.inl ⟨ha, hs, herr, ?_⟩)
    -- one unit toward the target stays inside the range
    have hin : p.Holds (m.pos + err.sign) := by
      rcases lt_trichotomy 0 err with h | h | h
      · rw [Int.sign_eq_one_of_pos h]; exact ⟨by have := hp.1; omega, by have := ht.2; omega⟩
      · rw [← h] at herr; simp at herr
      · rw [Int.sign_eq_neg_one_of_neg h]
        exact ⟨by have := ht.1; omega, by have := hp.2; omega⟩
    rw [htrack, if_pos hs, clamp_of_holds hin]
  · exact .inr (.inr ⟨ha, hs, by rw [htrack, if_neg hs]⟩)

/-! ## Bounds on the velocity -/

/-- The step's velocity before a stop respects the acceleration limit. -/
theorem abs_trackVel_sub : |p.trackVel target vmax dt m - m.vel| ≤ p.dvMax dt :=
  abs_slew_sub_le (zero_le_one.trans (p.dvMax_pos dt))

theorem abs_trackVel_le {b : Int} (hv : 0 ≤ vmax) (hvb : vmax ≤ b) (hm : |m.vel| ≤ b) :
    |p.trackVel target vmax dt m| ≤ b :=
  abs_slew_le (zero_le_one.trans (p.dvMax_pos dt)) hm
    ((abs_vWant hv).le.trans ((min_le_left _ _).trans hvb))

variable (p target vmax m) in
/-- A step either arrives and stops, or ends with the ramped velocity. -/
theorem track_vel : (p.track target vmax dt m).vel = 0 ∨
    (p.track target vmax dt m).vel = p.trackVel target vmax dt m := by
  simp only [track]
  split
  · exact .inl rfl
  · exact .inr rfl

theorem abs_track_vel_le {b : Int} (hv : 0 ≤ vmax) (hvb : vmax ≤ b) (hm : |m.vel| ≤ b) :
    |(p.track target vmax dt m).vel| ≤ b := by
  cases track_vel p target vmax dt m with
  | inl h =>
    rw [h, abs_zero]; exact (abs_nonneg _).trans hm
  | inr h =>
    rw [h]; exact abs_trackVel_le dt hv hvb hm

theorem vWant_sq (hv : 0 ≤ vmax) (hp : p.Holds m.pos) (ht : p.Holds target) :
    p.vWant target vmax m.pos ^ 2 ≤ 2 * p.acc * (p.hi - p.lo) := by
  have hdist : |target - m.pos| ≤ p.hi - p.lo := by
    rw [abs_le]; have := hp.1; have := hp.2; have := ht.1; have := ht.2; omega
  have hle : |p.vWant target vmax m.pos| ≤ p.vStop |target - m.pos| := by
    rw [abs_vWant hv]; exact min_le_right _ _
  calc p.vWant target vmax m.pos ^ 2
      = |p.vWant target vmax m.pos| ^ 2 := (sq_abs _).symm
    _ ≤ p.vStop |target - m.pos| ^ 2 := pow_le_pow_left₀ (abs_nonneg _) hle 2
    _ ≤ 2 * p.acc * |target - m.pos| := by rw [sq]; exact vStop_sq (abs_nonneg _)
    _ ≤ 2 * p.acc * (p.hi - p.lo) :=
        Int.mul_le_mul_of_nonneg_left hdist (by have := p.acc_pos; omega)

/-- The speed never exceeds what can be stopped within the travel range. -/
theorem track_vel_sq (hv : 0 ≤ vmax) (hp : p.Holds m.pos) (ht : p.Holds target)
    (hm : m.vel ^ 2 ≤ 2 * p.acc * (p.hi - p.lo)) :
    (p.track target vmax dt m).vel ^ 2 ≤ 2 * p.acc * (p.hi - p.lo) := by
  have hw := p.vWant_sq hv hp ht
  cases track_vel p target vmax dt m with
  | inl h =>
    rw [h]; exact (by positivity : (0 : Int) ≤ m.vel ^ 2).trans' (by norm_num) |>.trans hm
  | inr h =>
    rw [h]
    -- the new speed is at most the larger of the present and the wanted one
    have hmax : |p.trackVel target vmax dt m| ≤ max |m.vel| |p.vWant target vmax m.pos| :=
      abs_slew_le (zero_le_one.trans (p.dvMax_pos dt)) (le_max_left _ _) (le_max_right _ _)
    cases le_max_iff.mp hmax with
    | inl hl => exact (sq_le_sq.mpr hl).trans hm
    | inr hl => exact (sq_le_sq.mpr hl).trans hw

variable {dt} in
theorem abs_track_vel_sub
    (ha : ¬Arrives (target - m.pos) (travel dt (p.trackVel target vmax dt m))) :
    |(p.track target vmax dt m).vel - m.vel| ≤ p.dvMax dt := by
  rw [track_moves ha]; exact abs_trackVel_sub dt

/-! ## Arriving -/

theorem holds_track (ht : p.Holds target) : p.Holds (p.track target vmax dt m).pos := by
  simp only [track]
  split
  · exact ht
  · exact p.holds_clamp _

/-- At rest on the target, tracking changes nothing. -/
theorem track_rest (hv : 0 ≤ vmax) : p.track target vmax dt ⟨target, 0⟩ = ⟨target, 0⟩ := by
  have hd := p.dvMax_pos dt
  have hvel : p.trackVel target vmax dt ⟨target, 0⟩ = 0 := by
    simp only [trackVel, vWant_at hv, slew]; omega
  refine track_arrives (.inr (.inr ⟨?_, ?_⟩))
  · rw [hvel, travel_zero]
  · simp

variable (vmax) in
theorem track_le_target (hp : p.Holds m.pos) (ht : p.Holds target) (h : m.pos < target) :
    (p.track target vmax dt m).pos ≤ target := by
  obtain ⟨-, e⟩ | ⟨-, -, -, e⟩ | ⟨ha, hs, e⟩ := track_cases vmax dt hp ht
  · rw [e]
  · rw [e, Int.sign_eq_one_of_pos (by omega)]; show m.pos + 1 ≤ target; omega
  · rw [e]
    have hc := clamp_add hp (d := travel dt (p.trackVel target vmax dt m))
    cases le_total 0 (travel dt (p.trackVel target vmax dt m)) with
    | inl hnn =>
      have : ¬target - m.pos ≤ travel dt (p.trackVel target vmax dt m) :=
        fun hle => ha (.inl ⟨by omega, hle⟩)
      have := (hc.1 hnn).2
      show p.clamp _ ≤ target; omega
    | inr hnp =>
      have := (hc.2 hnp).2
      show p.clamp _ ≤ target; omega

theorem target_le_track (hv : 0 ≤ vmax) (hp : p.Holds m.pos) (ht : p.Holds target)
    (h : target < m.pos) : target ≤ (p.track target vmax dt m).pos := by
  have hlt : m.mirror.pos < -target := Int.neg_lt_neg h
  have := track_le_target vmax dt (holds_mirror.mpr hp) (holds_mirror.mpr ht) hlt
  rw [track_mirror hv] at this
  simp only [Motion.mirror] at this
  omega

/-- Reaching the target from elsewhere is a stop. -/
theorem track_stop (hp : p.Holds m.pos) (ht : p.Holds target) (hne : m.pos ≠ target)
    (hreach : (p.track target vmax dt m).pos = target) :
    p.track target vmax dt m = ⟨target, 0⟩ := by
  obtain ⟨-, e⟩ | ⟨-, -, herr, e⟩ | ⟨ha, hs, e⟩ := track_cases vmax dt hp ht
  · exact e
  · -- a creeping step starts at least two units away
    exfalso
    rw [e] at hreach
    have hsign : target - m.pos = (target - m.pos).sign := by
      have : m.pos + (target - m.pos).sign = target := hreach
      omega
    rw [hsign, Int.abs_sign_of_ne_zero (by omega)] at herr
    omega
  · -- a cruising step toward the target stops short of it, one away from it stays away
    exfalso
    rw [e] at hreach
    have hreach' : p.clamp (m.pos + travel dt (p.trackVel target vmax dt m)) = target := hreach
    have hc := clamp_add hp (d := travel dt (p.trackVel target vmax dt m))
    simp only [Arrives, not_or, not_and] at ha
    cases le_total 0 (travel dt (p.trackVel target vmax dt m)) with
    | inl hnn =>
      have := hc.1 hnn; have := ha.1; omega
    | inr hnp =>
      have := hc.2 hnp; have := ha.2.1; omega

/-! ## Distance covered -/

/-- A tracking step covers no more than `b` allows, unless it creeps although more than one unit
is left; the last unit before a stop is free. -/
theorem abs_track_pos_sub {b : Int} (hv : 0 ≤ vmax) (hvb : vmax ≤ b) (hm : |m.vel| ≤ b)
    (hp : p.Holds m.pos) (ht : p.Holds target) (h : 1000 ≤ b * dt ∨ |target - m.pos| ≤ 1) :
    1000 * |(p.track target vmax dt m).pos - m.pos| ≤ b * dt ∨
      (p.track target vmax dt m = ⟨target, 0⟩ ∧ |target - m.pos| ≤ 1) := by
  have hvel : |p.trackVel target vmax dt m| ≤ b := abs_trackVel_le dt hv hvb hm
  have hs := abs_travel_le dt hvel
  obtain ⟨ha, e⟩ | ⟨-, -, herr, e⟩ | ⟨-, -, e⟩ := track_cases vmax dt hp ht
  · by_cases hone : |target - m.pos| ≤ 1
    · exact .inr ⟨e, hone⟩
    · left
      rw [e]
      have : |target - m.pos| ≤ |travel dt (p.trackVel target vmax dt m)| := by
        rcases ha with ⟨h0, hle⟩ | ⟨h0, hle⟩ | ⟨-, hle⟩
        · rw [abs_of_pos h0, abs_of_pos (by omega)]; exact hle
        · rw [abs_of_neg h0, abs_of_neg (by omega)]; omega
        · exact absurd hle hone
      show 1000 * |target - m.pos| ≤ b * dt
      omega
  · left
    rw [e]
    have hne : target - m.pos ≠ 0 := fun h0 => by rw [h0, abs_zero] at herr; omega
    show 1000 * |m.pos + (target - m.pos).sign - m.pos| ≤ b * dt
    rw [add_sub_cancel_left, Int.abs_sign_of_ne_zero hne]; omega
  · left
    rw [e]
    have := abs_clamp_add_sub_le hp (d := travel dt (p.trackVel target vmax dt m))
    show 1000 * |p.clamp _ - m.pos| ≤ b * dt
    omega

theorem abs_brake_pos_sub {b : Int} (hm : |m.vel| ≤ b) (hp : p.Holds m.pos) :
    1000 * |(p.brake dt m).pos - m.pos| ≤ b * dt := by
  have hv : |(p.brake dt m).vel| ≤ b := (abs_brake_vel_le dt m).trans hm
  have hs := abs_travel_le dt hv
  have := abs_clamp_add_sub_le hp (d := travel dt (p.brake dt m).vel)
  show 1000 * |p.clamp _ - m.pos| ≤ b * dt
  simp only [brake] at *
  omega

/-! ## Progress -/

/-- A bound on the number of steps until the motion ends: the distance left once the velocity
points to the target; before that, the speed to be taken off plus the whole range. -/
def stepsLeft (p : Plant) (target : Int) (m : Motion) : Int :=
  if m = ⟨target, 0⟩ then 0
  else if (m.pos < target ∧ 0 ≤ m.vel) ∨ (target < m.pos ∧ m.vel ≤ 0) then |target - m.pos|
  else |m.vel| + (p.hi - p.lo)

theorem stepsLeft_le (hp : p.Holds m.pos) (ht : p.Holds target) :
    p.stepsLeft target m ≤ |m.vel| + (p.hi - p.lo) := by
  have hnn := abs_nonneg m.vel
  have hdist : |target - m.pos| ≤ p.hi - p.lo := by
    rw [abs_le]; have := hp.1; have := hp.2; have := ht.1; have := ht.2; omega
  have hrange : 0 ≤ p.hi - p.lo := (abs_nonneg _).trans hdist
  unfold stepsLeft
  split
  · omega
  · split <;> omega

theorem stepsLeft_rest : p.stepsLeft target ⟨target, 0⟩ = 0 := if_pos rfl

theorem stepsLeft_toward (h : m.pos < target) (hm : 0 ≤ m.vel) :
    p.stepsLeft target m = target - m.pos := by
  have hne : m ≠ ⟨target, 0⟩ := by
    intro e
    rw [e] at h
    exact lt_irrefl _ h
  rw [stepsLeft, if_neg hne, if_pos (.inl ⟨h, hm⟩), abs_of_pos (by omega)]

theorem stepsLeft_nonneg (p : Plant) (target : Int) (m : Motion) : 0 ≤ p.stepsLeft target m := by
  have := abs_nonneg m.vel
  have := p.lo_nonpos
  have := p.hi_nonneg
  unfold stepsLeft
  split
  · rfl
  · split
    · exact abs_nonneg _
    · omega

theorem eq_of_stepsLeft_eq_zero (h : p.stepsLeft target m = 0) : m = ⟨target, 0⟩ := by
  have hlo := p.lo_nonpos
  have hhi := p.hi_nonneg
  by_contra hne
  rw [stepsLeft, if_neg hne] at h
  split at h
  · rename_i hdir
    have := abs_eq_zero.mp h
    omega
  · rename_i hdir
    have hv : |m.vel| = 0 := le_antisymm (by omega) (abs_nonneg _)
    have hv0 := abs_eq_zero.mp hv
    exact hne (by obtain ⟨x, v⟩ := m; simp only at hv0 hdir; subst hv0; congr 1; omega)

theorem stepsLeft_mirror : p.mirror.stepsLeft (-target) m.mirror = p.stepsLeft target m := by
  have hrest : m.mirror = ⟨-target, 0⟩ ↔ m = ⟨target, 0⟩ := by
    obtain ⟨x, v⟩ := m
    simp only [Motion.mirror, Motion.mk.injEq]
    omega
  have hdist : |-target - m.mirror.pos| = |target - m.pos| := by
    rw [← abs_neg]; congr 1; simp only [Motion.mirror]; ring
  have hdir : ((m.mirror.pos < -target ∧ 0 ≤ m.mirror.vel) ∨
      (-target < m.mirror.pos ∧ m.mirror.vel ≤ 0)) ↔
      ((m.pos < target ∧ 0 ≤ m.vel) ∨ (target < m.pos ∧ m.vel ≤ 0)) := by
    simp only [Motion.mirror]; omega
  have hrange : |m.mirror.vel| + (p.mirror.hi - p.mirror.lo) = |m.vel| + (p.hi - p.lo) := by
    simp only [Motion.mirror, mirror, abs_neg]; ring
  simp only [stepsLeft, hrest, hdist, hdir, hrange]

theorem trackVel_pos (hv : 0 < vmax) (h : m.pos < target) (hm : 0 ≤ m.vel) :
    1 ≤ p.trackVel target vmax dt m := by
  have hd := p.dvMax_pos dt
  have hw := p.vWant_pos hv h
  rw [trackVel, slew_eq (by omega)]
  omega

theorem lt_trackVel (hv : 0 < vmax) (h : m.pos ≤ target) (hm : m.vel < 0) :
    m.vel < p.trackVel target vmax dt m := by
  have hd := p.dvMax_pos dt
  have hw := p.vWant_nonneg hv h
  rw [trackVel, slew_eq (by omega)]
  omega

/-- With the velocity toward the target, a step gets nearer and keeps the direction. -/
theorem track_toward (hv : 0 < vmax) (hp : p.Holds m.pos) (ht : p.Holds target)
    (h : m.pos < target) (hm : 0 ≤ m.vel) :
    p.track target vmax dt m = ⟨target, 0⟩ ∨
      (m.pos < (p.track target vmax dt m).pos ∧ (p.track target vmax dt m).pos < target ∧
        0 ≤ (p.track target vmax dt m).vel) := by
  have hpos : 1 ≤ p.trackVel target vmax dt m := trackVel_pos dt hv h hm
  have hs := travel_nonneg dt (zero_le_one.trans hpos)
  obtain ⟨-, e⟩ | ⟨-, -, herr, e⟩ | ⟨ha, hs0, e⟩ := track_cases vmax dt hp ht
  · exact .inl e
  · rw [abs_of_pos (by omega)] at herr
    rw [e, Int.sign_eq_one_of_pos (by omega)]
    exact .inr ⟨by show m.pos < m.pos + 1; omega, by show m.pos + 1 < target; omega,
      zero_le_one.trans hpos⟩
  · have hshort : travel dt (p.trackVel target vmax dt m) < target - m.pos := by
      by_contra hle
      exact ha (.inl ⟨by omega, by omega⟩)
    have hin : p.Holds (m.pos + travel dt (p.trackVel target vmax dt m)) :=
      ⟨by have := hp.1; omega, by have := ht.2; omega⟩
    rw [e, clamp_of_holds hin]
    exact .inr ⟨by show m.pos < m.pos + _; omega, by show m.pos + _ < target; omega,
      zero_le_one.trans hpos⟩

/-- With the velocity away from the target, a step brakes, or turns toward the target. -/
theorem track_away (hv : 0 < vmax) (hp : p.Holds m.pos) (ht : p.Holds target)
    (h : m.pos ≤ target) (hm : m.vel < 0) :
    p.track target vmax dt m = ⟨target, 0⟩ ∨ |(p.track target vmax dt m).vel| < |m.vel| ∨
      ((p.track target vmax dt m).pos < target ∧ 0 ≤ (p.track target vmax dt m).vel) := by
  have hlt : m.vel < p.trackVel target vmax dt m := lt_trackVel dt hv h hm
  by_cases hneg : p.trackVel target vmax dt m < 0
  · rcases track_vel p target vmax dt m with e | e <;>
      rw [e, abs_of_neg hm]
    · right; left; simpa using hm
    · right; left; rw [abs_of_neg hneg]; omega
  have hs := travel_nonneg dt (not_lt.mp hneg)
  obtain ⟨-, e⟩ | ⟨-, -, herr, e⟩ | ⟨ha, hs0, e⟩ := track_cases vmax dt hp ht
  · exact .inl e
  · rw [abs_of_nonneg (by omega)] at herr
    rw [e, Int.sign_eq_one_of_pos (by omega)]
    exact .inr (.inr ⟨by show m.pos + 1 < target; omega, not_lt.mp hneg⟩)
  · cases h.lt_or_eq with
    | inl h =>
      have hshort : travel dt (p.trackVel target vmax dt m) < target - m.pos := by
        by_contra hle
        exact ha (.inl ⟨by omega, by omega⟩)
      have := ((clamp_add hp).1 hs).2
      rw [e]
      exact .inr (.inr ⟨by show p.clamp _ < target; omega, not_lt.mp hneg⟩)
    | inr h =>
      -- on the target the wanted velocity is zero, so the step cannot leave it upward
      exfalso
      have hle : p.trackVel target vmax dt m ≤ 0 := by
        have := p.dvMax_pos dt
        rw [trackVel, h, vWant_at hv.le, slew_eq (by omega)]
        omega
      have h0 : p.trackVel target vmax dt m = 0 := by omega
      rw [h0, travel_zero] at hs0
      exact hs0 rfl

theorem stepsLeft_track_of_le (hv : 0 < vmax) (hp : p.Holds m.pos) (ht : p.Holds target)
    (h : (m.pos < target ∧ 0 ≤ m.vel) ∨ (m.pos ≤ target ∧ m.vel < 0)) :
    p.stepsLeft target (p.track target vmax dt m) < p.stepsLeft target m := by
  have hp' : p.Holds (p.track target vmax dt m).pos := holds_track dt ht
  rcases h with ⟨h, hm⟩ | ⟨h, hm⟩
  · rw [stepsLeft_toward h hm]
    rcases track_toward dt hv hp ht h hm with e | ⟨hlo, hhi, hvel⟩
    · rw [e, stepsLeft_rest]; omega
    · rw [stepsLeft_toward hhi hvel]; omega
  · have hne : m ≠ ⟨target, 0⟩ := by
      intro e
      rw [e] at hm
      exact lt_irrefl _ hm
    have hm' : p.stepsLeft target m = |m.vel| + (p.hi - p.lo) := by
      rw [stepsLeft, if_neg hne, if_neg (by omega)]
    have hpos : 0 < |m.vel| := abs_pos.mpr hm.ne
    have hrange := p.lo_nonpos.trans p.hi_nonneg
    rw [hm']
    rcases track_away dt hv hp ht h hm with e | hlt | ⟨hhi, hvel⟩
    · rw [e, stepsLeft_rest]; omega
    · have := stepsLeft_le hp' ht; omega
    · rw [stepsLeft_toward hhi hvel]
      have := hp'.1; have := ht.2; omega

/-- Every tracking step takes at least one off the steps left. -/
theorem stepsLeft_track (hv : 0 < vmax) (hp : p.Holds m.pos) (ht : p.Holds target) :
    p.stepsLeft target (p.track target vmax dt m) ≤ max 0 (p.stepsLeft target m - 1) := by
  by_cases hrest : m = ⟨target, 0⟩
  · rw [hrest, track_rest dt hv.le, stepsLeft_rest]; omega
  by_cases hdir : (m.pos < target ∧ 0 ≤ m.vel) ∨ (m.pos ≤ target ∧ m.vel < 0)
  · have := stepsLeft_track_of_le dt hv hp ht hdir; omega
  · -- the remaining directions are the mirror images
    have hne : ¬(m.pos = target ∧ m.vel = 0) := by
      rintro ⟨hx, hv0⟩
      exact hrest (by obtain ⟨x, v⟩ := m; exact Motion.mk.injEq .. ▸ ⟨hx, hv0⟩)
    have := stepsLeft_track_of_le dt hv (m := m.mirror) (holds_mirror.mpr hp)
      (holds_mirror.mpr ht) (by simp only [Motion.mirror]; omega)
    rw [track_mirror hv.le, stepsLeft_mirror, stepsLeft_mirror] at this
    omega

end Plant
end Rjs
