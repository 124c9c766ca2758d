import Mathlib.Data.Nat.Sqrt
import Mathlib.Tactic.Linarith
import Mathlib.Tactic.Ring
import RobotJointStack.Lib.Slew

/-!
# Joint.Motion

What one control step does to position and velocity, on mathematical integers. A `Plant` is a
travel range around zero with a positive acceleration; a step either brakes or tracks a target.
Both move the velocity with a slew-rate limiter, and the position by the distance travelled in
`dt` milliseconds, rounded toward zero.

* `le_brake_pos`, `brake_pos_le`: braking moves only along the velocity.
* `abs_brake_vel`: braking takes exactly `dv` off the speed, down to zero.
* `track_mirror`: tracking is the same in both directions.
-/

namespace Rjs

open Slew

structure Motion where
  pos : Int
  vel : Int
deriving DecidableEq, Repr

/-- A travel range `[lo, hi]` around zero and an acceleration limit. -/
structure Plant where
  lo : Int
  hi : Int
  acc : Int
  lo_nonpos : lo ≤ 0
  hi_nonneg : 0 ≤ hi
  acc_pos : 0 < acc

/-! ## Distance travelled -/

/-- The distance travelled in `dt` milliseconds at `v` units per second, rounded toward zero. -/
def travel (dt : Nat) (v : Int) : Int := (v * dt).tdiv 1000

theorem travel_neg (dt : Nat) (v : Int) : travel dt (-v) = -travel dt v := by
  simp [travel, Int.neg_tdiv]

@[simp] theorem travel_zero (dt : Nat) : travel dt 0 = 0 := by simp [travel]

theorem travel_of_nonneg {dt : Nat} {v : Int} (hv : 0 ≤ v) : travel dt v = v * dt / 1000 :=
  Int.tdiv_eq_ediv_of_nonneg (Int.mul_nonneg hv (by omega))

theorem travel_nonneg (dt : Nat) {v : Int} (hv : 0 ≤ v) : 0 ≤ travel dt v := by
  have : 0 ≤ v * dt := Int.mul_nonneg hv (by omega)
  rw [travel_of_nonneg hv]; omega

theorem travel_nonpos (dt : Nat) {v : Int} (hv : v ≤ 0) : travel dt v ≤ 0 := by
  have := travel_nonneg dt (v := -v) (by omega)
  rw [travel_neg] at this; omega

theorem abs_travel (dt : Nat) (v : Int) : |travel dt v| = travel dt |v| := by
  cases le_total 0 v with
  | inl hv => rw [abs_of_nonneg hv, abs_of_nonneg (travel_nonneg dt hv)]
  | inr hv => rw [abs_of_nonpos hv, abs_of_nonpos (travel_nonpos dt hv), travel_neg]

/-- Rounding toward zero never lengthens the way. -/
theorem abs_travel_le (dt : Nat) {v m : Int} (h : |v| ≤ m) : 1000 * |travel dt v| ≤ m * dt := by
  have hmul : |v| * dt ≤ m * dt := Int.mul_le_mul_of_nonneg_right h (by omega)
  rw [abs_travel, travel_of_nonneg (abs_nonneg v)]
  omega

namespace Plant

variable (p : Plant)

/-- The range position and target are confined to. -/
def Holds (x : Int) : Prop := p.lo ≤ x ∧ x ≤ p.hi

def clamp (x : Int) : Int := max p.lo (min p.hi x)

/-- The velocity change the acceleration allows in `dt` milliseconds, rounded down. -/
def dv (dt : Nat) : Int := p.acc * dt / 1000

/-- The same, but never below one: the limit that tracking uses. -/
def dvMax (dt : Nat) : Int := max 1 (p.dv dt)

theorem holds_zero : p.Holds 0 := ⟨p.lo_nonpos, p.hi_nonneg⟩

theorem holds_clamp (x : Int) : p.Holds (p.clamp x) :=
  ⟨le_max_left _ _, max_le (p.lo_nonpos.trans p.hi_nonneg) (min_le_left _ _)⟩

variable {p}

theorem clamp_of_holds {x : Int} (h : p.Holds x) : p.clamp x = x := by
  rw [clamp, min_eq_right h.2, max_eq_right h.1]

/-- Clamping a move that starts inside the range only shortens it. -/
theorem clamp_add {x d : Int} (h : p.Holds x) :
    (0 ≤ d → x ≤ p.clamp (x + d) ∧ p.clamp (x + d) ≤ x + d) ∧
      (d ≤ 0 → x + d ≤ p.clamp (x + d) ∧ p.clamp (x + d) ≤ x) := by
  obtain ⟨hl, hh⟩ := h
  simp only [clamp]
  omega

theorem abs_clamp_add_sub_le {x d : Int} (h : p.Holds x) : |p.clamp (x + d) - x| ≤ |d| := by
  have hc := clamp_add h (d := d)
  cases le_total 0 d with
  | inl hd => rw [abs_of_nonneg hd, abs_of_nonneg] <;> have := hc.1 hd <;> omega
  | inr hd => rw [abs_of_nonpos hd, abs_of_nonpos] <;> have := hc.2 hd <;> omega

theorem dv_nonneg (dt : Nat) : 0 ≤ p.dv dt := by
  have : 0 ≤ p.acc * dt := Int.mul_nonneg p.acc_pos.le (by omega)
  unfold dv; omega

theorem dvMax_pos (dt : Nat) : 1 ≤ p.dvMax dt := le_max_left _ _

theorem dv_le_dvMax (dt : Nat) : p.dv dt ≤ p.dvMax dt := le_max_right _ _

/-! ## Braking -/

variable (p) in
/-- One step without a command: slew the velocity toward zero and coast. -/
def brake (dt : Nat) (m : Motion) : Motion :=
  let v := slew (p.dv dt) m.vel 0
  ⟨p.clamp (m.pos + travel dt v), v⟩

theorem brake_vel_nonneg (dt : Nat) {m : Motion} (hv : 0 ≤ m.vel) :
    (p.brake dt m).vel = max 0 (m.vel - p.dv dt) := by
  have := p.dv_nonneg dt
  simp only [brake, slew]
  omega

theorem brake_vel_nonpos (dt : Nat) {m : Motion} (hv : m.vel ≤ 0) :
    (p.brake dt m).vel = min 0 (m.vel + p.dv dt) := by
  have := p.dv_nonneg dt
  simp only [brake, slew]
  omega

/-- Braking takes exactly `dv` off the speed, down to zero. -/
theorem abs_brake_vel (dt : Nat) (m : Motion) :
    |(p.brake dt m).vel| = max 0 (|m.vel| - p.dv dt) := by
  have := p.dv_nonneg dt
  cases le_total 0 m.vel with
  | inl hv => rw [brake_vel_nonneg dt hv, abs_of_nonneg (le_max_left _ _), abs_of_nonneg hv]
  | inr hv =>
    rw [brake_vel_nonpos dt hv, abs_of_nonpos (min_le_left _ _), abs_of_nonpos hv]; omega

theorem abs_brake_vel_le (dt : Nat) (m : Motion) : |(p.brake dt m).vel| ≤ |m.vel| := by
  have := p.dv_nonneg dt
  have := abs_nonneg m.vel
  rw [abs_brake_vel]; omega

/-- Braking moves only along the velocity it leaves. -/
theorem le_brake_pos (dt : Nat) {m : Motion} (h : p.Holds m.pos) (hv : 0 ≤ (p.brake dt m).vel) :
    m.pos ≤ (p.brake dt m).pos := ((clamp_add h).1 (travel_nonneg dt hv)).1

theorem brake_pos_le (dt : Nat) {m : Motion} (h : p.Holds m.pos) (hv : (p.brake dt m).vel ≤ 0) :
    (p.brake dt m).pos ≤ m.pos := ((clamp_add h).2 (travel_nonpos dt hv)).2

/-- At rest, braking changes nothing. -/
theorem brake_rest (dt : Nat) {m : Motion} (h : p.Holds m.pos) (hv : m.vel = 0) :
    p.brake dt m = m := by
  have hv' : slew (p.dv dt) 0 0 = 0 := by have := p.dv_nonneg dt; simp only [slew]; omega
  obtain ⟨x, v⟩ := m
  obtain rfl : v = 0 := hv
  simp only [brake, hv', travel_zero, Int.add_zero, clamp_of_holds h]

/-! ## Tracking a target -/

variable (p) in
/-- The largest speed from which the plant can stop within `d`: `v^2 = 2 * acc * d`. -/
def vStop (d : Int) : Int := Nat.sqrt (2 * p.acc * d).toNat

variable (p) in
/-- The wanted velocity: toward the target, at most `vmax` and at most `vStop`. -/
def vWant (target vmax x : Int) : Int :=
  let err := target - x
  let vLimit := min vmax (p.vStop |err|)
  if 0 < err then vLimit else -vLimit

/-- A step of length `s` reaches a target at distance `err`: it covers the distance, or it rounds
to nothing with at most one unit to go. -/
def Arrives (err s : Int) : Prop :=
  (0 < err ∧ err ≤ s) ∨ (err < 0 ∧ s ≤ err) ∨ (s = 0 ∧ |err| ≤ 1)

instance (err s : Int) : Decidable (Arrives err s) := by unfold Arrives; infer_instance

variable (p) in
def trackVel (target vmax : Int) (dt : Nat) (m : Motion) : Int :=
  slew (p.dvMax dt) m.vel (p.vWant target vmax m.pos)

variable (p) in
/-- One step in position mode. A step that rounds to nothing still creeps one unit. -/
def track (target vmax : Int) (dt : Nat) (m : Motion) : Motion :=
  let err := target - m.pos
  let v := p.trackVel target vmax dt m
  let s := travel dt v
  if Arrives err s then ⟨target, 0⟩
  else ⟨p.clamp (m.pos + if s = 0 then err.sign else s), v⟩

theorem vStop_nonneg (d : Int) : 0 ≤ p.vStop d := Int.natCast_nonneg _

theorem vStop_zero : p.vStop 0 = 0 := by simp [vStop]

theorem vStop_pos {d : Int} (hd : 0 < d) : 1 ≤ p.vStop d := by
  have h : 0 < 2 * p.acc * d := Int.mul_pos (by have := p.acc_pos; omega) hd
  have : 0 < Nat.sqrt (2 * p.acc * d).toNat := Nat.sqrt_pos.mpr (by omega)
  simp only [vStop]; omega

theorem vStop_sq {d : Int} (hd : 0 ≤ d) : p.vStop d * p.vStop d ≤ 2 * p.acc * d := by
  have h : 0 ≤ 2 * p.acc * d := Int.mul_nonneg (by have := p.acc_pos; omega) hd
  have hs := Nat.sqrt_le (2 * p.acc * d).toNat
  simp only [vStop]
  zify at hs
  omega

section Wanted

variable {target vmax x : Int}

theorem abs_vWant (hv : 0 ≤ vmax) :
    |p.vWant target vmax x| = min vmax (p.vStop |target - x|) := by
  have hnn : 0 ≤ min vmax (p.vStop |target - x|) := le_min hv (vStop_nonneg _)
  simp only [vWant]
  split
  · exact abs_of_nonneg hnn
  · rw [abs_neg, abs_of_nonneg hnn]

theorem vWant_pos (hv : 0 < vmax) (h : x < target) : 1 ≤ p.vWant target vmax x := by
  have herr : 0 < target - x := by omega
  rw [vWant, if_pos herr]
  exact le_min hv (vStop_pos (abs_pos.mpr herr.ne'))

theorem vWant_at (hv : 0 ≤ vmax) : p.vWant target vmax target = 0 := by
  rw [vWant, Int.sub_self, if_neg (lt_irrefl 0), abs_zero, vStop_zero, min_eq_right hv]
  rfl

theorem vWant_nonneg (hv : 0 < vmax) (h : x ≤ target) : 0 ≤ p.vWant target vmax x := by
  rcases h.lt_or_eq with h | rfl
  · have := p.vWant_pos hv h; omega
  · rw [vWant_at hv.le]

end Wanted

/-! ### Mirroring: the same motion with the direction reversed -/

end Plant

def Motion.mirror (m : Motion) : Motion := ⟨-m.pos, -m.vel⟩

def Plant.mirror (p : Plant) : Plant where
  lo := -p.hi
  hi := -p.lo
  acc := p.acc
  lo_nonpos := by have := p.hi_nonneg; omega
  hi_nonneg := by have := p.lo_nonpos; omega
  acc_pos := p.acc_pos

namespace Plant

variable {p : Plant} {target vmax : Int} {dt : Nat} {m : Motion}

theorem holds_mirror {x : Int} : p.mirror.Holds (-x) ↔ p.Holds x := by
  simp only [Holds, mirror]
  omega

theorem clamp_mirror (x : Int) : p.mirror.clamp (-x) = -p.clamp x := by
  have hlo := p.lo_nonpos
  have hhi := p.hi_nonneg
  simp only [clamp, mirror]
  omega

theorem vWant_mirror (hv : 0 ≤ vmax) (x : Int) :
    p.mirror.vWant (-target) vmax (-x) = -p.vWant target vmax x := by
  have habs : |(-target) - (-x)| = |target - x| := by rw [← abs_neg]; congr 1; ring
  have hs : ∀ d, p.mirror.vStop d = p.vStop d := fun _ => rfl
  simp only [vWant, habs, hs]
  rcases lt_trichotomy 0 (target - x) with h | h | h
  · rw [if_neg (by omega), if_pos h]
  · rw [← h, abs_zero, vStop_zero, min_eq_right hv]; simp
  · rw [if_pos (by omega), if_neg (by omega), neg_neg]

theorem arrives_neg {err s : Int} : Arrives (-err) (-s) ↔ Arrives err s := by
  simp only [Arrives, abs_neg]; omega

theorem trackVel_mirror (hv : 0 ≤ vmax) :
    p.mirror.trackVel (-target) vmax dt m.mirror = -p.trackVel target vmax dt m := by
  have hd : (0 : Int) ≤ p.dvMax dt := zero_le_one.trans (p.dvMax_pos dt)
  rw [trackVel, trackVel, ← slew_neg hd]
  congr 1
  exact vWant_mirror hv _

/-- Tracking is the same in both directions. -/
theorem track_mirror (hv : 0 ≤ vmax) :
    p.mirror.track (-target) vmax dt m.mirror = (p.track target vmax dt m).mirror := by
  have herr : -target - m.mirror.pos = -(target - m.pos) := by simp only [Motion.mirror]; ring
  simp only [track, trackVel_mirror hv, travel_neg, herr, arrives_neg, Int.sign_neg]
  split
  · rfl
  · simp only [Motion.mirror, Motion.mk.injEq, and_true, ← clamp_mirror]
    congr 1
    split <;> split <;> omega

end Plant

end Rjs
