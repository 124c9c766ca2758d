import Mathlib.Tactic.Linarith
import RobotJointStack.Joint.Limits

/-!
# Joint.Reach

A joint never leaves the range of its targets. The velocity toward a target is one from which the
joint could stop there; but it is taken back in steps, and a joint that is turned round, disabled
or left without commands has to brake from it. The distances are rounded down in every step, and
with the acceleration and the period of `control_task` that makes up for it.

* `way_le`: the way of a braking motion against its speed.
* `stopsBelow_brake`, `stopsBelow_track`: a step keeps the point where braking would end.
* `reach`: so the joint stays inside.
-/

namespace Rjs

/-! ## The way of a braking motion -/

/-- The distance of `k` steps of 1 ms, the first at velocity `v` and each 360 mdeg/s slower than the
one before. -/
def way : Nat → Nat → Nat
  | 0, _ => 0
  | k + 1, v => v / 1000 + way k (v - 360)

theorem way_of_lt {v : Nat} (h : v < 1000) (k : Nat) : way k v = 0 := by
  induction k generalizing v with
  | zero => rfl
  | succ k ih => rw [way, Nat.div_eq_of_lt h, ih (by omega)]

theorem way_add (a b v : Nat) : way (a + b) v = way a v + way b (v - 360 * a) := by
  induction a generalizing v with
  | zero => simp [way]
  | succ a ih =>
    have hsub : v - 360 - 360 * a = v - 360 * (a + 1) := by omega
    rw [Nat.add_right_comm, way, ih, hsub, way, Nat.add_assoc]

/-- A thousand more all the way is one more in every step. -/
theorem way_add_mul {k v : Nat} (h : 360 * k ≤ v + 360) (q : Nat) :
    way k (v + 1000 * q) = way k v + k * q := by
  induction k generalizing v with
  | zero => simp [way]
  | succ k ih =>
    have hdiv : (v + 1000 * q) / 1000 = v / 1000 + q := Nat.add_mul_div_left v q (by decide)
    rw [way, way, hdiv]
    by_cases hk : k = 0
    · subst hk; simp [way]
    · have hsub : v + 1000 * q - 360 = v - 360 + 1000 * q := by omega
      rw [hsub, ih (by omega)]
      ring

/-- 360 and 1000 are multiples of 40, so nothing less counts. -/
theorem way_forty (k v : Nat) : way k v = way k (40 * (v / 40)) := by
  induction k generalizing v with
  | zero => rfl
  | succ k ih =>
    have hdiv : v / 1000 = 40 * (v / 40) / 1000 := by omega
    have hsub : 40 * ((v - 360) / 40) = 40 * (v / 40) - 360 := by omega
    rw [way, way, ← hdiv, ih, hsub]

theorem way_base {v : Nat} (hv : v < 9000) : 720000 * way 25 v ≤ v * v := by
  have hbase : ∀ a < 225, 720000 * way 25 (40 * a) ≤ 40 * a * (40 * a) := by decide +kernel
  rw [way_forty]
  exact (hbase (v / 40) (by omega)).trans (Nat.mul_le_mul (by omega) (by omega))

/-- Twenty-five steps take off 9000 mdeg/s, and the velocities in them leave every remainder by 1000
that they can leave. -/
theorem way_row (v : Nat) : 720000 * way 25 (v + 9000) ≤ 18000 * v + 81000000 := by
  have hrow : ∀ a < 25, 720000 * way 25 (40 * a + 9000) ≤ 18000 * (40 * a) + 81000000 := by
    decide +kernel
  have hr := hrow (v % 1000 / 40) (by omega)
  have hv : 40 * ((v + 9000) / 40) = 40 * (v % 1000 / 40) + 9000 + 1000 * (v / 1000) := by omega
  rw [way_forty, hv, way_add_mul (by omega)]
  omega

/-- **Braking distance.** A motion covers no more than its speed allows without rounding and with a
velocity that falls all the time. -/
theorem way_le (k v : Nat) : 720000 * way k v ≤ v * v := by
  induction v using Nat.strong_induction_on generalizing k with
  | _ v ih =>
    have hmore : way k v ≤ way 25 v + way k (v - 9000) := by
      rw [show v - 9000 = v - 360 * 25 from rfl, ← way_add, Nat.add_comm, way_add]
      exact Nat.le_add_right _ _
    by_cases hv : v < 9000
    · have hzero : way k (v - 9000) = 0 := way_of_lt (by omega) k
      have hbase := way_base hv
      omega
    · obtain ⟨u, rfl⟩ := Nat.exists_eq_add_of_le' (Nat.not_lt.mp hv)
      have hrest := ih u (by omega) k
      have hrow := way_row u
      have hsq : (u + 9000) * (u + 9000) = u * u + 18000 * u + 81000000 := by ring
      rw [Nat.add_sub_cancel] at hmore
      omega

/-! ## One step -/

/-- Wherever braking in steps of 1 ms takes the motion, it does not pass `edge`. -/
def StopsBelow (edge : Int) (m : Motion) : Prop :=
  ∀ k, m.pos + way k (m.vel.toNat - 360) ≤ edge

namespace StopsBelow

variable {edge : Int} {m : Motion}

theorem pos_le (h : StopsBelow edge m) : m.pos ≤ edge := by
  simpa [way] using h 0

theorem of_slow (hpos : m.pos ≤ edge) (hvel : m.vel < 1000) : StopsBelow edge m := by
  intro k
  rw [way_of_lt (by omega)]
  simpa using hpos

/-- A velocity reduced by the acceleration of one step, and the way it takes in that step. -/
theorem slowed {x x' v : Int} (h : StopsBelow edge ⟨x, v + 360⟩) (hv : 0 ≤ v)
    (hx : x' ≤ x + v / 1000) : StopsBelow edge ⟨x', v⟩ := by
  intro k
  have hk := h (k + 1)
  have hsub : (v + 360).toNat - 360 = v.toNat := by omega
  rw [hsub, way] at hk
  dsimp only at hk ⊢
  omega

/-- A velocity from which the joint can stop at a target. -/
theorem of_stoppable {target x x' v : Int} (hv : 0 ≤ v) (hx : x' ≤ x + v / 1000)
    (hsq : v * v ≤ 720000 * (target - x)) (ht : target ≤ edge) : StopsBelow edge ⟨x', v⟩ := by
  intro k
  have hway := way_le (k + 1) v.toNat
  rw [way] at hway
  zify at hway
  rw [Int.toNat_of_nonneg hv] at hway
  dsimp only
  omega

end StopsBelow

namespace Plant

open Slew

variable {p : Plant} {edge target vmax : Int} {m : Motion}

theorem dv_one (hacc : p.acc = 360000) : p.dv 1 = 360 := by
  rw [dv, hacc]
  decide

theorem dvMax_one (hacc : p.acc = 360000) : p.dvMax 1 = 360 := by
  rw [dvMax, dv_one hacc]
  decide

/-- A move of one millisecond in the direction of the velocity. -/
theorem clamp_travel_le {x v : Int} (hp : p.Holds x) (hv : 0 ≤ v) :
    p.clamp (x + travel 1 v) ≤ x + v / 1000 := by
  have h := ((clamp_add hp).1 (travel_nonneg 1 hv)).2
  rw [travel_of_nonneg hv, Nat.cast_one, mul_one] at h ⊢
  exact h

theorem stopsBelow_brake (hacc : p.acc = 360000) (hp : p.Holds m.pos) (h : StopsBelow edge m) :
    StopsBelow edge (p.brake 1 m) := by
  by_cases hv : 360 ≤ m.vel
  · have hvel := p.brake_vel_nonneg 1 (m := m) (by omega)
    rw [dv_one hacc, max_eq_right (by omega)] at hvel
    have hm : p.brake 1 m = ⟨(p.brake 1 m).pos, m.vel - 360⟩ := by rw [← hvel]
    have hpos : (p.brake 1 m).pos ≤ m.pos + (p.brake 1 m).vel / 1000 :=
      clamp_travel_le hp (show 0 ≤ (p.brake 1 m).vel by omega)
    rw [hvel] at hpos
    rw [hm]
    refine StopsBelow.slowed ?_ (by omega) hpos
    rw [Int.sub_add_cancel]
    exact h
  · have hvel : (p.brake 1 m).vel ≤ 0 := by
      cases le_total 0 m.vel with
      | inl h0 =>
        rw [p.brake_vel_nonneg 1 h0, dv_one hacc]; omega
      | inr h0 =>
        rw [p.brake_vel_nonpos 1 h0]; exact min_le_left _ _
    exact .of_slow ((brake_pos_le 1 hp hvel).trans h.pos_le) (by omega)

/-- Braking is the same in both directions. -/
theorem brake_mirror (dt : Nat) (m : Motion) :
    p.mirror.brake dt m.mirror = (p.brake dt m).mirror := by
  have hslew : slew (p.dv dt) (-m.vel) 0 = -slew (p.dv dt) m.vel 0 := by
    rw [← slew_neg (p.dv_nonneg dt), neg_zero]
  show Motion.mk (p.mirror.clamp (-m.pos + travel dt (slew (p.dv dt) (-m.vel) 0))) _ = _
  rw [hslew, travel_neg, ← neg_add, clamp_mirror]
  exact congrArg (Motion.mk _) hslew

/-- What the velocity of a tracking step can be, if it goes up: still slowing down, or slow enough
to stop at the target. -/
theorem trackVel_up (hacc : p.acc = 360000) (hvmax : 0 ≤ vmax)
    (h0 : 0 < p.trackVel target vmax 1 m) :
    p.trackVel target vmax 1 m + 360 = m.vel ∨
      (m.pos < target ∧
        p.trackVel target vmax 1 m * p.trackVel target vmax 1 m ≤ 720000 * (target - m.pos)) := by
  by_cases hslow : p.trackVel target vmax 1 m + 360 = m.vel
  · exact .inl hslow
  right
  have hle : p.trackVel target vmax 1 m ≤ p.vWant target vmax m.pos := by
    revert hslow
    simp only [trackVel, dvMax_one hacc, slew]
    split <;> split <;> omega
  have herr : 0 < target - m.pos := by
    by_contra hneg
    have hlimit := le_min hvmax (p.vStop_nonneg |target - m.pos|)
    rw [vWant, if_neg hneg] at hle
    omega
  have hstop := p.vStop_sq herr.le
  rw [vWant, if_pos herr, abs_of_pos herr] at hle
  have hleStop := hle.trans (min_le_right _ _)
  refine ⟨by omega, ?_⟩
  calc p.trackVel target vmax 1 m * p.trackVel target vmax 1 m
      ≤ p.vStop (target - m.pos) * p.vStop (target - m.pos) :=
        Int.mul_le_mul hleStop hleStop h0.le (p.vStop_nonneg _)
    _ ≤ 2 * p.acc * (target - m.pos) := hstop
    _ = 720000 * (target - m.pos) := by rw [hacc]; norm_num

theorem stopsBelow_track (hacc : p.acc = 360000) (hvmax : 0 ≤ vmax) (hinside : target ≤ edge)
    (hp : p.Holds m.pos) (ht : p.Holds target) (h : StopsBelow edge m) :
    StopsBelow edge (p.track target vmax 1 m) := by
  have hpos := h.pos_le
  have hup : 0 < p.trackVel target vmax 1 m → _ := trackVel_up hacc hvmax
  obtain ⟨-, e⟩ | ⟨-, hs, herr, e⟩ | ⟨-, -, e⟩ := track_cases vmax 1 hp ht
  · rw [e]
    exact .of_slow hinside (by dsimp only; omega)
  · -- a creeping step goes one unit toward the target, which is further away
    rw [e]
    refine .of_slow ?_ ?_
    · dsimp only
      rcases lt_trichotomy 0 (target - m.pos) with hlt | heq | hgt
      · rw [abs_of_pos hlt] at herr
        rw [Int.sign_eq_one_of_pos hlt]; omega
      · rw [← heq]; simpa using hpos
      · rw [Int.sign_eq_neg_one_of_neg hgt]; omega
    · dsimp only
      by_contra hge
      rw [travel_of_nonneg (by omega)] at hs
      omega
  · rw [e]
    generalize p.trackVel target vmax 1 m = v at hup
    by_cases h0 : 0 < v
    · have hx := clamp_travel_le hp h0.le
      obtain hslow | ⟨-, hsq⟩ := hup h0
      · exact StopsBelow.slowed (by rw [hslow]; exact h) h0.le hx
      · exact .of_stoppable h0.le hx hsq hinside
    · refine .of_slow (((clamp_add hp).2 (travel_nonpos 1 (not_lt.mp h0))).2.trans hpos) ?_
      dsimp only
      omega

end Plant

/-! ## Runs -/

/-- Commands to targets from `lo` to `hi`, and steps of one millisecond. -/
def JointAction.Within (lo hi : Int) : JointAction → Prop
  | .command cmd => cmd.1.mode = JointMode.position.code →
    lo ≤ cmd.1.targetMdeg.toInt ∧ cmd.1.targetMdeg.toInt ≤ hi
  | .step dtMs => dtMs = 1

instance (lo hi : Int) : ∀ a, Decidable (JointAction.Within lo hi a)
  | .command cmd => inferInstanceAs (Decidable (cmd.1.mode = JointMode.position.code →
      lo ≤ cmd.1.targetMdeg.toInt ∧ cmd.1.targetMdeg.toInt ≤ hi))
  | .step dtMs => inferInstanceAs (Decidable (dtMs = 1))

namespace Joint

/-- The joint heads for a target from `lo` to `hi` and can be stopped there in both directions. -/
structure Confined (p : Plant) (lo hi : Int) (j : Joint) : Prop where
  safe : j.Safe p
  zero : lo ≤ 0 ∧ 0 ≤ hi
  heads : lo ≤ j.targetMdeg.toInt ∧ j.targetMdeg.toInt ≤ hi
  above : StopsBelow hi j.motion
  below : StopsBelow (-lo) j.motion.mirror

variable {p : Plant} {lo hi : Int} {j : Joint}

theorem confined_command (h : Confined p lo hi j) (cmd : AcceptedCommand)
    (hcmd : (JointAction.command cmd).Within lo hi) : Confined p lo hi (j.command cmd.1) where
  safe := safe_command h.safe cmd
  zero := h.zero
  heads := by
    rw [command_target]
    split
    · -- a target beyond the soft limits comes back toward zero, which is in the range
      rename_i hm
      have hin := hcmd hm
      have hzero := h.zero
      have hlo := p.lo_nonpos
      have hhi := p.hi_nonneg
      rw [toInt_clamp32 h.safe.lo h.safe.hi, Int32.toInt_toInt64]
      simp only [Plant.clamp]
      omega
    · exact h.heads
  above := by rw [command_motion]; exact h.above
  below := by rw [command_motion]; exact h.below

/-- A step, seen from both ends of the range. -/
theorem confined_step (hacc : p.acc = 360000) (h : Confined p lo hi j) :
    Confined p lo hi (j.step 1) := by
  have hpos : p.Holds j.motion.pos := h.safe.pos
  have hmirror := Plant.holds_mirror.mpr hpos
  refine ⟨safe_step h.safe 1, h.zero, by rw [step_target]; exact h.heads, ?_, ?_⟩
  · obtain ⟨-, -, e⟩ | ⟨-, -, -, e⟩ := motion_step h.safe (show (1 : UInt32) ≠ 0 by decide)
    · rw [e]
      exact Plant.stopsBelow_brake hacc hpos h.above
    · rw [e]
      exact Plant.stopsBelow_track hacc h.safe.vmax h.heads.2 hpos h.safe.target h.above
  · obtain ⟨-, -, e⟩ | ⟨-, -, -, e⟩ := motion_step h.safe (show (1 : UInt32) ≠ 0 by decide)
    · rw [e, UInt32.toNat_one, ← Plant.brake_mirror]
      exact Plant.stopsBelow_brake hacc hmirror h.below
    · rw [e, UInt32.toNat_one, ← Plant.track_mirror h.safe.vmax]
      exact Plant.stopsBelow_track hacc h.safe.vmax (neg_le_neg h.heads.1) hmirror
        (Plant.holds_mirror.mpr h.safe.target) h.below

theorem confined_run (hacc : p.acc = 360000) {acts : List JointAction}
    (hacts : ∀ a ∈ acts, a.Within lo hi) (h : Confined p lo hi j) :
    Confined p lo hi (j.run acts) := by
  induction acts generalizing j with
  | nil => exact h
  | cons a acts ih =>
    rw [List.forall_mem_cons] at hacts
    refine ih hacts.2 ?_
    cases a with
    | command cmd => exact confined_command h cmd hacts.1
    | step dt =>
      obtain rfl : dt = 1 := hacts.1
      exact confined_step hacc h

theorem confined_init {cfg : JointConfig} (hcfg : cfg.HoldsZero) (hlo : lo ≤ 0) (hhi : 0 ≤ hi) :
    Confined (cfg.plant hcfg) lo hi (init cfg) := by
  have hrest : ∀ edge : Int, 0 ≤ edge → StopsBelow edge ⟨0, 0⟩ :=
    fun _ hedge => .of_slow hedge (by decide)
  exact ⟨safe_init cfg hcfg, ⟨hlo, hhi⟩, ⟨hlo, hhi⟩, hrest hi hhi,
    hrest (-lo) (Int.neg_nonneg_of_nonpos hlo)⟩

theorem Confined.pos (h : Confined p lo hi j) :
    lo ≤ j.positionMdeg.toInt ∧ j.positionMdeg.toInt ≤ hi :=
  ⟨neg_le_neg_iff.mp h.below.pos_le, h.above.pos_le⟩

/-- **The reach of a joint.** In steps of one millisecond and with the acceleration limit of
`control_task`, a joint never leaves the range from the least to the greatest target commanded so
far, the zero from which it starts among them, whatever the velocities commanded and however often
it is turned round, disabled or left without commands. -/
theorem reach {cfg : JointConfig} (hcfg : cfg.HoldsZero) (hacc : cfg.accelMdegS2 = 360000)
    (hlo : lo ≤ 0) (hhi : 0 ≤ hi) {acts : List JointAction}
    (hacts : ∀ a ∈ acts, a.Within lo hi) :
    lo ≤ ((init cfg).run acts).positionMdeg.toInt ∧
      ((init cfg).run acts).positionMdeg.toInt ≤ hi := by
  have hplant : (cfg.plant hcfg).acc = 360000 := by
    simp only [JointConfig.plant, init, hacc]
    decide
  exact (confined_run hplant hacts (confined_init hcfg hlo hhi)).pos

/-- Turned round on the way, and on the one side of zero throughout. -/
theorem reach_turned :
    let j := (init ⟨-170000, 170000, 360000, 500⟩).run
      [.command ⟨⟨1, 90000, 90000, 1⟩, decoderAccepts_iff.mpr (by decide)⟩, .step 1, .step 1,
        .command ⟨⟨1, 0, 90000, 2⟩, decoderAccepts_iff.mpr (by decide)⟩, .step 1, .step 1]
    0 ≤ j.positionMdeg.toInt ∧ j.positionMdeg.toInt ≤ 90000 :=
  @reach 0 90000 ⟨-170000, 170000, 360000, 500⟩ (by decide) rfl le_rfl (by decide) _
    (by decide +kernel)

end Joint

end Rjs
