import RobotJointStack.Joint.Reach
import RobotJointStack.Joint.Timeout

/-!
# Joint.Standstill

How long a joint moves without commands, at the acceleration and the period of `control_task`: its
time limit runs out, and from then on it takes 360 mdeg/s off its velocity in every step.

* `attended_step`: one step without a command is one step less.
* `Attended.rest`: so when they are over, the joint is disabled and stands still.
-/

namespace Rjs
namespace Joint

/-- A joint that is at most `top` fast and in position mode has not passed its time limit. -/
structure Attended (p : Plant) (top : Int) (timeoutMs : UInt32) (j : Joint) : Prop where
  safe : j.Safe p
  limit : j.maxVelocityMdegS.toInt ≤ top
  speed : |j.motion.vel| ≤ top
  timed : j.cfg.commandTimeoutMs = timeoutMs
  timer : j.mode = JointMode.position.code → j.sinceCommandMs ≤ timeoutMs

/-- The steps in which a speed is taken off. -/
def brakeSteps (speed : Int) : Nat := ((speed + 359) / 360).toNat

/-- The steps of a millisecond until the joint stands still, if no command comes; at most, for one
that may still speed up to `top`. -/
def stepsToRest (top : Int) (timeoutMs : UInt32) (j : Joint) : Nat :=
  if j.mode = JointMode.position.code then
    timeoutMs.toNat + 1 - j.sinceCommandMs.toNat + brakeSteps top
  else brakeSteps |j.motion.vel|

variable {p : Plant} {top : Int} {timeoutMs : UInt32} {j : Joint}

theorem brakeSteps_mono {a b : Int} (h : a ≤ b) : brakeSteps a ≤ brakeSteps b := by
  unfold brakeSteps
  omega

theorem attended_command (h : Attended p top timeoutMs j) (cmd : AcceptedCommand)
    (hcmd : cmd.1.mode = JointMode.position.code → cmd.1.maxVelocityMdegS.toInt ≤ top) :
    Attended p top timeoutMs (j.command cmd.1) where
  safe := safe_command h.safe cmd
  limit := by
    rw [command_vmax]
    split
    · rename_i hm
      exact hcmd hm
    · exact h.limit
  speed := by rw [command_motion]; exact h.speed
  timed := by rw [command_cfg]; exact h.timed
  timer _ := by rw [command_since]; exact UInt32.zero_le

theorem attended_init {cfg : JointConfig} (hcfg : cfg.HoldsZero) (htop : 0 ≤ top) :
    Attended (cfg.plant hcfg) top cfg.commandTimeoutMs (init cfg) where
  safe := safe_init cfg hcfg
  limit := htop
  speed := htop
  timed := rfl
  timer := nofun

/-- One step without a command. -/
theorem attended_step (hacc : p.acc = 360000) (htimed : timeoutMs ≠ 0)
    (hwrap : timeoutMs.toNat + 1 < 2 ^ 32) (h : Attended p top timeoutMs j) :
    Attended p top timeoutMs (j.step 1) ∧
      stepsToRest top timeoutMs (j.step 1) ≤ stepsToRest top timeoutMs j - 1 := by
  have hspeed := abs_step_vel_le h.safe h.limit h.speed 1
  have hkeep (htimer : (j.step 1).mode = JointMode.position.code →
      (j.step 1).sinceCommandMs ≤ timeoutMs) : Attended p top timeoutMs (j.step 1) :=
    ⟨safe_step h.safe 1, by rw [step_vmax]; exact h.limit, hspeed, by rw [step_cfg]; exact h.timed,
      htimer⟩
  have hout : j.TimesOut 1 ↔ _ :=
    timesOut_iff (h.timed ▸ hwrap) fun hm _ => h.timed ▸ h.timer hm
  rw [h.timed] at hout
  by_cases hm : j.mode = JointMode.position.code
  · have htimer := UInt32.le_iff_toNat_le.mp (h.timer hm)
    by_cases ho : j.TimesOut 1
    · have hd : (j.step 1).mode ≠ JointMode.position.code := by
        rw [ho.2]; exact position_ne_disabled.symm
      refine ⟨hkeep fun hp => absurd hp hd, ?_⟩
      rw [stepsToRest, stepsToRest, if_neg hd, if_pos hm]
      have := brakeSteps_mono hspeed
      omega
    · obtain ⟨hmode, -, -, hsince⟩ := step_of_not_timesOut ho
      rw [if_pos ⟨hm, h.timed ▸ htimed⟩] at hsince
      rw [hout, not_and, not_and] at ho
      have hlt := Nat.not_lt.mp (ho hm htimed)
      have hadd : (j.sinceCommandMs + 1).toNat = j.sinceCommandMs.toNat + 1 := by
        rw [UInt32.toNat_add, UInt32.toNat_one, Nat.mod_eq_of_lt (by omega)]
      refine ⟨hkeep fun _ => ?_, ?_⟩
      · rw [hsince, UInt32.le_iff_toNat_le, hadd]; exact hlt
      · rw [stepsToRest, stepsToRest, if_pos (hmode.trans hm), if_pos hm, hsince, hadd]
        omega
  · obtain ⟨-, hd, e⟩ | ⟨-, hp, -, -⟩ := motion_step h.safe (show (1 : UInt32) ≠ 0 by decide)
    · have hd' : (j.step 1).mode ≠ JointMode.position.code := by
        rw [hd]; exact position_ne_disabled.symm
      refine ⟨hkeep fun hp => absurd hp hd', ?_⟩
      have hvel := Plant.abs_brake_vel (p := p) 1 j.motion
      rw [Plant.dv_one hacc] at hvel
      rw [stepsToRest, stepsToRest, if_neg hd', if_neg hm, e, UInt32.toNat_one, hvel]
      unfold brakeSteps
      omega
    · exact absurd hp hm

theorem Attended.rest (h : Attended p top timeoutMs j) (hrest : stepsToRest top timeoutMs j = 0) :
    j.mode = JointMode.disabled.code ∧ j.velocityMdegS = 0 := by
  have hm : j.mode ≠ JointMode.position.code := by
    intro hm
    have htimer := UInt32.le_iff_toNat_le.mp (h.timer hm)
    rw [stepsToRest, if_pos hm] at hrest
    omega
  rw [stepsToRest, if_neg hm, brakeSteps] at hrest
  have hvel := abs_nonneg j.motion.vel
  refine ⟨h.safe.mode.resolve_right fun hp => hm hp.1, Int32.toInt_inj.mp ?_⟩
  show j.motion.vel = 0
  rw [← abs_eq_zero]
  omega

/-- A joint is never further from rest than its time limit and its largest velocity make it. -/
theorem Attended.stepsToRest_le (h : Attended p top timeoutMs j) :
    stepsToRest top timeoutMs j ≤ timeoutMs.toNat + 1 + brakeSteps top := by
  have hspeed := brakeSteps_mono h.speed
  unfold stepsToRest
  split <;> omega

end Joint
end Rjs
