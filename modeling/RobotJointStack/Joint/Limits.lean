import RobotJointStack.Joint.Run

/-!
# Joint.Limits

The two limits a joint works under. Both hold except where the source stops the motion by hand:

* `average_speed`: a run under one command covers no more than the commanded speed allows, plus
  one millidegree, as long as no step creeps although more than one millidegree is left.
* `acceleration_iff`: a step respects the acceleration limit unless it arrives at the target
  faster than one step can brake.
-/

namespace Rjs
namespace Joint

variable {p : Plant} {j : Joint}

/-! ## The velocity limit -/

/-- The command again, under any sequence number, or a step. -/
def FollowsUp (cmd : AcceptedCommand) : JointAction → Prop
  | .command again => again.1 = { cmd.1 with sequence := again.1.sequence }
  | .step dtMs => 1 ≤ dtMs

instance (cmd : AcceptedCommand) : ∀ a, Decidable (FollowsUp cmd a)
  | .command again =>
    inferInstanceAs (Decidable (again.1 = { cmd.1 with sequence := again.1.sequence }))
  | .step dtMs => inferInstanceAs (Decidable (1 ≤ dtMs))

/-- A step does not creep at a distance: it brakes, the commanded velocity covers a millidegree in
it, or at most one millidegree is left. -/
def KeepsPace (j : Joint) : JointAction → Prop
  | .command _ => True
  | .step dtMs => j.Brakes dtMs ∨ 1000 ≤ j.maxVelocityMdegS.toInt * dtMs.toNat ∨
      |j.targetMdeg.toInt - j.positionMdeg.toInt| ≤ 1

instance (j : Joint) : ∀ a, Decidable (j.KeepsPace a)
  | .command _ => .isTrue trivial
  | .step dtMs => inferInstanceAs (Decidable (j.Brakes dtMs ∨ _ ∨ _))

/-- The joint is under a command with velocity limit `vmax` since `time` milliseconds; the last
millidegree before a stop at the target comes on top. -/
structure Paced (p : Plant) (start target vmax : Int) (time : Nat) (j : Joint) : Prop where
  safe : j.Safe p
  heads : j.targetMdeg.toInt = target
  limit : j.maxVelocityMdegS.toInt = vmax
  speed : |j.motion.vel| ≤ vmax
  way : 1000 * |j.motion.pos - start| ≤ vmax * time ∨
    (j.motion = ⟨target, 0⟩ ∧ 1000 * |j.motion.pos - start| ≤ vmax * time + 1000)

section Pace

variable {start target vmax : Int} {time : Nat} {cmd : AcceptedCommand}

theorem paced_command (h : Paced p start target vmax time j)
    (hm : cmd.1.mode = JointMode.position.code)
    (ht : p.clamp cmd.1.targetMdeg.toInt = target) (hv : cmd.1.maxVelocityMdegS.toInt = vmax) :
    Paced p start target vmax time (j.command cmd.1) where
  safe := safe_command h.safe cmd
  heads := by
    rw [command_target, if_pos hm, toInt_clamp32 h.safe.lo h.safe.hi, Int32.toInt_toInt64, ht]
  limit := by rw [command_vmax, if_pos hm, hv]
  speed := by rw [command_motion]; exact h.speed
  way := by rw [command_motion]; exact h.way

theorem paced_step (h : Paced p start target vmax time j) {dt : UInt32} (h0 : dt ≠ 0)
    (hpace : j.KeepsPace (.step dt)) :
    Paced p start target vmax (time + dt.toNat) (j.step dt) := by
  have hv := h.limit ▸ h.safe.vmax
  have htime : 0 ≤ vmax * dt.toNat := Int.mul_nonneg hv (by omega)
  have hsum : vmax * ((time + dt.toNat : Nat) : Int) = vmax * time + vmax * dt.toNat := by
    push_cast; ring
  refine ⟨safe_step h.safe dt, by rw [step_target, h.heads], by rw [step_vmax, h.limit], ?_, ?_⟩
  · exact abs_step_vel_le h.safe h.limit.le h.speed dt
  · -- at rest on the target nothing moves any more; before that, one step stays within its share
    have hrest (e : j.motion = ⟨target, 0⟩) : (j.step dt).motion = ⟨target, 0⟩ :=
      (step_rest h.safe (h.heads ▸ e) dt).trans e
    rcases h.way with hway | ⟨e, hway⟩
    · have hshare : 1000 * |(j.step dt).motion.pos - j.motion.pos| ≤ vmax * dt.toNat ∨
          ((j.step dt).motion = ⟨target, 0⟩ ∧ |target - j.motion.pos| ≤ 1) := by
        obtain ⟨-, -, hs⟩ | ⟨hb, -, -, hs⟩ := motion_step h.safe h0
        · rw [hs]
          exact .inl (Plant.abs_brake_pos_sub _ h.speed h.safe.pos)
        · rw [hs, h.heads, h.limit]
          refine Plant.abs_track_pos_sub _ hv le_rfl h.speed h.safe.pos (h.heads ▸ h.safe.target) ?_
          have := hpace.resolve_left hb
          rwa [h.heads, h.limit] at this
      have htri := abs_sub_le (j.step dt).motion.pos j.motion.pos start
      rcases hshare with hshare | ⟨e, hone⟩
      · left; rw [hsum]; omega
      · right
        rw [hsum]
        refine ⟨e, ?_⟩
        rw [e] at htri ⊢
        dsimp only at htri ⊢
        omega
    · right
      rw [hrest e, hsum]
      rw [e] at hway
      exact ⟨rfl, by dsimp only at hway ⊢; omega⟩

theorem paced_run (hm : cmd.1.mode = JointMode.position.code)
    (ht : p.clamp cmd.1.targetMdeg.toInt = target) (hv : cmd.1.maxVelocityMdegS.toInt = vmax)
    {more : List JointAction} (hmore : ∀ a ∈ more, FollowsUp cmd a)
    (h : Paced p start target vmax time j) (hpace : Along KeepsPace j more) :
    Paced p start target vmax (time + elapsed more) (j.run more) := by
  induction more generalizing j time with
  | nil => exact h
  | cons a more ih =>
    have hrest := fun b hb => hmore b (List.mem_cons_of_mem a hb)
    have hsum : time + elapsed (a :: more) = time + a.dtMs + elapsed more := by
      simp only [elapsed, List.map_cons, List.sum_cons]; omega
    rw [run_cons, hsum]
    refine ih hrest ?_ hpace.2
    have ha := hmore a List.mem_cons_self
    cases a with
    | command again =>
      have hsame : again.1 = { cmd.1 with sequence := again.1.sequence } := ha
      exact paced_command h (hsame ▸ hm) (by rw [hsame]; exact ht) (by rw [hsame]; exact hv)
    | step dt => exact paced_step h (ne_zero_of_one_le ha) hpace.1

end Pace

/-- **The commanded velocity bounds the motion.** From any reachable joint at rest, a run under one
position command covers at most the commanded velocity times the time, plus one millidegree, if
every step of it keeps pace. -/
theorem average_speed {cfg : JointConfig} (hcfg : cfg.HoldsZero) {acts : List JointAction}
    (hrest : ((init cfg).run acts).velocityMdegS = 0) {cmd : AcceptedCommand}
    (hm : cmd.1.mode = JointMode.position.code) {more : List JointAction}
    (hmore : ∀ a ∈ more, FollowsUp cmd a)
    (hpace : Along KeepsPace (((init cfg).run acts).command cmd.1) more) :
    1000 * |((((init cfg).run acts).command cmd.1).run more).positionMdeg.toInt -
        ((init cfg).run acts).positionMdeg.toInt| ≤
      cmd.1.maxVelocityMdegS.toInt * elapsed more + 1000 := by
  have h := safe_reachable cfg hcfg acts
  generalize (init cfg).run acts = j at h hrest hpace
  have hv := cmd.vmax_pos hm
  have hstart : Paced (cfg.plant hcfg) j.motion.pos ((cfg.plant hcfg).clamp cmd.1.targetMdeg.toInt)
      cmd.1.maxVelocityMdegS.toInt 0 (j.command cmd.1) := by
    refine ⟨safe_command h cmd, ?_, by rw [command_vmax, if_pos hm], ?_, .inl ?_⟩
    · rw [command_target, if_pos hm, toInt_clamp32 h.lo h.hi, Int32.toInt_toInt64]
    · rw [command_motion, motion_vel, hrest]; exact hv.le
    · rw [command_motion, sub_self]; simp
  have hend := paced_run hm rfl rfl hmore hstart hpace
  rw [Nat.zero_add] at hend
  rcases hend.way with hway | ⟨-, hway⟩
  · exact hway.trans (by omega)
  · exact hway

theorem average_speed_fast :
    1000 * |((((init ⟨-170000, 170000, 360000, 500⟩).run []).command ⟨1, 90000, 90000, 1⟩).run
        [.step 10, .step 10, .step 10]).positionMdeg.toInt -
      ((init ⟨-170000, 170000, 360000, 500⟩).run []).positionMdeg.toInt| ≤
      90000 * elapsed [.step 10, .step 10, .step 10] + 1000 :=
  @average_speed ⟨-170000, 170000, 360000, 500⟩ (by decide) [] rfl
    ⟨⟨1, 90000, 90000, 1⟩, decoderAccepts_iff.mpr (by decide)⟩ rfl
    [.step 10, .step 10, .step 10] (by decide) (by decide +kernel)

/-- Commanded to 1 mdeg/s, the joint creeps a millidegree in every 1 ms step. -/
theorem average_speed_exceeded :
    ∃ (cfg : JointConfig) (acts : List JointAction) (cmd : AcceptedCommand)
      (more : List JointAction), cfg.HoldsZero ∧ ((init cfg).run acts).velocityMdegS = 0 ∧
      cmd.1.mode = JointMode.position.code ∧ (∀ a ∈ more, a = .step 1) ∧
      cmd.1.maxVelocityMdegS.toInt * elapsed more + 1000 <
        1000 * |((((init cfg).run acts).command cmd.1).run more).positionMdeg.toInt -
          ((init cfg).run acts).positionMdeg.toInt| :=
  ⟨⟨-170000, 170000, 360000, 0⟩, [], ⟨⟨1, 90000, 1, 1⟩, decoderAccepts_iff.mpr (by decide)⟩,
    [.step 1, .step 1], by decide, rfl, rfl, by simp, by decide +kernel⟩

/-! ## The acceleration limit -/

/-- The velocity change one step of `dt` milliseconds may make. -/
def rampLimit (j : Joint) (dt : UInt32) : Int :=
  max 1 (j.cfg.accelMdegS2.toInt * dt.toNat / 1000)

/-- The velocity the ramp gives the step: moved by at most `rampLimit` toward the speed from which
the joint can stop at the target, or toward the commanded limit if that is less. -/
def rampTo (j : Joint) (dt : UInt32) : Int :=
  let err := j.targetMdeg.toInt - j.positionMdeg.toInt
  let stop : Int := Nat.sqrt (2 * j.cfg.accelMdegS2.toInt * |err|).toNat
  let limit := min j.maxVelocityMdegS.toInt stop
  let v := j.velocityMdegS.toInt
  max (v - j.rampLimit dt) (min (v + j.rampLimit dt) (if 0 < err then limit else -limit))

/-- At that velocity the step covers the way to the target, or rounds to nothing with at most one
millidegree to go. -/
def Arrives (j : Joint) (dt : UInt32) : Prop :=
  let err := j.targetMdeg.toInt - j.positionMdeg.toInt
  let way := (j.rampTo dt * dt.toNat).tdiv 1000
  (0 < err ∧ err ≤ way) ∨ (err < 0 ∧ way ≤ err) ∨ (way = 0 ∧ |err| ≤ 1)

instance (j : Joint) (dt : UInt32) : Decidable (j.Arrives dt) := by
  unfold Arrives; infer_instance

theorem rampLimit_eq (h : j.Safe p) (dt : UInt32) : j.rampLimit dt = p.dvMax dt.toNat := by
  rw [rampLimit, h.acc]; rfl

theorem rampTo_eq (h : j.Safe p) (dt : UInt32) : j.rampTo dt =
    p.trackVel j.targetMdeg.toInt j.maxVelocityMdegS.toInt dt.toNat j.motion := by
  have hd := p.dvMax_pos dt.toNat
  rw [rampTo, Plant.trackVel, Slew.slew_eq (by omega), rampLimit_eq h, h.acc]
  rfl

theorem arrives_iff (h : j.Safe p) (dt : UInt32) : j.Arrives dt ↔
    Plant.Arrives (j.targetMdeg.toInt - j.positionMdeg.toInt) (travel dt.toNat
      (p.trackVel j.targetMdeg.toInt j.maxVelocityMdegS.toInt dt.toNat j.motion)) := by
  rw [Arrives, rampTo_eq h]; rfl

/-- **The acceleration limit.** One step of any reachable joint changes the velocity by at most
`rampLimit`, unless it arrives at the target at a higher speed than that: an arrival stops the
joint at once. -/
theorem acceleration_iff {cfg : JointConfig} (hcfg : cfg.HoldsZero) (acts : List JointAction)
    {dt : UInt32} (hdt : 1 ≤ dt) :
    |(((init cfg).run acts).step dt).velocityMdegS.toInt -
        ((init cfg).run acts).velocityMdegS.toInt| ≤ ((init cfg).run acts).rampLimit dt ↔
      ((init cfg).run acts).Brakes dt ∨ ¬((init cfg).run acts).Arrives dt ∨
        |((init cfg).run acts).velocityMdegS.toInt| ≤ ((init cfg).run acts).rampLimit dt := by
  have h := safe_reachable cfg hcfg acts
  generalize (init cfg).run acts = j at h
  have h0 : dt ≠ 0 := ne_zero_of_one_le hdt
  rw [rampLimit_eq h, arrives_iff h, ← motion_vel, ← motion_vel]
  obtain ⟨hb, -, e⟩ | ⟨hb, -, -, e⟩ := motion_step h h0
  · refine iff_of_true ?_ (.inl hb)
    rw [e]
    exact (Slew.abs_slew_sub_le ((cfg.plant hcfg).dv_nonneg _)).trans (Plant.dv_le_dvMax _)
  · rw [e, or_iff_right hb]
    by_cases ha : Plant.Arrives (j.targetMdeg.toInt - j.positionMdeg.toInt) (travel dt.toNat
        ((cfg.plant hcfg).trackVel j.targetMdeg.toInt j.maxVelocityMdegS.toInt dt.toNat j.motion))
    · rw [or_iff_right (not_not.mpr ha), Plant.track_arrives ha, zero_sub, abs_neg]
    · exact iff_of_true (Plant.abs_track_vel_sub ha) (.inl ha)

/-- On the way to a target the second step of 10 ms goes from 2000 to 4000 mdeg/s, which is all that
the ramp allows. -/
theorem acceleration_ramp :
    let j := (init ⟨-170000, 170000, 200000, 500⟩).run
      [.command ⟨⟨1, 90000, 90000, 1⟩, decoderAccepts_iff.mpr (by decide)⟩, .step 10]
    |(j.step 10).velocityMdegS.toInt - j.velocityMdegS.toInt| ≤ j.rampLimit 10 ∧
      j.velocityMdegS = 2000 ∧ (j.step 10).velocityMdegS = 4000 :=
  ⟨(@acceleration_iff ⟨-170000, 170000, 200000, 500⟩ (by decide)
      [.command ⟨⟨1, 90000, 90000, 1⟩, decoderAccepts_iff.mpr (by decide)⟩, .step 10] 10
      (by decide)).mpr (.inr (.inl (by decide +kernel))),
    by decide +kernel, by decide +kernel⟩

/-- Two steps of 10 ms reach 4000 mdeg/s; the third covers the last 10 mdeg and stops, although it
may change the velocity by 2000 mdeg/s only. -/
theorem acceleration_exceeded :
    ¬∀ cfg : JointConfig, cfg.HoldsZero → cfg.maxMdeg.toInt - cfg.minMdeg.toInt ≤ 2 ^ 31 →
      ∀ (acts : List JointAction) (dt : UInt32), 1 ≤ dt →
      |(((init cfg).run acts).step dt).velocityMdegS.toInt -
        ((init cfg).run acts).velocityMdegS.toInt| ≤ ((init cfg).run acts).rampLimit dt := by
  intro h
  have hlimit := h ⟨-170000, 170000, 200000, 0⟩ (by decide) (by decide)
    [.command ⟨⟨1, 70, 100000, 1⟩, decoderAccepts_iff.mpr (by decide)⟩, .step 10, .step 10] 10
    (by decide)
  exact absurd hlimit (by decide +kernel)

end Joint
end Rjs
