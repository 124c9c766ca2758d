import RobotJointStack.Joint.Run

/-!
# Joint.Current

The motor current a joint publishes, from `rjs_joint_get_state` to the receiver that decodes it. It
is computed in 32 bits and narrowed to 16.

* `toInt_currentMa_eq_iff`: the narrowed value is the computed one below 32.718 degrees per
  millisecond, and only there.
* `speed_run`: no run is faster than its fastest command, nor faster than it could stop.
* `current_faithful_iff`: for which states, and in which runs, the receiver reads the right value.
-/

namespace Rjs

open CInt

namespace Joint

/-- The current a joint means to report. -/
def current (j : Joint) : Int :=
  if j.mode = JointMode.position.code then 50 + |j.velocityMdegS.toInt| / 1000 else 0

/-- The speed from which on the current does not fit 16 bits. -/
def currentLimit : Int := 32718000

/-- The joint's state can be sent by `node`, and whoever receives the frame reads its current. -/
def ReportsCurrent (node : UInt8) (j : Joint) : Prop :=
  ∀ out o, ∃ f st, encodeJointState node (some j.getState) (some out) = (.ok, some f) ∧
    decodeJointState (some f) (some o) = (.ok, some st) ∧ st.currentMa.toInt = j.current

section State

variable {j : Joint}

/-- Encoding and decoding pass the narrowed value on. -/
theorem reportsCurrent_iff {node : UInt8} (hnode : nodeValid node) :
    ReportsCurrent node j ↔ j.getState.currentMa.toInt = j.current := by
  constructor
  · intro h
    obtain ⟨f, st, henc, hdec, hcurrent⟩ := h (frameStart .jointState 0 0) default
    have hback := decode_encode jointState_laws henc rfl rfl (fun _ _ _ => rfl) default
    rw [decodeJointState, hback] at hdec
    cases hdec
    exact hcurrent
  · intro h out o
    have henc : encodeJointState node (some j.getState) (some out) = (.ok, some _) :=
      encode_eq_ok.mpr ⟨hnode, rfl⟩
    exact ⟨_, _, henc, decode_encode jointState_laws henc rfl rfl (fun _ _ _ => rfl) o, h⟩

theorem toInt_abs32 {v : Int32} (h : -2 ^ 31 < v.toInt) :
    (if v < 0 then -v else v).toInt = |v.toInt| := by
  have hlt := v.toInt_lt
  simp only [Int32.lt_iff_toInt_lt, Int32.toInt_zero]
  split
  · rename_i hneg
    rw [Int32.toInt_neg, bmod_of_fitsI32 ⟨by omega, by omega⟩, abs_of_neg hneg]
  · rename_i hnn
    rw [abs_of_nonneg (not_lt.mp hnn)]

/-- The narrowing is harmless below the limit, and only there. -/
theorem toInt_currentMa_eq_iff (hv : -2 ^ 31 < j.velocityMdegS.toInt) :
    j.getState.currentMa.toInt = j.current ↔
      (j.mode = JointMode.position.code → |j.velocityMdegS.toInt| < currentLimit) := by
  by_cases hm : j.mode = JointMode.position.code
  · have habs := toInt_abs32 hv
    have hlt := j.velocityMdegS.toInt_lt
    have hnn := abs_nonneg j.velocityMdegS.toInt
    have hle : |j.velocityMdegS.toInt| < 2 ^ 31 := abs_lt.mpr ⟨by omega, by omega⟩
    have h50 : (50 : Int32).toInt = 50 := rfl
    have h1000 : (1000 : Int32).toInt = 1000 := rfl
    have hquot : ((if j.velocityMdegS < 0 then -j.velocityMdegS else j.velocityMdegS) /
        1000).toInt = |j.velocityMdegS.toInt| / 1000 := by
      rw [Int32.toInt_div_of_ne_right _ _ (by decide), habs, h1000,
        Int.tdiv_eq_ediv_of_nonneg hnn]
    have hsum : (50 + (if j.velocityMdegS < 0 then -j.velocityMdegS else j.velocityMdegS) /
        1000).toInt = 50 + |j.velocityMdegS.toInt| / 1000 := by
      rw [Int32.toInt_add, hquot, h50, bmod_of_fitsI32 ⟨by omega, by omega⟩]
    simp only [getState, current, hm, if_true, ← hsum, toInt_toInt16_eq_iff, true_implies]
    rw [hsum, currentLimit]
    omega
  · simp [getState, current, hm]

end State

/-! ## Runs -/

section Run

variable {p : Plant} {j : Joint}

/-- No run is faster than its fastest position command. -/
theorem speed_run (h : j.Safe p) {b : Int} (hv : j.maxVelocityMdegS.toInt ≤ b)
    (hm : |j.motion.vel| ≤ b) {acts : List JointAction}
    (hacts : ∀ cmd, .command cmd ∈ acts → cmd.1.mode = JointMode.position.code →
      cmd.1.maxVelocityMdegS.toInt ≤ b) : |(j.run acts).motion.vel| ≤ b := by
  induction acts generalizing j with
  | nil => exact hm
  | cons a acts ih =>
    have hrest : ∀ cmd, .command cmd ∈ acts → cmd.1.mode = JointMode.position.code →
        cmd.1.maxVelocityMdegS.toInt ≤ b := by
      intro cmd hcmd
      exact hacts cmd (List.mem_cons_of_mem a hcmd)
    cases a with
    | command cmd =>
      refine ih (safe_command h cmd) ?_ ?_ hrest
      · rw [act, command_vmax]
        split
        · rename_i hmode
          exact hacts cmd List.mem_cons_self hmode
        · exact hv
      · rw [act, command_motion]; exact hm
    | step dt =>
      refine ih (safe_step h dt) ?_ (abs_step_vel_le h hv hm dt) hrest
      rw [act, step_vmax]; exact hv

/-- No run is faster than it could stop from within the travel range. -/
theorem vel_sq_run (h : j.Safe p) (hm : j.motion.vel ^ 2 ≤ 2 * p.acc * (p.hi - p.lo))
    (acts : List JointAction) :
    (j.run acts).motion.vel ^ 2 ≤ 2 * p.acc * (p.hi - p.lo) := by
  induction acts generalizing j with
  | nil => exact hm
  | cons a acts ih =>
    cases a with
    | command cmd =>
      refine ih (safe_command h cmd) ?_
      rw [act, command_motion]; exact hm
    | step dt => exact ih (safe_step h dt) (step_vel_sq h hm dt)

theorem speed_reachable (cfg : JointConfig) (h : cfg.HoldsZero) {b : Int} (hb : 0 ≤ b)
    {acts : List JointAction}
    (hacts : ∀ cmd, .command cmd ∈ acts → cmd.1.mode = JointMode.position.code →
      cmd.1.maxVelocityMdegS.toInt ≤ b) :
    |((init cfg).run acts).motion.vel| ≤ b := by
  have hvel : |(init cfg).motion.vel| ≤ b := hb
  exact speed_run (safe_init cfg h) hb hvel hacts

/-- The velocity of a reachable joint can be negated. -/
theorem velocity_gt (cfg : JointConfig) (h : cfg.HoldsZero) (acts : List JointAction) :
    -2 ^ 31 < ((init cfg).run acts).velocityMdegS.toInt := by
  have hspeed : |((init cfg).run acts).motion.vel| ≤ 2 ^ 31 - 1 := by
    refine speed_reachable cfg h (by decide) ?_
    intro cmd _ _
    exact Int.le_sub_one_of_lt cmd.1.maxVelocityMdegS.toInt_lt
  have := (abs_le.mp hspeed).1
  rw [motion_vel] at this
  omega

/-- In these runs no joint is fast enough for its current to be narrowed wrongly: every position
command asks for less speed, or the joint could not stop in its range from that speed. -/
def StaysSlow (cfg : JointConfig) (acts : List JointAction) : Prop :=
  (∀ cmd, .command cmd ∈ acts → cmd.1.mode = JointMode.position.code →
    cmd.1.maxVelocityMdegS.toInt < currentLimit) ∨
  2 * (init cfg).cfg.accelMdegS2.toInt * (cfg.maxMdeg.toInt - cfg.minMdeg.toInt) < currentLimit ^ 2

theorem abs_velocity_of_staysSlow {cfg : JointConfig} (h : cfg.HoldsZero)
    {acts : List JointAction} (hslow : StaysSlow cfg acts) :
    |((init cfg).run acts).velocityMdegS.toInt| < currentLimit := by
  have hsafe := safe_init cfg h
  rw [← motion_vel]
  cases hslow with
  | inl hcmds =>
    have hspeed : |((init cfg).run acts).motion.vel| ≤ currentLimit - 1 := by
      refine speed_reachable cfg h (by decide) ?_
      intro cmd hcmd hmode
      exact Int.le_sub_one_of_lt (hcmds cmd hcmd hmode)
    omega
  | inr hrange =>
    have hstart : (init cfg).motion.vel ^ 2 ≤
        2 * (cfg.plant h).acc * ((cfg.plant h).hi - (cfg.plant h).lo) := by
      have hspan : 0 ≤ (cfg.plant h).hi - (cfg.plant h).lo :=
        sub_nonneg.mpr ((cfg.plant h).lo_nonpos.trans (cfg.plant h).hi_nonneg)
      have hacc := (cfg.plant h).acc_pos
      show (0 : Int) ^ 2 ≤ _
      positivity
    have hsq := vel_sq_run hsafe hstart acts
    exact abs_lt_of_sq_lt_sq (hsq.trans_lt hrange) (by decide)

/-- **The published current is faithful** in every reachable state that is not in position mode or
slower than the limit, and in no other. It stays faithful throughout a slow run. -/
theorem current_faithful_iff (cfg : JointConfig) (h : cfg.HoldsZero) (acts : List JointAction)
    {node : UInt8} (hnode : nodeValid node) :
    (ReportsCurrent node ((init cfg).run acts) ↔
      (((init cfg).run acts).mode = JointMode.position.code →
        |((init cfg).run acts).velocityMdegS.toInt| < currentLimit)) ∧
    (StaysSlow cfg acts → ReportsCurrent node ((init cfg).run acts)) := by
  have hiff := toInt_currentMa_eq_iff (velocity_gt cfg h acts)
  rw [reportsCurrent_iff hnode]
  refine ⟨hiff, fun hslow => hiff.mpr fun _ => abs_velocity_of_staysSlow h hslow⟩

/-- The shipped joint, on its way to 90 degrees. -/
theorem current_faithful_iff_sweep :
    ReportsCurrent 2 ((init ⟨-170000, 170000, 360000, 500⟩).run
      [.command ⟨⟨1, 90000, 90000, 7⟩, decoderAccepts_iff.mpr (by decide)⟩, .step 10]) := by
  refine (current_faithful_iff _ (by decide) _ (by decide)).2 (.inr ?_)
  decide

/-- A very fast joint, 16 ms after a command to the end of its range: at 34 359 738 mdeg/s it
reports -31 127 mA. -/
theorem not_reportsCurrent_fast :
    let j := (init ⟨-2147483648, 2147483647, 2147483647, 0⟩).run
      [.command ⟨⟨1, 2147483647, 2147483647, 1⟩, decoderAccepts_iff.mpr (by decide)⟩, .step 16]
    ¬ReportsCurrent 1 j ∧ j.getState.currentMa.toInt = -31127 ∧ j.current = 34409 := by
  intro j
  have hreported : j.getState.currentMa.toInt = -31127 := by decide +kernel
  have hmeant : j.current = 34409 := by decide +kernel
  refine ⟨?_, hreported, hmeant⟩
  rw [reportsCurrent_iff (by decide), hreported, hmeant]
  decide

end Run

end Joint

end Rjs
