import RobotJointStack.Joint.Refine
import RobotJointStack.Protocol.RoundTrip

/-!
# Joint.Run

Runs of a joint: any interleaving of commands the decoder accepts and control steps of any length.

* `step_cases`: what one call of `rjs_joint_step` can do.
* `safe_step`, `safe_run`: every reachable joint is `Safe`.
* `motion_step`: a step of a safe joint brakes or tracks, as in `Joint.Motion`.
-/

namespace Rjs

/-- A command some received frame can carry. -/
abbrev AcceptedCommand := { cmd : Command // DecoderAccepts cmd }

namespace AcceptedCommand

variable (cmd : AcceptedCommand)

theorem vmax_pos (h : cmd.1.mode = JointMode.position.code) : 0 < cmd.1.maxVelocityMdegS.toInt :=
  Int32.lt_iff_toInt_lt.mp ((decoderAccepts_iff.mp cmd.2).2 h)

/-- The decoder passes only the two modes. -/
theorem mode_cases :
    cmd.1.mode = JointMode.disabled.code ∨ cmd.1.mode = JointMode.position.code := by
  have hle := UInt8.le_iff_toNat_le.mp (decoderAccepts_iff.mp cmd.2).1
  simp only [← UInt8.toNat_inj, JointMode.code, UInt8.toNat_ofNat] at hle ⊢
  omega

end AcceptedCommand

/-- A step length of at least one millisecond is not the one the source ignores. -/
theorem ne_zero_of_one_le {dt : UInt32} (h : 1 ≤ dt) : dt ≠ 0 := by
  intro h0
  rw [h0] at h
  exact absurd h (by decide)

inductive JointAction where
  | command (cmd : AcceptedCommand)
  | step (dtMs : UInt32)

def JointAction.dtMs : JointAction → Nat
  | .command _ => 0
  | .step dtMs => dtMs.toNat

/-- The milliseconds a list of actions steps. -/
def elapsed (acts : List JointAction) : Nat := (acts.map JointAction.dtMs).sum

namespace Joint

def act (j : Joint) : JointAction → Joint
  | .command cmd => j.command cmd.1
  | .step dtMs => j.step dtMs

def run (j : Joint) (acts : List JointAction) : Joint := acts.foldl act j

@[simp] theorem run_nil (j : Joint) : j.run [] = j := rfl

@[simp] theorem run_cons (j : Joint) (a : JointAction) (acts : List JointAction) :
    j.run (a :: acts) = (j.act a).run acts := rfl

theorem run_append (j : Joint) (as bs : List JointAction) :
    j.run (as ++ bs) = (j.run as).run bs := List.foldl_append

theorem run_snoc (j : Joint) (as : List JointAction) (a : JointAction) :
    j.run (as ++ [a]) = (j.run as).act a := by rw [run_append]; rfl

/-- Every action of the run meets `P` in the state it is taken in. -/
def Along (P : Joint → JointAction → Prop) : Joint → List JointAction → Prop
  | _, [] => True
  | j, a :: acts => P j a ∧ Along P (j.act a) acts

instance {P : Joint → JointAction → Prop} [∀ j a, Decidable (P j a)] :
    ∀ (j : Joint) (acts : List JointAction), Decidable (Along P j acts)
  | _, [] => .isTrue trivial
  | j, a :: acts =>
    have : Decidable (Along P (j.act a) acts) := instDecidableAlong (j.act a) acts
    inferInstanceAs (Decidable (P j a ∧ Along P (j.act a) acts))

/-- A run without commands. -/
def steps (j : Joint) (dts : List UInt32) : Joint := dts.foldl step j

theorem steps_append (j : Joint) (as bs : List UInt32) :
    j.steps (as ++ bs) = (j.steps as).steps bs := List.foldl_append

theorem steps_take_succ (j : Joint) {dts : List UInt32} {k : Nat} (hk : k < dts.length) :
    j.steps (dts.take (k + 1)) = (j.steps (dts.take k)).step dts[k] := by
  rw [← List.take_append_getElem hk, steps_append]; rfl

/-! ## What each block writes -/

theorem position_ne_disabled : JointMode.position.code ≠ JointMode.disabled.code := by decide

section Frame

variable (j : Joint) (cmd : Command) (dt : UInt32)

@[simp] theorem command_cfg : (j.command cmd).cfg = j.cfg := by unfold command; split <;> rfl
@[simp] theorem command_mode : (j.command cmd).mode = cmd.mode := by unfold command; split <;> rfl
@[simp] theorem command_motion : (j.command cmd).motion = j.motion := by
  unfold command; split <;> rfl

@[simp] theorem command_position : (j.command cmd).positionMdeg = j.positionMdeg := by
  unfold command; split <;> rfl
@[simp] theorem command_velocity : (j.command cmd).velocityMdegS = j.velocityMdegS := by
  unfold command; split <;> rfl

@[simp] theorem command_since : (j.command cmd).sinceCommandMs = 0 := by
  unfold command; split <;> rfl

theorem command_target : (j.command cmd).targetMdeg = if cmd.mode = JointMode.position.code then
    clamp32 cmd.targetMdeg.toInt64 j.cfg.minMdeg j.cfg.maxMdeg else j.targetMdeg := by
  unfold command; split <;> simp_all

theorem command_vmax : (j.command cmd).maxVelocityMdegS =
    if cmd.mode = JointMode.position.code then cmd.maxVelocityMdegS else j.maxVelocityMdegS := by
  unfold command; split <;> simp_all

/-- The timeout block changes the timer, and on a timeout the mode, the flags and the count. -/
theorem checkTimeout_cases :
    (j.checkTimeout dt = j ∧
      (j.mode ≠ JointMode.position.code ∨ j.cfg.commandTimeoutMs = 0)) ∨
    (j.mode = JointMode.position.code ∧ j.cfg.commandTimeoutMs ≠ 0 ∧
      j.sinceCommandMs + dt ≤ j.cfg.commandTimeoutMs ∧
      j.checkTimeout dt = { j with sinceCommandMs := j.sinceCommandMs + dt }) ∨
    (j.mode = JointMode.position.code ∧ j.cfg.commandTimeoutMs ≠ 0 ∧
      j.cfg.commandTimeoutMs < j.sinceCommandMs + dt ∧
      j.checkTimeout dt =
        { j with sinceCommandMs := j.sinceCommandMs + dt
                 mode := JointMode.disabled.code
                 errorFlags := j.errorFlags ||| errPeerLost
                 timeouts := j.timeouts + 1 }) := by
  by_cases hon : j.mode = JointMode.position.code ∧ j.cfg.commandTimeoutMs ≠ 0
  · obtain ⟨hm, ht⟩ := hon
    by_cases hlate : j.sinceCommandMs + dt > j.cfg.commandTimeoutMs
    · exact .inr (.inr ⟨hm, ht, hlate, by simp [checkTimeout, hm, ht, hlate]⟩)
    · exact .inr (.inl ⟨hm, ht, UInt32.not_lt.mp hlate, by simp [checkTimeout, hm, ht, hlate]⟩)
  · refine .inl ⟨by simp only [checkTimeout, if_neg hon], ?_⟩
    by_cases hm : j.mode = JointMode.position.code
    · exact .inr (by by_contra ht; exact hon ⟨hm, ht⟩)
    · exact .inl hm

@[simp] theorem checkTimeout_cfg : (j.checkTimeout dt).cfg = j.cfg := by
  obtain ⟨e, -⟩ | ⟨-, -, -, e⟩ | ⟨-, -, -, e⟩ := j.checkTimeout_cases dt <;> rw [e]

@[simp] theorem checkTimeout_motion : (j.checkTimeout dt).motion = j.motion := by
  obtain ⟨e, -⟩ | ⟨-, -, -, e⟩ | ⟨-, -, -, e⟩ := j.checkTimeout_cases dt <;> rw [e] <;> rfl

@[simp] theorem checkTimeout_target : (j.checkTimeout dt).targetMdeg = j.targetMdeg := by
  obtain ⟨e, -⟩ | ⟨-, -, -, e⟩ | ⟨-, -, -, e⟩ := j.checkTimeout_cases dt <;> rw [e]

@[simp] theorem checkTimeout_vmax :
    (j.checkTimeout dt).maxVelocityMdegS = j.maxVelocityMdegS := by
  obtain ⟨e, -⟩ | ⟨-, -, -, e⟩ | ⟨-, -, -, e⟩ := j.checkTimeout_cases dt <;> rw [e]

@[simp] theorem checkTimeout_lastSeq : (j.checkTimeout dt).lastSeq = j.lastSeq := by
  obtain ⟨e, -⟩ | ⟨-, -, -, e⟩ | ⟨-, -, -, e⟩ := j.checkTimeout_cases dt <;> rw [e]

theorem checkTimeout_mode : (j.checkTimeout dt).mode = j.mode ∨
    (j.checkTimeout dt).mode = JointMode.disabled.code := by
  obtain ⟨e, -⟩ | ⟨-, -, -, e⟩ | ⟨-, -, -, e⟩ := j.checkTimeout_cases dt <;> rw [e] <;> simp

/-- A step of `dt` milliseconds brakes: the joint is disabled, or its timer runs out. -/
def Brakes : Prop :=
  j.mode ≠ JointMode.position.code ∨
    (j.cfg.commandTimeoutMs ≠ 0 ∧ j.cfg.commandTimeoutMs < j.sinceCommandMs + dt)

instance : Decidable (j.Brakes dt) := inferInstanceAs (Decidable (_ ∨ _))

theorem brakes_iff : j.Brakes dt ↔ (j.checkTimeout dt).mode ≠ JointMode.position.code := by
  obtain ⟨e, hoff⟩ | ⟨hm, ht, hle, e⟩ | ⟨hm, ht, hlt, e⟩ := j.checkTimeout_cases dt
  · rw [e]
    refine ⟨?_, .inl⟩
    rintro (hm | ⟨ht, -⟩)
    · exact hm
    · exact hoff.resolve_right ht
  · rw [e]
    exact iff_of_false (fun h => h.elim (absurd hm) fun h => UInt32.not_lt.mpr hle h.2)
      (not_not.mpr hm)
  · rw [e]
    exact iff_of_true (.inr ⟨ht, hlt⟩) position_ne_disabled.symm

/-- A step is the timeout block followed by a move that writes only position and velocity. -/
theorem step_cases :
    (dt = 0 ∧ j.step dt = j) ∨
    (dt ≠ 0 ∧ (j.checkTimeout dt).mode ≠ JointMode.position.code ∧
      j.step dt = (j.checkTimeout dt).brake dt) ∨
    (dt ≠ 0 ∧ (j.checkTimeout dt).mode = JointMode.position.code ∧
      j.step dt = (j.checkTimeout dt).track dt) := by
  by_cases h0 : dt = 0
  · exact .inl ⟨h0, by rw [step, if_pos h0]⟩
  · by_cases hm : (j.checkTimeout dt).mode = JointMode.position.code
    · exact .inr (.inr ⟨h0, hm, by simp [step, h0, hm]⟩)
    · exact .inr (.inl ⟨h0, hm, by simp [step, h0, hm]⟩)

/-- What `rjs_joint_step` decides before it moves the joint. -/
theorem step_control (h0 : dt ≠ 0) :
    (j.step dt).mode = (j.checkTimeout dt).mode ∧
    (j.step dt).sinceCommandMs = (j.checkTimeout dt).sinceCommandMs ∧
    (j.step dt).errorFlags = (j.checkTimeout dt).errorFlags ∧
    (j.step dt).timeouts = (j.checkTimeout dt).timeouts := by
  obtain ⟨h, -⟩ | ⟨-, -, e⟩ | ⟨-, -, e⟩ := j.step_cases dt
  · exact absurd h h0
  · rw [e]; exact ⟨rfl, rfl, rfl, rfl⟩
  · rw [e]; exact ⟨rfl, rfl, rfl, rfl⟩

@[simp] theorem step_zero : j.step 0 = j := by rw [step, if_pos rfl]

@[simp] theorem step_cfg : (j.step dt).cfg = j.cfg := by
  obtain ⟨-, e⟩ | ⟨-, -, e⟩ | ⟨-, -, e⟩ := j.step_cases dt <;> rw [e]
  · exact j.checkTimeout_cfg dt
  · exact j.checkTimeout_cfg dt

@[simp] theorem step_target : (j.step dt).targetMdeg = j.targetMdeg := by
  obtain ⟨-, e⟩ | ⟨-, -, e⟩ | ⟨-, -, e⟩ := j.step_cases dt <;> rw [e]
  · exact j.checkTimeout_target dt
  · exact j.checkTimeout_target dt

@[simp] theorem step_vmax : (j.step dt).maxVelocityMdegS = j.maxVelocityMdegS := by
  obtain ⟨-, e⟩ | ⟨-, -, e⟩ | ⟨-, -, e⟩ := j.step_cases dt <;> rw [e]
  · exact j.checkTimeout_vmax dt
  · exact j.checkTimeout_vmax dt

@[simp] theorem step_lastSeq : (j.step dt).lastSeq = j.lastSeq := by
  obtain ⟨-, e⟩ | ⟨-, -, e⟩ | ⟨-, -, e⟩ := j.step_cases dt <;> rw [e]
  · exact j.checkTimeout_lastSeq dt
  · exact j.checkTimeout_lastSeq dt

theorem step_mode : (j.step dt).mode = j.mode ∨ (j.step dt).mode = JointMode.disabled.code := by
  by_cases h0 : dt = 0
  · rw [h0, step_zero]; exact .inl rfl
  · rw [(j.step_control dt h0).1]; exact j.checkTimeout_mode dt

end Frame

theorem act_cfg (j : Joint) (a : JointAction) : (j.act a).cfg = j.cfg := by
  cases a with
  | command cmd => exact j.command_cfg cmd.1
  | step dtMs => exact j.step_cfg dtMs

theorem run_cfg (j : Joint) (acts : List JointAction) : (j.run acts).cfg = j.cfg := by
  induction acts generalizing j with
  | nil => rfl
  | cons a acts ih => rw [run_cons, ih, act_cfg]

end Joint

/-! ## Reachable joints -/

/-- The joint's zero position is inside its soft limits. -/
def JointConfig.HoldsZero (cfg : JointConfig) : Prop :=
  cfg.minMdeg ≤ 0 ∧ 0 ≤ cfg.maxMdeg

instance (cfg : JointConfig) : Decidable cfg.HoldsZero :=
  inferInstanceAs (Decidable (cfg.minMdeg ≤ 0 ∧ 0 ≤ cfg.maxMdeg))

/-- `rjs_joint_init` replaces an acceleration that is not positive. -/
theorem Joint.init_accel_pos (cfg : JointConfig) :
    0 < (Joint.init cfg).cfg.accelMdegS2.toInt := by
  simp only [Joint.init]
  split
  · decide
  · rename_i hpos
    rw [Int32.le_iff_toInt_le] at hpos
    exact not_le.mp hpos

/-- The plant an initialised joint runs in. -/
def JointConfig.plant (cfg : JointConfig) (h : cfg.HoldsZero) : Plant where
  lo := cfg.minMdeg.toInt
  hi := cfg.maxMdeg.toInt
  acc := (Joint.init cfg).cfg.accelMdegS2.toInt
  lo_nonpos := Int32.le_iff_toInt_le.mp h.1
  hi_nonneg := Int32.le_iff_toInt_le.mp h.2
  acc_pos := Joint.init_accel_pos cfg

namespace Joint

variable {p : Plant} {j : Joint}

theorem safe_init (cfg : JointConfig) (h : cfg.HoldsZero) : (init cfg).Safe (cfg.plant h) where
  lo := rfl
  hi := rfl
  acc := rfl
  pos := (cfg.plant h).holds_zero
  target := (cfg.plant h).holds_zero
  vmax := le_rfl
  mode := .inl rfl

theorem command_vmax_nonneg (h : 0 ≤ j.maxVelocityMdegS.toInt) (cmd : AcceptedCommand) :
    0 ≤ (j.command cmd.1).maxVelocityMdegS.toInt := by
  rw [command_vmax]
  split
  · rename_i hm
    exact (cmd.vmax_pos hm).le
  · exact h

/-- Position mode comes with a positive velocity limit. -/
theorem command_mode_cases (j : Joint) (cmd : AcceptedCommand) :
    (j.command cmd.1).mode = JointMode.disabled.code ∨
      ((j.command cmd.1).mode = JointMode.position.code ∧
        0 < (j.command cmd.1).maxVelocityMdegS.toInt) := by
  rw [command_mode, command_vmax]
  cases cmd.mode_cases with
  | inl hm => exact .inl hm
  | inr hm =>
    rw [if_pos hm]; exact .inr ⟨hm, cmd.vmax_pos hm⟩

theorem safe_command (h : j.Safe p) (cmd : AcceptedCommand) : (j.command cmd.1).Safe p where
  lo := by rw [command_cfg]; exact h.lo
  hi := by rw [command_cfg]; exact h.hi
  acc := by rw [command_cfg]; exact h.acc
  pos := by
    have := congrArg Motion.pos (j.command_motion cmd.1)
    rw [motion_pos, motion_pos] at this
    rw [this]; exact h.pos
  target := by
    rw [command_target]
    split
    · rw [toInt_clamp32 h.lo h.hi]; exact p.holds_clamp _
    · exact h.target
  vmax := command_vmax_nonneg h.vmax cmd
  mode := j.command_mode_cases cmd

theorem safe_checkTimeout (h : j.Safe p) (dt : UInt32) : (j.checkTimeout dt).Safe p where
  lo := by rw [checkTimeout_cfg]; exact h.lo
  hi := by rw [checkTimeout_cfg]; exact h.hi
  acc := by rw [checkTimeout_cfg]; exact h.acc
  pos := by
    have := congrArg Motion.pos (j.checkTimeout_motion dt)
    rw [motion_pos, motion_pos] at this
    rw [this]; exact h.pos
  target := by rw [checkTimeout_target]; exact h.target
  vmax := by rw [checkTimeout_vmax]; exact h.vmax
  mode := by
    rw [checkTimeout_vmax]
    cases j.checkTimeout_mode dt with
    | inl e =>
      rw [e]; exact h.mode
    | inr e => exact .inl e

/-- One step of a safe joint is one braking or one tracking step of its plant. -/
theorem motion_step (h : j.Safe p) {dt : UInt32} (h0 : dt ≠ 0) :
    (j.Brakes dt ∧ (j.step dt).mode = JointMode.disabled.code ∧
      (j.step dt).motion = p.brake dt.toNat j.motion) ∨
    (¬j.Brakes dt ∧ j.mode = JointMode.position.code ∧
      (j.step dt).mode = JointMode.position.code ∧ (j.step dt).motion =
        p.track j.targetMdeg.toInt j.maxVelocityMdegS.toInt dt.toNat j.motion) := by
  have hsafe := safe_checkTimeout h dt
  obtain ⟨hz, -⟩ | ⟨-, hm, e⟩ | ⟨-, hm, e⟩ := j.step_cases dt
  · exact absurd hz h0
  · left
    rw [e]
    refine ⟨(j.brakes_iff dt).mpr hm, hsafe.mode.resolve_right fun hp => hm hp.1, ?_⟩
    rw [motion_brake hsafe, checkTimeout_motion]
  · right
    rw [e]
    refine ⟨fun hb => (j.brakes_iff dt).mp hb hm, ?_, hm, ?_⟩
    · cases j.checkTimeout_mode dt with
      | inl e' =>
        rw [← e']; exact hm
      | inr e' =>
        rw [e'] at hm; exact absurd hm position_ne_disabled.symm
    · rw [motion_track hsafe, checkTimeout_motion, checkTimeout_target, checkTimeout_vmax]

theorem safe_step (h : j.Safe p) (dt : UInt32) : (j.step dt).Safe p where
  lo := by rw [step_cfg]; exact h.lo
  hi := by rw [step_cfg]; exact h.hi
  acc := by rw [step_cfg]; exact h.acc
  pos := by
    rw [← motion_pos]
    by_cases h0 : dt = 0
    · rw [h0, step_zero]; exact h.pos
    · obtain ⟨-, -, e⟩ | ⟨-, -, -, e⟩ := motion_step h h0
      · rw [e]; exact p.holds_clamp _
      · rw [e]; exact Plant.holds_track _ h.target
  target := by rw [step_target]; exact h.target
  vmax := by rw [step_vmax]; exact h.vmax
  mode := by
    rw [step_vmax]
    cases j.step_mode dt with
    | inl e =>
      rw [e]; exact h.mode
    | inr e => exact .inl e

/-- A speed above the velocity limit of the joint only falls. -/
theorem abs_step_vel_le (h : j.Safe p) {b : Int} (hv : j.maxVelocityMdegS.toInt ≤ b)
    (hm : |j.motion.vel| ≤ b) (dt : UInt32) : |(j.step dt).motion.vel| ≤ b := by
  by_cases h0 : dt = 0
  · rw [h0, step_zero]; exact hm
  · obtain ⟨-, -, e⟩ | ⟨-, -, -, e⟩ := motion_step h h0
    · rw [e]; exact (Plant.abs_brake_vel_le dt.toNat j.motion).trans hm
    · rw [e]; exact Plant.abs_track_vel_le dt.toNat h.vmax hv hm

/-- The joint can always stop within its range. -/
theorem step_vel_sq (h : j.Safe p) (hm : j.motion.vel ^ 2 ≤ 2 * p.acc * (p.hi - p.lo))
    (dt : UInt32) : (j.step dt).motion.vel ^ 2 ≤ 2 * p.acc * (p.hi - p.lo) := by
  by_cases h0 : dt = 0
  · rw [h0, step_zero]; exact hm
  · obtain ⟨-, -, e⟩ | ⟨-, -, -, e⟩ := motion_step h h0
    · rw [e]; exact (sq_le_sq.mpr (Plant.abs_brake_vel_le dt.toNat j.motion)).trans hm
    · rw [e]; exact Plant.track_vel_sq dt.toNat h.vmax h.pos h.target hm

/-- At rest on its target, a joint stays there, whichever branch the step takes. -/
theorem step_rest (h : j.Safe p) (hrest : j.motion = ⟨j.targetMdeg.toInt, 0⟩) (dt : UInt32) :
    (j.step dt).motion = j.motion := by
  have hpos : p.Holds j.motion.pos := h.pos
  by_cases h0 : dt = 0
  · rw [h0, step_zero]
  · obtain ⟨-, -, e⟩ | ⟨-, -, -, e⟩ := motion_step h h0
    · rw [e, Plant.brake_rest _ hpos (by rw [hrest])]
    · rw [e, hrest, Plant.track_rest _ h.vmax]

theorem safe_act (h : j.Safe p) (a : JointAction) : (j.act a).Safe p := by
  cases a with
  | command cmd => exact safe_command h cmd
  | step dtMs => exact safe_step h dtMs

theorem safe_run (h : j.Safe p) (acts : List JointAction) : (j.run acts).Safe p := by
  induction acts generalizing j with
  | nil => exact h
  | cons a acts ih => exact ih (safe_act h a)

theorem safe_steps (h : j.Safe p) (dts : List UInt32) : (j.steps dts).Safe p := by
  induction dts generalizing j with
  | nil => exact h
  | cons dt dts ih => exact ih (safe_step h dt)

theorem safe_reachable (cfg : JointConfig) (h : cfg.HoldsZero) (acts : List JointAction) :
    ((init cfg).run acts).Safe (cfg.plant h) := safe_run (safe_init cfg h) acts

end Joint

end Rjs
