import RobotJointStack.Joint.Current

/-!
# Joint.Symmetry

A joint behaves the same in both directions. Its mirror image has positions, velocities and
targets negated, and the soft limits swapped and negated.

* `clamp32_neg`, `finishStep_neg`: the limit clamp and the end of a step are odd, unless the
  limits are inverted.
* `command_mirror`, `step_mirror`: a command and a step keep two mirrored joints mirrored.
* `run_mirror`: so does every run.
-/

namespace Rjs

open CInt Slew

def JointConfig.mirror (cfg : JointConfig) : JointConfig :=
  { cfg with minMdeg := -cfg.maxMdeg, maxMdeg := -cfg.minMdeg }

def Command.mirror (cmd : Command) : Command := { cmd with targetMdeg := -cmd.targetMdeg }

/-- The decoder does not look at the target. -/
theorem Command.accepts_mirror {cmd : Command} (h : DecoderAccepts cmd) :
    DecoderAccepts cmd.mirror := by
  rw [decoderAccepts_iff] at h ⊢
  exact h

def AcceptedCommand.mirror (cmd : AcceptedCommand) : AcceptedCommand :=
  ⟨cmd.1.mirror, Command.accepts_mirror cmd.2⟩

def JointAction.mirror : JointAction → JointAction
  | .command cmd => .command cmd.mirror
  | .step dtMs => .step dtMs

def Joint.mirror (j : Joint) : Joint :=
  { j with cfg := j.cfg.mirror
           positionMdeg := -j.positionMdeg
           velocityMdegS := -j.velocityMdegS
           targetMdeg := -j.targetMdeg }

/-- Every `int32_t` above the least one can be negated. -/
def Negatable (x : Int32) : Prop := -2 ^ 31 < x.toInt

instance (x : Int32) : Decidable (Negatable x) := inferInstanceAs (Decidable (_ < _))

section Negation

variable {x : Int32} {v : Int64}

theorem Negatable.toInt_neg (h : Negatable x) : (-x).toInt = -x.toInt := by
  have hlt := x.toInt_lt
  rw [Int32.toInt_neg, bmod_of_fitsI32]
  unfold Negatable at h
  constructor <;> omega

theorem Negatable.neg (h : Negatable x) : Negatable (-x) := by
  have hlt := x.toInt_lt
  rw [Negatable, h.toInt_neg]
  omega

theorem Negatable.toInt64_neg (h : Negatable x) : (-x).toInt64 = -x.toInt64 := by
  refine Int32.toInt64_neg_of_ne fun hmin => ?_
  rw [hmin] at h
  exact absurd h (by decide)

theorem toInt_clamp32_of_limits (v : Int64) (lo hi : Int32) :
    (clamp32 v lo hi).toInt = if v.toInt < lo.toInt then lo.toInt
      else if hi.toInt < v.toInt then hi.toInt else v.toInt := by
  have hlo := lo.le_toInt
  have hhi := hi.toInt_lt
  unfold clamp32
  simp only [gt_iff_lt, Int64.lt_iff_toInt_lt, Int32.toInt_toInt64]
  split
  · rfl
  · split
    · rfl
    · exact toInt_toInt32 ⟨by omega, by omega⟩

/-- The limit clamp is odd, also where the limits touch, but not where they are inverted. -/
theorem clamp32_neg {lo hi : Int32} (hlo : Negatable lo) (hhi : Negatable hi)
    (horder : lo.toInt ≤ hi.toInt + 1) (hv : -2 ^ 63 < v.toInt) :
    clamp32 (-v) (-hi) (-lo) = -clamp32 v lo hi ∧ Negatable (clamp32 v lo hi) := by
  have hlt := v.toInt_lt
  have hneg : (-v).toInt = -v.toInt := CInt.toInt_neg ⟨by omega, by omega⟩
  have hval := toInt_clamp32_of_limits v lo hi
  have hok : Negatable (clamp32 v lo hi) := by
    unfold Negatable at hlo hhi ⊢
    rw [hval]
    split
    · exact hlo
    · split <;> omega
  refine ⟨?_, hok⟩
  rw [← Int32.toInt_inj, hok.toInt_neg, hval, toInt_clamp32_of_limits, hneg, hlo.toInt_neg,
    hhi.toInt_neg]
  split <;> split <;> omega

/-- The creep is odd, away from zero. -/
theorem creep_neg {err : Int64} (hgt : -2 ^ 63 < err.toInt) (h : err.toInt ≠ 0) :
    (if -err > 0 then (1 : Int64) else -1) = -(if err > 0 then 1 else -1) := by
  have hlt := err.toInt_lt
  have hneg : (-err).toInt = -err.toInt := CInt.toInt_neg ⟨by omega, by omega⟩
  have hsign := toInt_creep h
  have hbound := abs_le.mp (Int.abs_sign_of_ne_zero h).le
  rw [← Int64.toInt_inj, toInt_creep (by rw [hneg]; omega), hneg, Int.sign_neg,
    CInt.toInt_neg (by rw [hsign]; constructor <;> omega), hsign]

/-- The overshoot clamp and the creep are odd, for any error and any increment. -/
theorem finishStep_neg {err s : Int64} (herr : -2 ^ 63 < err.toInt) (hs : -2 ^ 63 < s.toInt) :
    Joint.finishStep (-err) (-s) (-v) =
      (-(Joint.finishStep err s v).1, -(Joint.finishStep err s v).2) := by
  have herrlt := err.toInt_lt
  have hslt := s.toInt_lt
  have herr' : (-err).toInt = -err.toInt := CInt.toInt_neg ⟨by omega, by omega⟩
  have hs' : (-s).toInt = -s.toInt := CInt.toInt_neg ⟨by omega, by omega⟩
  have hs0 : -s = 0 ↔ s = 0 := by
    rw [← Int64.toInt_inj, ← Int64.toInt_inj, hs', Int64.toInt_zero, neg_eq_zero]
  simp only [finishStep_eq, herr', hs', Plant.arrives_neg, hs0]
  split
  · simp
  · rename_i haway
    split
    · rename_i hcreep
      -- away from the target, so the error has a sign
      have hne : err.toInt ≠ 0 := by
        intro h0
        refine haway (.inr (.inr ⟨?_, ?_⟩))
        · rw [hcreep, Int64.toInt_zero]
        · rw [h0]; decide
      rw [creep_neg herr hne]
    · rfl

theorem negatable_toInt32 (h : |v.toInt| ≤ 2 ^ 31 - 1) : Negatable v.toInt32 := by
  rw [abs_le] at h
  rw [Negatable, toInt_toInt32 ⟨by omega, by omega⟩]
  omega

/-- The distance travelled is odd in the velocity. -/
theorem travelled_neg (h : |v.toInt| ≤ 2 ^ 31 - 1) (dt : UInt32) :
    -v * u32ToI64 dt / 1000 = -(v * u32ToI64 dt / 1000) ∧
      |(v * u32ToI64 dt / 1000).toInt| < 2 ^ 62 := by
  have hv : |v.toInt| ≤ 2 ^ 31 := by omega
  have hbound := abs_travel_bound hv dt
  have htravel := toInt_travel hv dt
  rw [abs_le] at h
  have hneg : (-v).toInt = -v.toInt := CInt.toInt_neg ⟨by omega, by omega⟩
  have hlt : |(v * u32ToI64 dt / 1000).toInt| < 2 ^ 62 := by rw [htravel]; omega
  refine ⟨?_, hlt⟩
  have habs := abs_lt.mp hlt
  rw [← Int64.toInt_inj, CInt.toInt_neg ⟨by omega, by omega⟩, htravel, toInt_travel, hneg,
    travel_neg]
  rw [hneg, abs_neg]
  exact hv

end Negation

namespace Joint

/-- A joint with a mirror image that it can be compared with. -/
structure Mirrorable (j : Joint) : Prop where
  minMdeg : Negatable j.cfg.minMdeg
  maxMdeg : Negatable j.cfg.maxMdeg
  order : j.cfg.minMdeg.toInt ≤ j.cfg.maxMdeg.toInt + 1
  position : Negatable j.positionMdeg
  velocity : Negatable j.velocityMdegS
  target : Negatable j.targetMdeg
  acc : 0 < j.cfg.accelMdegS2.toInt
  vmax : 0 ≤ j.maxVelocityMdegS.toInt
  mode : j.mode = JointMode.disabled.code ∨
    (j.mode = JointMode.position.code ∧ 0 < j.maxVelocityMdegS.toInt)

/-- The joint with all of `int32_t` to move in. Its velocities are those of the joint itself. -/
def free (j : Joint) : Joint :=
  { j with cfg := { j.cfg with minMdeg := Int32.minValue, maxMdeg := Int32.maxValue } }

/-- The plant of a joint without soft limits. -/
def freePlant (acc : Int) (hacc : 0 < acc) : Plant where
  lo := -2 ^ 31
  hi := 2 ^ 31 - 1
  acc := acc
  lo_nonpos := by decide
  hi_nonneg := by decide
  acc_pos := hacc

section Velocity

variable {j : Joint} (h : j.Mirrorable) (dt : UInt32)

include h

theorem mirrorable_mirror : j.mirror.Mirrorable where
  minMdeg := h.maxMdeg.neg
  maxMdeg := h.minMdeg.neg
  order := by
    have := h.order
    show (-j.cfg.maxMdeg).toInt ≤ (-j.cfg.minMdeg).toInt + 1
    rw [h.maxMdeg.toInt_neg, h.minMdeg.toInt_neg]
    omega
  position := h.position.neg
  velocity := h.velocity.neg
  target := h.target.neg
  acc := h.acc
  vmax := h.vmax
  mode := h.mode

theorem safe_free : j.free.Safe (freePlant _ h.acc) where
  lo := rfl
  hi := rfl
  acc := rfl
  pos := ⟨j.positionMdeg.le_toInt, Int.le_sub_one_of_lt j.positionMdeg.toInt_lt⟩
  target := ⟨j.targetMdeg.le_toInt, Int.le_sub_one_of_lt j.targetMdeg.toInt_lt⟩
  vmax := h.vmax
  mode := h.mode

theorem toInt_brakedVelocity_free : (j.brakedVelocity dt).toInt =
    slew ((freePlant _ h.acc).dv dt.toNat) j.velocityMdegS.toInt 0 :=
  toInt_brakedVelocity (safe_free h) dt

theorem toInt_rampedVelocity_free : (j.rampedVelocity dt).toInt =
    (freePlant _ h.acc).trackVel j.targetMdeg.toInt j.maxVelocityMdegS.toInt dt.toNat j.motion :=
  toInt_rampedVelocity (safe_free h) dt

theorem motion_mirror : j.mirror.motion = j.motion.mirror := by
  show Motion.mk (-j.positionMdeg).toInt (-j.velocityMdegS).toInt = _
  rw [h.position.toInt_neg, h.velocity.toInt_neg]
  rfl

theorem abs_velocity_le : |j.motion.vel| ≤ 2 ^ 31 - 1 := by
  have hlt := j.velocityMdegS.toInt_lt
  have hgt : -2 ^ 31 < j.velocityMdegS.toInt := h.velocity
  rw [motion_vel, abs_le]
  omega

theorem abs_brakedVelocity_le : |(j.brakedVelocity dt).toInt| ≤ 2 ^ 31 - 1 := by
  rw [toInt_brakedVelocity_free h]
  exact abs_slew_le (Plant.dv_nonneg dt.toNat) (abs_velocity_le h) (by decide)

theorem abs_rampedVelocity_le : |(j.rampedVelocity dt).toInt| ≤ 2 ^ 31 - 1 := by
  rw [toInt_rampedVelocity_free h]
  exact Plant.abs_trackVel_le dt.toNat h.vmax (Int.le_sub_one_of_lt j.maxVelocityMdegS.toInt_lt)
    (abs_velocity_le h)

theorem brakedVelocity_mirror : j.mirror.brakedVelocity dt = -j.brakedVelocity dt := by
  have habs := abs_le.mp (abs_brakedVelocity_le h dt)
  have hvel : j.mirror.velocityMdegS.toInt = -j.velocityMdegS.toInt := h.velocity.toInt_neg
  rw [← Int64.toInt_inj, toInt_neg ⟨by omega, by omega⟩, toInt_brakedVelocity_free h,
    toInt_brakedVelocity_free (mirrorable_mirror h), hvel, ← slew_neg (Plant.dv_nonneg dt.toNat),
    neg_zero]
  rfl

theorem rampedVelocity_mirror : j.mirror.rampedVelocity dt = -j.rampedVelocity dt := by
  have habs := abs_le.mp (abs_rampedVelocity_le h dt)
  have htarget : j.mirror.targetMdeg.toInt = -j.targetMdeg.toInt := h.target.toInt_neg
  rw [← Int64.toInt_inj, toInt_neg ⟨by omega, by omega⟩, toInt_rampedVelocity_free h,
    toInt_rampedVelocity_free (mirrorable_mirror h), htarget, motion_mirror h,
    ← Plant.trackVel_mirror h.vmax]
  rfl

/-! ### Both branches of a step -/

theorem err_mirror : j.mirror.targetMdeg.toInt64 - j.mirror.positionMdeg.toInt64 =
    -(j.targetMdeg.toInt64 - j.positionMdeg.toInt64) := by
  have herr := toInt_err (j := j)
  have hlt := abs_lt.mp (abs_err_lt (j := j))
  rw [← Int64.toInt_inj, toInt_neg ⟨by omega, by omega⟩, toInt_err, herr]
  show (-j.targetMdeg).toInt - (-j.positionMdeg).toInt = _
  rw [h.target.toInt_neg, h.position.toInt_neg]
  omega

theorem moved_mirror {s : Int64} (hs : |s.toInt| < 2 ^ 62) :
    clamp32 (j.mirror.positionMdeg.toInt64 + -s) j.mirror.cfg.minMdeg j.mirror.cfg.maxMdeg =
      -clamp32 (j.positionMdeg.toInt64 + s) j.cfg.minMdeg j.cfg.maxMdeg ∧
    Negatable (clamp32 (j.positionMdeg.toInt64 + s) j.cfg.minMdeg j.cfg.maxMdeg) := by
  have hpos := j.positionMdeg.le_toInt
  have hpos' := j.positionMdeg.toInt_lt
  rw [abs_lt] at hs
  have hsum : -2 ^ 63 < (j.positionMdeg.toInt64 + s).toInt := by
    rw [toInt_add] <;> rw [Int32.toInt_toInt64]
    · omega
    · constructor <;> omega
  have hneg : j.mirror.positionMdeg.toInt64 + -s = -(j.positionMdeg.toInt64 + s) := by
    rw [Int64.neg_add, Int64.sub_eq_add_neg, ← h.position.toInt64_neg]
    rfl
  rw [hneg]
  exact clamp32_neg h.minMdeg h.maxMdeg h.order hsum

theorem brake_mirror : j.mirror.brake dt = (j.brake dt).mirror ∧ (j.brake dt).Mirrorable := by
  have hvel := abs_brakedVelocity_le h dt
  obtain ⟨htravel, hlt⟩ := travelled_neg hvel dt
  obtain ⟨hmoved, hpos⟩ := moved_mirror h hlt
  refine ⟨?_, { h with position := hpos, velocity := negatable_toInt32 hvel }⟩
  simp only [brake, brakedVelocity_mirror h, Int64.toInt32_neg, htravel, hmoved]
  rfl

theorem track_mirror : j.mirror.track dt = (j.track dt).mirror ∧ (j.track dt).Mirrorable := by
  have hvel := abs_rampedVelocity_le h dt
  obtain ⟨htravel, hlt⟩ := travelled_neg hvel dt
  have herr : |(j.targetMdeg.toInt64 - j.positionMdeg.toInt64).toInt| < 2 ^ 62 := by
    have := abs_err_lt (j := j)
    rw [toInt_err]
    omega
  obtain ⟨hmoved, hpos⟩ := moved_mirror h (abs_finishStep_lt (v := j.rampedVelocity dt) herr hlt)
  have herrgt : -2 ^ 63 < (j.targetMdeg.toInt64 - j.positionMdeg.toInt64).toInt := by
    have := abs_lt.mp herr; omega
  have hgt : -2 ^ 63 < (j.rampedVelocity dt * u32ToI64 dt / 1000).toInt := by
    have := abs_lt.mp hlt; omega
  have hfinish := finishStep_neg (v := j.rampedVelocity dt) herrgt hgt
  have hnewVel : Negatable (finishStep (j.targetMdeg.toInt64 - j.positionMdeg.toInt64)
      (j.rampedVelocity dt * u32ToI64 dt / 1000) (j.rampedVelocity dt)).2.toInt32 := by
    rcases finishStep_vel (j.targetMdeg.toInt64 - j.positionMdeg.toInt64)
      (j.rampedVelocity dt * u32ToI64 dt / 1000) (j.rampedVelocity dt) with e | e
    · rw [e]; decide
    · rw [e]; exact negatable_toInt32 hvel
  refine ⟨?_, { h with position := hpos, velocity := hnewVel }⟩
  simp only [track, rampedVelocity_mirror h, err_mirror h, htravel, hfinish, Int64.toInt32_neg,
    hmoved]
  rfl

theorem checkTimeout_mirror : j.mirror.checkTimeout dt = (j.checkTimeout dt).mirror ∧
    (j.checkTimeout dt).Mirrorable := by
  refine ⟨?_, ?_⟩
  · unfold checkTimeout
    show (if j.mode = _ ∧ j.cfg.commandTimeoutMs ≠ 0 then _ else _) = _
    split
    · show (if j.sinceCommandMs + dt > j.cfg.commandTimeoutMs then _ else _) = _
      dsimp only
      split <;> rfl
    · rfl
  · obtain ⟨e, -⟩ | ⟨-, -, -, e⟩ | ⟨-, -, -, e⟩ := j.checkTimeout_cases dt <;> rw [e]
    · exact h
    · exact { h with }
    · exact { h with mode := .inl rfl }

theorem step_mirror : j.mirror.step dt = (j.step dt).mirror ∧ (j.step dt).Mirrorable := by
  obtain ⟨htimeout, hj⟩ := checkTimeout_mirror h dt
  unfold step
  by_cases h0 : dt = 0
  · rw [if_pos h0, if_pos h0]
    exact ⟨rfl, h⟩
  · rw [if_neg h0, if_neg h0, htimeout]
    show (if (j.checkTimeout dt).mode ≠ _ then _ else _) = _ ∧ _
    dsimp only
    split
    · exact brake_mirror hj dt
    · exact track_mirror hj dt

/-! ### Commands -/

theorem clamp_mirror (target : Int32) (htarget : Negatable target) :
    clamp32 (-target).toInt64 j.mirror.cfg.minMdeg j.mirror.cfg.maxMdeg =
      -clamp32 target.toInt64 j.cfg.minMdeg j.cfg.maxMdeg ∧
    Negatable (clamp32 target.toInt64 j.cfg.minMdeg j.cfg.maxMdeg) := by
  have hgt : -2 ^ 63 < target.toInt64.toInt := by
    have := target.le_toInt
    rw [Int32.toInt_toInt64]
    omega
  rw [htarget.toInt64_neg]
  exact clamp32_neg h.minMdeg h.maxMdeg h.order hgt

/-- A target is outside the limits exactly when its mirror image is. -/
theorem outside_mirror {target : Int32} (htarget : Negatable target) :
    (-target < j.mirror.cfg.minMdeg ∨ -target > j.mirror.cfg.maxMdeg) ↔
      (target < j.cfg.minMdeg ∨ target > j.cfg.maxMdeg) := by
  simp only [mirror, JointConfig.mirror, gt_iff_lt, Int32.lt_iff_toInt_lt, htarget.toInt_neg,
    h.minMdeg.toInt_neg, h.maxMdeg.toInt_neg, neg_lt_neg_iff]
  exact or_comm

theorem mirrorable_command {cmd : AcceptedCommand} (hcmd : Negatable cmd.1.targetMdeg) :
    (j.command cmd.1).Mirrorable where
  minMdeg := by rw [command_cfg]; exact h.minMdeg
  maxMdeg := by rw [command_cfg]; exact h.maxMdeg
  order := by rw [command_cfg]; exact h.order
  position := by rw [command_position]; exact h.position
  velocity := by rw [command_velocity]; exact h.velocity
  target := by
    rw [command_target]
    split
    · exact (clamp_mirror h _ hcmd).2
    · exact h.target
  acc := by rw [command_cfg]; exact h.acc
  vmax := command_vmax_nonneg h.vmax cmd
  mode := j.command_mode_cases cmd

theorem command_mirror {cmd : AcceptedCommand} (hcmd : Negatable cmd.1.targetMdeg) :
    j.mirror.command cmd.1.mirror = (j.command cmd.1).mirror := by
  have hclamp := (clamp_mirror h _ hcmd).1
  unfold command
  show (if cmd.1.mode ≠ _ then _ else _) = _
  dsimp only
  split
  · rfl
  · simp only [Command.mirror, hclamp, outside_mirror h hcmd]
    rfl

theorem act_mirror {a : JointAction} (ha : ∀ cmd, a = .command cmd → Negatable cmd.1.targetMdeg) :
    j.mirror.act a.mirror = (j.act a).mirror ∧ (j.act a).Mirrorable := by
  cases a with
  | command cmd => exact ⟨command_mirror h (ha cmd rfl), mirrorable_command h (ha cmd rfl)⟩
  | step dtMs => exact step_mirror h dtMs

end Velocity

/-! ## Runs -/

/-- Every target a run commands can be negated. -/
def NegatableTargets (acts : List JointAction) : Prop :=
  ∀ cmd, .command cmd ∈ acts → Negatable cmd.1.targetMdeg

theorem run_mirror {j : Joint} (h : j.Mirrorable) {acts : List JointAction}
    (hacts : NegatableTargets acts) :
    j.mirror.run (acts.map .mirror) = (j.run acts).mirror ∧ (j.run acts).Mirrorable := by
  induction acts generalizing j with
  | nil => exact ⟨rfl, h⟩
  | cons a acts ih =>
    obtain ⟨hact, hj⟩ := act_mirror h (a := a) (by rintro cmd rfl; exact hacts cmd (by simp))
    rw [List.map_cons, run_cons, hact]
    exact ih hj fun cmd hcmd => hacts cmd (List.mem_cons_of_mem a hcmd)

theorem mirrorable_init {cfg : JointConfig} (hmin : Negatable cfg.minMdeg)
    (hmax : Negatable cfg.maxMdeg) (horder : cfg.minMdeg.toInt ≤ cfg.maxMdeg.toInt + 1) :
    (init cfg).Mirrorable where
  minMdeg := hmin
  maxMdeg := hmax
  order := horder
  position := (by decide : Negatable 0)
  velocity := (by decide : Negatable 0)
  target := (by decide : Negatable 0)
  acc := init_accel_pos cfg
  vmax := le_rfl
  mode := .inl rfl

theorem init_mirror (cfg : JointConfig) : init cfg.mirror = (init cfg).mirror := by
  simp only [init, mirror, JointConfig.mirror, Int32.neg_zero]
  rfl

/-- Two joints behave alike in opposite directions. -/
structure Mirrors (j j' : Joint) : Prop where
  position : j'.positionMdeg.toInt = -j.positionMdeg.toInt
  velocity : j'.velocityMdegS.toInt = -j.velocityMdegS.toInt
  target : j'.targetMdeg.toInt = -j.targetMdeg.toInt
  mode : j'.mode = j.mode
  errorFlags : j'.errorFlags = j.errorFlags
  timeouts : j'.timeouts = j.timeouts
  lastSeq : j'.lastSeq = j.lastSeq
  current : j'.getState.currentMa = j.getState.currentMa

theorem mirrors_mirror {j : Joint} (h : j.Mirrorable) : Mirrors j j.mirror where
  position := h.position.toInt_neg
  velocity := h.velocity.toInt_neg
  target := h.target.toInt_neg
  mode := rfl
  errorFlags := rfl
  timeouts := rfl
  lastSeq := rfl
  current := by
    have habs : (if j.mirror.velocityMdegS < 0 then -j.mirror.velocityMdegS
        else j.mirror.velocityMdegS) =
        if j.velocityMdegS < 0 then -j.velocityMdegS else j.velocityMdegS := by
      have hvel : j.mirror.velocityMdegS.toInt = -j.velocityMdegS.toInt := h.velocity.toInt_neg
      rw [← Int32.toInt_inj, toInt_abs32 (v := j.mirror.velocityMdegS) h.velocity.neg,
        toInt_abs32 h.velocity, hvel, abs_neg]
    simp only [getState, habs]
    rfl

/-- **The joint behaves identically in both directions**, unless its soft limits are inverted. -/
theorem run_mirrors {cfg : JointConfig} (hmin : Negatable cfg.minMdeg)
    (hmax : Negatable cfg.maxMdeg) (horder : cfg.minMdeg.toInt ≤ cfg.maxMdeg.toInt + 1)
    {acts : List JointAction} (hacts : NegatableTargets acts) :
    Mirrors ((init cfg).run acts) ((init cfg.mirror).run (acts.map .mirror)) := by
  obtain ⟨hrun, hj⟩ := run_mirror (mirrorable_init hmin hmax horder) hacts
  rw [init_mirror, hrun]
  exact mirrors_mirror hj

/-- The shipped joint, sent beyond its limits and then disabled. -/
theorem run_mirrors_shipped :
    let cfg : JointConfig := ⟨-170000, 150000, 360000, 500⟩
    let acts : List JointAction :=
      [.command ⟨⟨1, 200000, 90000, 7⟩, decoderAccepts_iff.mpr (by decide)⟩, .step 10,
        .command ⟨⟨0, 0, 0, 8⟩, decoderAccepts_iff.mpr (by decide)⟩, .step 3]
    Mirrors ((init cfg).run acts) ((init cfg.mirror).run (acts.map .mirror)) := by
  intro cfg acts
  refine run_mirrors (by decide) (by decide) (by decide) ?_
  intro cmd hcmd
  simp only [acts, List.mem_cons, JointAction.command.injEq, reduceCtorEq, List.not_mem_nil,
    or_false, false_or] at hcmd
  rcases hcmd with rfl | rfl <;> decide

/-- A joint with inverted limits is its own mirror image. The target zero, its own mirror image
too, is clamped to the limit at 10 in both directions. -/
theorem not_mirrors_inverted :
    let cfg : JointConfig := ⟨10, -10, 1000, 0⟩
    let acts : List JointAction :=
      [.command ⟨⟨1, 0, 100, 1⟩, decoderAccepts_iff.mpr (by decide)⟩]
    Negatable cfg.minMdeg ∧ Negatable cfg.maxMdeg ∧
      cfg.maxMdeg.toInt - cfg.minMdeg.toInt ≤ 2 ^ 31 ∧ NegatableTargets acts ∧
      ¬Mirrors ((init cfg).run acts) ((init cfg.mirror).run (acts.map .mirror)) := by
  refine ⟨by decide, by decide, by decide, ?_, ?_⟩
  · intro cmd hcmd
    simp only [List.mem_singleton, JointAction.command.injEq] at hcmd
    rw [hcmd]
    decide
  · intro h
    exact absurd h.target (by decide +kernel)

end Joint

end Rjs
