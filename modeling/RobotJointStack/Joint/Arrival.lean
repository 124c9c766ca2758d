import RobotJointStack.Joint.Run

/-!
# Joint.Arrival

A joint in position mode reaches its target, does not pass it, and stays on it.

* `stops_on_target`: no step passes the target, and a joint that has reached it rests there until
  a command with another target.
* `stepsLeft_run`, `reaches_target`: `Plant.stepsLeft` falls with every step, so the target is
  reached within `|velocity|` and the travel range together.
-/

namespace Rjs

def JointAction.isStep : JointAction → Bool
  | .command _ => false
  | .step _ => true

namespace Joint

variable {p : Plant} {j : Joint}

/-! ## On the target -/

/-- No command with another clamped target. -/
def KeepsTarget (j : Joint) : JointAction → Prop
  | .command cmd => cmd.1.mode = JointMode.position.code →
      clamp32 cmd.1.targetMdeg.toInt64 j.cfg.minMdeg j.cfg.maxMdeg = j.targetMdeg
  | .step _ => True

instance (j : Joint) : ∀ a, Decidable (j.KeepsTarget a)
  | .command cmd => inferInstanceAs (Decidable (cmd.1.mode = JointMode.position.code → _))
  | .step _ => .isTrue trivial

theorem act_target {a : JointAction} (ha : j.KeepsTarget a) :
    (j.act a).targetMdeg = j.targetMdeg := by
  cases a with
  | command cmd =>
    show (j.command cmd.1).targetMdeg = j.targetMdeg
    rw [command_target]
    split
    · rename_i hm
      exact ha hm
    · rfl
  | step dtMs => exact j.step_target dtMs

/-- What keeps the target still does after an action that keeps it. -/
theorem keepsTarget_act {a : JointAction} (ha : j.KeepsTarget a) :
    (j.act a).KeepsTarget = j.KeepsTarget := by
  funext b
  cases b <;> simp only [KeepsTarget, act_cfg, act_target ha]

theorem act_rest (h : j.Safe p) (hrest : j.motion = ⟨j.targetMdeg.toInt, 0⟩) (a : JointAction) :
    (j.act a).motion = j.motion := by
  cases a with
  | command cmd => exact j.command_motion cmd.1
  | step dtMs => exact step_rest h hrest dtMs

theorem run_rest (h : j.Safe p) (hrest : j.motion = ⟨j.targetMdeg.toInt, 0⟩)
    {more : List JointAction} (hmore : ∀ a ∈ more, j.KeepsTarget a) :
    (j.run more).motion = j.motion := by
  induction more generalizing j with
  | nil => rfl
  | cons a more ih =>
    have ha := hmore a List.mem_cons_self
    have hmotion := act_rest h hrest a
    rw [run_cons, ← hmotion]
    refine ih (safe_act h a) (by rw [hmotion, act_target ha, hrest]) fun b hb => ?_
    rw [keepsTarget_act ha]
    exact hmore b (List.mem_cons_of_mem a hb)

/-- **No overshoot, no drift.** In any reachable joint, a step that stays in position mode does not
pass the target. If it reaches the target from elsewhere the joint stands still, and it stays
there through all steps, timeouts and commands that keep the target. -/
theorem stops_on_target {cfg : JointConfig} (hcfg : cfg.HoldsZero) {acts : List JointAction}
    {dt : UInt32} (hstay : (((init cfg).run acts).step dt).mode = JointMode.position.code) :
    let j := (init cfg).run acts
    (j.positionMdeg < j.targetMdeg → (j.step dt).positionMdeg ≤ j.targetMdeg) ∧
    (j.targetMdeg < j.positionMdeg → j.targetMdeg ≤ (j.step dt).positionMdeg) ∧
    (j.positionMdeg ≠ j.targetMdeg → (j.step dt).positionMdeg = j.targetMdeg →
      (j.step dt).velocityMdegS = 0 ∧
      ∀ more : List JointAction, (∀ a ∈ more, j.KeepsTarget a) →
        ((j.step dt).run more).positionMdeg = j.targetMdeg ∧
        ((j.step dt).run more).velocityMdegS = 0) := by
  have h := safe_reachable cfg hcfg acts
  generalize (init cfg).run acts = j at h hstay
  simp only [Int32.lt_iff_toInt_lt, Int32.le_iff_toInt_le, ← motion_pos]
  have hpos : (cfg.plant hcfg).Holds j.motion.pos := h.pos
  by_cases h0 : dt = 0
  · subst h0
    rw [step_zero]
    exact ⟨le_of_lt, le_of_lt, fun hne he => absurd he hne⟩
  obtain ⟨-, hd, -⟩ | ⟨-, -, -, e⟩ := motion_step h h0
  · exact absurd (hstay.symm.trans hd) position_ne_disabled
  refine ⟨fun hlt => ?_, fun hlt => ?_, fun hne hreach => ?_⟩
  · rw [e]; exact Plant.track_le_target _ _ hpos h.target hlt
  · rw [e]; exact Plant.target_le_track _ h.vmax hpos h.target hlt
  · have hne' : j.motion.pos ≠ j.targetMdeg.toInt := fun he => hne (Int32.toInt_inj.mp he)
    have hreach' : (j.step dt).motion.pos = j.targetMdeg.toInt := by rw [motion_pos, hreach]
    have hstop : (j.step dt).motion = ⟨j.targetMdeg.toInt, 0⟩ := by
      rw [e] at hreach' ⊢
      exact Plant.track_stop _ hpos h.target hne' hreach'
    refine ⟨Int32.toInt_inj.mp (congrArg Motion.vel hstop), fun more hmore => ?_⟩
    have hrun : ((j.step dt).run more).motion = ⟨j.targetMdeg.toInt, 0⟩ := by
      rw [run_rest (safe_step h dt) (by rw [hstop, step_target]) fun a ha => ?_, hstop]
      have hkeep := keepsTarget_act (j := j) (a := .step dt) trivial
      exact hkeep ▸ hmore a ha
    exact ⟨Int32.toInt_inj.mp (congrArg Motion.pos hrun),
      Int32.toInt_inj.mp (congrArg Motion.vel hrun)⟩

theorem stops_on_target_last :
    ((((init ⟨-170000, 170000, 200000, 0⟩).run
      [.command ⟨⟨1, 70, 100000, 1⟩, decoderAccepts_iff.mpr (by decide)⟩, .step 10,
        .step 10]).step 10).run [.step 10, .step 0, .step 25]).positionMdeg =
      ((init ⟨-170000, 170000, 200000, 0⟩).run
        [.command ⟨⟨1, 70, 100000, 1⟩, decoderAccepts_iff.mpr (by decide)⟩, .step 10,
          .step 10]).targetMdeg :=
  (((@stops_on_target ⟨-170000, 170000, 200000, 0⟩ (by decide)
    [.command ⟨⟨1, 70, 100000, 1⟩, decoderAccepts_iff.mpr (by decide)⟩, .step 10, .step 10] 10
    (by decide +kernel)).2.2 (by decide +kernel) (by decide +kernel)).2
    [.step 10, .step 0, .step 25] (by decide +kernel)).1

/-! ## Reaching the target -/

/-- A step, or the command in force again: the same clamped target and velocity limit. -/
def KeepsGoing (j : Joint) : JointAction → Prop
  | .command cmd =>
      clamp32 cmd.1.targetMdeg.toInt64 j.cfg.minMdeg j.cfg.maxMdeg = j.targetMdeg ∧
      cmd.1.maxVelocityMdegS = j.maxVelocityMdegS
  | .step dtMs => 1 ≤ dtMs

instance (j : Joint) : ∀ a, Decidable (j.KeepsGoing a)
  | .command _ => inferInstanceAs (Decidable (_ ∧ _))
  | .step dtMs => inferInstanceAs (Decidable (1 ≤ dtMs))

/-- The joint is in position mode after the action. -/
def StaysInPosition (j : Joint) (a : JointAction) : Prop := (j.act a).mode = JointMode.position.code

instance (j : Joint) (a : JointAction) : Decidable (j.StaysInPosition a) :=
  inferInstanceAs (Decidable (_ = _))

def stepCount (acts : List JointAction) : Nat := acts.countP JointAction.isStep

theorem KeepsGoing.keepsTarget {a : JointAction} (ha : j.KeepsGoing a) : j.KeepsTarget a := by
  cases a with
  | command cmd => exact fun _ => ha.1
  | step dtMs => trivial

theorem act_vmax {a : JointAction} (ha : j.KeepsGoing a) :
    (j.act a).maxVelocityMdegS = j.maxVelocityMdegS := by
  cases a with
  | command cmd =>
    show (j.command cmd.1).maxVelocityMdegS = j.maxVelocityMdegS
    rw [command_vmax]
    split
    · exact ha.2
    · rfl
  | step dtMs => exact j.step_vmax dtMs

theorem keepsGoing_act {a : JointAction} (ha : j.KeepsGoing a) :
    (j.act a).KeepsGoing = j.KeepsGoing := by
  funext b
  cases b <;> simp only [KeepsGoing, act_cfg, act_target ha.keepsTarget, act_vmax ha]

/-- An action takes one off the steps left if it is a step, and nothing if it is a command. -/
theorem stepsLeft_act (h : j.Safe p) {a : JointAction} (ha : j.KeepsGoing a)
    (hstay : j.StaysInPosition a) :
    p.stepsLeft j.targetMdeg.toInt (j.act a).motion ≤
      max 0 (p.stepsLeft j.targetMdeg.toInt j.motion - if a.isStep then 1 else 0) := by
  have hnn := p.stepsLeft_nonneg j.targetMdeg.toInt j.motion
  cases a with
  | command cmd =>
    have hmotion : (j.act (.command cmd)).motion = j.motion := j.command_motion cmd.1
    rw [hmotion]
    simp [JointAction.isStep]
  | step dt =>
    have h0 : dt ≠ 0 := ne_zero_of_one_le ha
    obtain ⟨-, hd, -⟩ | ⟨-, hm, -, e⟩ := motion_step h h0
    · exact absurd (hstay.symm.trans hd) position_ne_disabled
    · -- position mode comes with a positive velocity limit
      have hv : 0 < j.maxVelocityMdegS.toInt := by
        rcases h.mode with hd | ⟨-, hv⟩
        · exact absurd (hm.symm.trans hd) position_ne_disabled
        · exact hv
      show p.stepsLeft _ (j.step dt).motion ≤ _
      rw [e]
      exact Plant.stepsLeft_track dt.toNat hv h.pos h.target

theorem stepsLeft_run (h : j.Safe p) {more : List JointAction} (hmore : ∀ a ∈ more, j.KeepsGoing a)
    (hstay : Along StaysInPosition j more) :
    (j.run more).targetMdeg = j.targetMdeg ∧ p.stepsLeft j.targetMdeg.toInt (j.run more).motion ≤
      max 0 (p.stepsLeft j.targetMdeg.toInt j.motion - stepCount more) := by
  induction more generalizing j with
  | nil => exact ⟨rfl, by simp [stepCount]⟩
  | cons a more ih =>
    have ha := hmore a List.mem_cons_self
    have htarget := act_target ha.keepsTarget
    have hone := stepsLeft_act h ha hstay.1
    obtain ⟨hsame, hrest⟩ := ih (safe_act h a) (fun b hb => by
      rw [keepsGoing_act ha]; exact hmore b (List.mem_cons_of_mem a hb)) hstay.2
    rw [htarget] at hsame hrest
    have hcount : stepCount (a :: more) = stepCount more + if a.isStep then 1 else 0 := by
      rw [stepCount, List.countP_cons]; rfl
    refine ⟨hsame, ?_⟩
    rw [run_cons, hcount]
    push_cast
    omega

/-- Enough steps bring the joint to rest on its target. -/
theorem rests_on_target (h : j.Safe p) {more : List JointAction}
    (hmore : ∀ a ∈ more, j.KeepsGoing a) (hstay : Along StaysInPosition j more)
    (hcount : |j.velocityMdegS.toInt| + (p.hi - p.lo) ≤ stepCount more) :
    (j.run more).targetMdeg = j.targetMdeg ∧ (j.run more).motion = ⟨j.targetMdeg.toInt, 0⟩ := by
  have hpos : p.Holds j.motion.pos := h.pos
  have hstart : p.stepsLeft j.targetMdeg.toInt j.motion ≤
      |j.velocityMdegS.toInt| + (p.hi - p.lo) := Plant.stepsLeft_le hpos h.target
  obtain ⟨hsame, hleft⟩ := stepsLeft_run h hmore hstay
  have hdone : p.stepsLeft j.targetMdeg.toInt (j.run more).motion = 0 :=
    le_antisymm (by omega) (Plant.stepsLeft_nonneg _ _ _)
  exact ⟨hsame, Plant.eq_of_stepsLeft_eq_zero hdone⟩

/-- **The joint reaches its target.** From any reachable joint, a run that stays in position mode
under one target and velocity limit is at rest on the target once it has made `|velocity|` steps
and one for every millidegree of the range. -/
theorem reaches_target {cfg : JointConfig} (hcfg : cfg.HoldsZero) {acts more : List JointAction}
    (hmore : ∀ a ∈ more, ((init cfg).run acts).KeepsGoing a)
    (hstay : Along StaysInPosition ((init cfg).run acts) more)
    (hcount : |((init cfg).run acts).velocityMdegS.toInt| +
      (cfg.maxMdeg.toInt - cfg.minMdeg.toInt) + 1 ≤ stepCount more) :
    (((init cfg).run acts).run more).positionMdeg = ((init cfg).run acts).targetMdeg ∧
    (((init cfg).run acts).run more).targetMdeg = ((init cfg).run acts).targetMdeg ∧
    (((init cfg).run acts).run more).velocityMdegS = 0 := by
  have hspan : (cfg.plant hcfg).hi - (cfg.plant hcfg).lo =
      cfg.maxMdeg.toInt - cfg.minMdeg.toInt := rfl
  obtain ⟨hsame, hend⟩ :=
    rests_on_target (safe_reachable cfg hcfg acts) hmore hstay (by rw [hspan]; omega)
  exact ⟨Int32.toInt_inj.mp (congrArg Motion.pos hend), hsame,
    Int32.toInt_inj.mp (congrArg Motion.vel hend)⟩

theorem reaches_target_short :
    (((init ⟨-3, 4, 1000, 30⟩).run
      [.command ⟨⟨1, 4, 1, 1⟩, decoderAccepts_iff.mpr (by decide)⟩]).run
      (.step 20 :: .command ⟨⟨1, 9, 1, 2⟩, decoderAccepts_iff.mpr (by decide)⟩ ::
        List.replicate 7 (.step 2))).positionMdeg = 4 :=
  (@reaches_target ⟨-3, 4, 1000, 30⟩ (by decide)
    [.command ⟨⟨1, 4, 1, 1⟩, decoderAccepts_iff.mpr (by decide)⟩]
    (.step 20 :: .command ⟨⟨1, 9, 1, 2⟩, decoderAccepts_iff.mpr (by decide)⟩ ::
      List.replicate 7 (.step 2)) (by decide +kernel) (by decide +kernel) (by decide +kernel)).1

end Joint
end Rjs
