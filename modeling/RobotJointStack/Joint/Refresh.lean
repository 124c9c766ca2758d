import RobotJointStack.Joint.Timeout

/-!
# Joint.Refresh

A controller repeats its command to keep the joint from timing out. Two runs of the same steps:
one under the command alone, without a timeout, and one in which it is repeated at any points
under any timeout that does not expire.

* `Follows`: what the two joints have in common. A repeated command keeps it
  (`follows_command`), and so does a step (`follows_step`).
* `keepsAlive_run`: repetitions that come in time keep the timeout from expiring.
* `refresh_keeps_motion`: after every step, both joints move alike.
-/

namespace Rjs

open Flags History

namespace JointAction

def step? : JointAction → Option UInt32
  | .command _ => none
  | .step dtMs => some dtMs

end JointAction

/-- The lengths of the steps of a run. -/
def stepLengths (acts : List JointAction) : List UInt32 := acts.filterMap JointAction.step?

/-- A step, or the command again under any sequence number. -/
def Repeats (cmd : AcceptedCommand) : JointAction → Prop
  | .command again => again.1 = { cmd.1 with sequence := again.1.sequence }
  | .step _ => True

/-- Every step ends within the limit after the last command, `since` milliseconds having passed at
the start. -/
def KeepsAlive (limit : Nat) : Nat → List JointAction → Prop
  | _, [] => True
  | _, .command _ :: acts => KeepsAlive limit 0 acts
  | since, .step dtMs :: acts =>
    since + dtMs.toNat ≤ limit ∧ KeepsAlive limit (since + dtMs.toNat) acts

namespace Joint

/-- The joint with another command timeout. -/
def withTimeout (j : Joint) (limit : UInt32) : Joint :=
  { j with cfg := { j.cfg with commandTimeoutMs := limit } }

/-- In the run from `j`, no step is a command timeout. -/
def NeverExpires (j : Joint) (acts : List JointAction) : Prop :=
  AtEach (fun before a => ∀ dt, a = .step dt → ¬(j.run before).TimesOut dt) acts

/-- Two joints that move alike and show the same limit flag. -/
structure SameMotion (j j' : Joint) : Prop where
  position : j.positionMdeg = j'.positionMdeg
  velocity : j.velocityMdegS = j'.velocityMdegS
  target : j.targetMdeg = j'.targetMdeg
  maxVelocity : j.maxVelocityMdegS = j'.maxVelocityMdegS
  mode : j.mode = j'.mode
  limitReached : HasFlag j.errorFlags errLimitReached ↔ HasFlag j'.errorFlags errLimitReached

/-- Joint `j'`, under the repeated command, follows joint `j`, under the command alone. -/
structure Follows (cmd : Command) (j j' : Joint) : Prop extends SameMotion j j' where
  minMdeg : j.cfg.minMdeg = j'.cfg.minMdeg
  maxMdeg : j.cfg.maxMdeg = j'.cfg.maxMdeg
  accel : j.cfg.accelMdegS2 = j'.cfg.accelMdegS2
  unlimited : j.cfg.commandTimeoutMs = 0
  inPosition : j.mode = JointMode.position.code
  heads : j.targetMdeg = clamp32 cmd.targetMdeg.toInt64 j.cfg.minMdeg j.cfg.maxMdeg
  speed : j.maxVelocityMdegS = cmd.maxVelocityMdegS
  flag : HasFlag j.errorFlags errLimitReached ↔
    cmd.targetMdeg < j.cfg.minMdeg ∨ cmd.targetMdeg > j.cfg.maxMdeg

section Follows

variable {cmd : Command} {j j' : Joint}

/-- What a position command leaves behind. -/
theorem command_limitReached (j : Joint) (hm : cmd.mode = JointMode.position.code) :
    HasFlag (j.command cmd).errorFlags errLimitReached ↔
      cmd.targetMdeg < j.cfg.minMdeg ∨ cmd.targetMdeg > j.cfg.maxMdeg := by
  simp only [command, hm, ne_eq, not_true_eq_false, if_false]
  split
  · rename_i hout
    exact iff_of_true (hasFlag_set (by decide)) hout
  · rename_i hin
    exact iff_of_false not_hasFlag_clear hin

theorem follows_start (j : Joint) (hm : cmd.mode = JointMode.position.code) (limit : UInt32) :
    Follows cmd ((j.withTimeout 0).command cmd) ((j.withTimeout limit).command cmd) where
  position := by rw [command_position, command_position]; rfl
  velocity := by rw [command_velocity, command_velocity]; rfl
  target := by rw [command_target, command_target]; rfl
  maxVelocity := by rw [command_vmax, command_vmax]; rfl
  mode := by rw [command_mode, command_mode]
  limitReached := by rw [command_limitReached _ hm, command_limitReached _ hm]; rfl
  minMdeg := by rw [command_cfg, command_cfg]; rfl
  maxMdeg := by rw [command_cfg, command_cfg]; rfl
  accel := by rw [command_cfg, command_cfg]; rfl
  unlimited := by rw [command_cfg]; rfl
  inPosition := by rw [command_mode, hm]
  heads := by rw [command_target, if_pos hm, command_cfg]
  speed := by rw [command_vmax, if_pos hm]
  flag := by rw [command_limitReached _ hm, command_cfg]

/-- The command once more, whatever its sequence number. -/
theorem follows_command (h : Follows cmd j j') (hm : cmd.mode = JointMode.position.code)
    {again : Command} (hagain : again = { cmd with sequence := again.sequence }) :
    Follows cmd j (j'.command again) := by
  have hmode : again.mode = JointMode.position.code := by rw [hagain]; exact hm
  have htarget : again.targetMdeg = cmd.targetMdeg := by rw [hagain]
  have hspeed : again.maxVelocityMdegS = cmd.maxVelocityMdegS := by rw [hagain]
  refine { h with position := ?_, velocity := ?_, target := ?_, maxVelocity := ?_, mode := ?_,
                  limitReached := ?_, minMdeg := ?_, maxMdeg := ?_, accel := ?_ }
  · rw [command_position, h.position]
  · rw [command_velocity, h.velocity]
  · rw [command_target, if_pos hmode, htarget, h.heads, h.minMdeg, h.maxMdeg]
  · rw [command_vmax, if_pos hmode, hspeed, h.speed]
  · rw [command_mode, hmode, h.inPosition]
  · rw [command_limitReached _ hmode, htarget, h.flag, h.minMdeg, h.maxMdeg]
  · rw [command_cfg, h.minMdeg]
  · rw [command_cfg, h.maxMdeg]
  · rw [command_cfg, h.accel]

/-- Without a limit no step times out. -/
theorem not_timesOut_of_unlimited (h : j.cfg.commandTimeoutMs = 0) (dt : UInt32) :
    ¬j.TimesOut dt := by
  rw [timesOut_iff (by rw [h]; exact (Nat.zero_add _).trans_lt dt.toNat_lt)]
  · rintro ⟨-, ht, -⟩; exact ht h
  · intro _ ht; exact absurd h ht

/-- A step in position mode that does not time out tracks, with at most the timer changed. -/
theorem step_eq_track {dt : UInt32} (hm : j.mode = JointMode.position.code) (h0 : dt ≠ 0)
    (h : ¬j.TimesOut dt) : ∃ since, j.step dt = { j with sinceCommandMs := since }.track dt := by
  have hmode := (step_of_not_timesOut h).1
  rw [(j.step_control dt h0).1] at hmode
  obtain ⟨e, -⟩ | ⟨-, hne, -⟩ | ⟨-, -, e⟩ := j.step_cases dt
  · exact absurd e h0
  · exact absurd (hmode.trans hm) hne
  · obtain ⟨e', -⟩ | ⟨-, -, -, e'⟩ | ⟨-, -, -, e'⟩ := j.checkTimeout_cases dt
    · exact ⟨j.sinceCommandMs, by rw [e, e']⟩
    · exact ⟨_, by rw [e, e']⟩
    · rw [e', hm] at hmode; exact absurd hmode position_ne_disabled.symm

/-- Tracking looks at the motion, the goal and the limits only. -/
theorem track_congr (h : Follows cmd j j') (dt : UInt32) (since since' : UInt32) :
    ({ j with sinceCommandMs := since }.track dt).positionMdeg =
        ({ j' with sinceCommandMs := since' }.track dt).positionMdeg ∧
      ({ j with sinceCommandMs := since }.track dt).velocityMdegS =
        ({ j' with sinceCommandMs := since' }.track dt).velocityMdegS := by
  simp only [track, rampedVelocity, vWant, h.position, h.velocity, h.target, h.maxVelocity,
    h.minMdeg, h.maxMdeg, h.accel, and_self]

theorem follows_step (h : Follows cmd j j') {dt : UInt32} (hlive : ¬j'.TimesOut dt) :
    Follows cmd (j.step dt) (j'.step dt) := by
  by_cases h0 : dt = 0
  · rw [h0, step_zero, step_zero]; exact h
  have hlive₀ : ¬j.TimesOut dt := not_timesOut_of_unlimited h.unlimited dt
  obtain ⟨hmode, hflags, -⟩ := step_of_not_timesOut hlive
  obtain ⟨hmode₀, hflags₀, -⟩ := step_of_not_timesOut hlive₀
  obtain ⟨since, e⟩ := step_eq_track (h.mode ▸ h.inPosition) h0 hlive
  obtain ⟨since₀, e₀⟩ := step_eq_track h.inPosition h0 hlive₀
  have hmove := track_congr h dt since₀ since
  exact {
    position := by rw [e, e₀]; exact hmove.1
    velocity := by rw [e, e₀]; exact hmove.2
    target := by rw [step_target, step_target, h.target]
    maxVelocity := by rw [step_vmax, step_vmax, h.maxVelocity]
    mode := by rw [hmode, hmode₀, h.mode]
    limitReached := by rw [hflags, hflags₀, h.limitReached]
    minMdeg := by rw [step_cfg, step_cfg, h.minMdeg]
    maxMdeg := by rw [step_cfg, step_cfg, h.maxMdeg]
    accel := by rw [step_cfg, step_cfg, h.accel]
    unlimited := by rw [step_cfg, h.unlimited]
    inPosition := by rw [hmode₀, h.inPosition]
    heads := by rw [step_target, step_cfg, h.heads]
    speed := by rw [step_vmax, h.speed]
    flag := by rw [hflags₀, step_cfg, h.flag] }

end Follows

/-! ## Runs -/

theorem follows_run {cmd : AcceptedCommand} (j : Joint)
    (hm : cmd.1.mode = JointMode.position.code) (limit : UInt32) {acts : List JointAction}
    (hrep : ∀ a ∈ acts, Repeats cmd a)
    (hlive : NeverExpires ((j.withTimeout limit).command cmd.1) acts) :
    Follows cmd.1 (((j.withTimeout 0).command cmd.1).steps (stepLengths acts))
      (((j.withTimeout limit).command cmd.1).run acts) := by
  induction acts using List.reverseRecOn with
  | nil => exact follows_start j hm limit
  | append_singleton acts a ih =>
    obtain ⟨hbefore, hlast⟩ := atEach_snoc.mp hlive
    have h := ih (fun b hb => hrep b (List.mem_append_left [a] hb)) hbefore
    have ha : Repeats cmd a := hrep a (List.mem_append_right acts List.mem_cons_self)
    rw [run_snoc, stepLengths, List.filterMap_append, ← stepLengths, steps_append]
    cases a with
    | command again => exact follows_command h hm ha
    | step dt => exact follows_step h (hlast dt rfl)

/-- **Refreshing a command does not disturb the motion.** Whatever the joint was doing, at every
point of the run it moves as it would have moved under the command alone. -/
theorem refresh_keeps_motion (j : Joint) (cmd : AcceptedCommand)
    (hm : cmd.1.mode = JointMode.position.code) (limit : UInt32) {acts : List JointAction}
    (hrep : ∀ a ∈ acts, Repeats cmd a)
    (hlive : NeverExpires ((j.withTimeout limit).command cmd.1) acts) :
    ∀ before after, acts = before ++ after →
      SameMotion (((j.withTimeout 0).command cmd.1).steps (stepLengths before))
        (((j.withTimeout limit).command cmd.1).run before) := by
  rintro before after rfl
  refine (follows_run j hm limit (fun a ha => hrep a (List.mem_append_left after ha)) ?_).toSameMotion
  intro pre a post hpre
  exact hlive pre a (post ++ after) (by rw [hpre]; simp)

/-! ## Refreshing in time -/

/-- A step that ends within the limit does not time out. -/
theorem not_timesOut_of_le {j : Joint} {dt : UInt32}
    (h : j.sinceCommandMs.toNat + dt.toNat ≤ j.cfg.commandTimeoutMs.toNat) : ¬j.TimesOut dt := by
  rintro ⟨hm, hd⟩
  by_cases h0 : dt = 0
  · rw [h0, step_zero, hm] at hd
    exact position_ne_disabled hd
  · rw [(j.step_control dt h0).1] at hd
    obtain ⟨e, -⟩ | ⟨-, -, -, e⟩ | ⟨-, -, hlt, -⟩ := j.checkTimeout_cases dt
    · rw [e, hm] at hd; exact position_ne_disabled hd
    · rw [e] at hd; exact position_ne_disabled (hm.symm.trans hd)
    · have := j.cfg.commandTimeoutMs.toNat_lt
      rw [UInt32.lt_iff_toNat_lt, UInt32.toNat_add, Nat.mod_eq_of_lt (by omega)] at hlt
      omega

/-- Repetitions that come in time keep the timeout from expiring. -/
theorem keepsAlive_run {cmd : AcceptedCommand} (hcmd : cmd.1.mode = JointMode.position.code)
    {j : Joint} {acts : List JointAction} (hrep : ∀ a ∈ acts, Repeats cmd a)
    (hm : j.mode = JointMode.position.code) (ht : j.cfg.commandTimeoutMs ≠ 0)
    (h : KeepsAlive j.cfg.commandTimeoutMs.toNat j.sinceCommandMs.toNat acts) :
    NeverExpires j acts := by
  induction acts generalizing j with
  | nil => exact atEach_nil _
  | cons a acts ih =>
    have hrest : ∀ b ∈ acts, Repeats cmd b := fun b hb => hrep b (List.mem_cons_of_mem a hb)
    cases a with
    | command again =>
      have hagain : again.1 = { cmd.1 with sequence := again.1.sequence } :=
        hrep _ List.mem_cons_self
      refine atEach_cons.mpr ⟨?_, ih hrest ?_ ?_ ?_⟩
      · intro dt hdt
        cases hdt
      · rw [act, command_mode, hagain, hcmd]
      · rw [act, command_cfg]; exact ht
      · rw [act, command_cfg, command_since]; exact h
    | step dt =>
      obtain ⟨hle, hnext⟩ := h
      have hlive : ¬j.TimesOut dt := not_timesOut_of_le hle
      obtain ⟨hmode, -, -, htimer⟩ := step_of_not_timesOut hlive
      refine atEach_cons.mpr ⟨?_, ih hrest ?_ ?_ ?_⟩
      · intro d hd
        cases hd
        exact hlive
      · rw [act, hmode, hm]
      · rw [act, step_cfg]; exact ht
      · have hlimit := j.cfg.commandTimeoutMs.toNat_lt
        rw [act, step_cfg, htimer, if_pos ⟨hm, ht⟩, UInt32.toNat_add, Nat.mod_eq_of_lt (by omega)]
        exact hnext

/-- No timeout expires under a limit of zero, or where every repetition comes in time. -/
theorem neverExpires_of_keepsAlive (j : Joint) {cmd : AcceptedCommand}
    (hm : cmd.1.mode = JointMode.position.code) (limit : UInt32) {acts : List JointAction}
    (hrep : ∀ a ∈ acts, Repeats cmd a) (h : limit = 0 ∨ KeepsAlive limit.toNat 0 acts) :
    NeverExpires ((j.withTimeout limit).command cmd.1) acts := by
  have hcfg : ((j.withTimeout limit).command cmd.1).cfg.commandTimeoutMs = limit := by
    rw [command_cfg]; rfl
  by_cases h0 : limit = 0
  · have hrun : ∀ before, (((j.withTimeout limit).command cmd.1).run before).cfg.commandTimeoutMs =
        0 := by
      intro before
      rw [run_cfg, hcfg, h0]
    intro before a after _ dt _
    exact not_timesOut_of_unlimited (hrun before) dt
  · refine keepsAlive_run hm hrep (by rw [command_mode, hm]) (by rw [hcfg]; exact h0) ?_
    rw [hcfg, command_since]
    exact h.resolve_left h0

/-- A command repeated every 100 ms under a 500 ms limit, with the joint on its way. -/
theorem refresh_keeps_motion_sweep :
    let cmd : AcceptedCommand := ⟨⟨1, 90000, 90000, 7⟩, decoderAccepts_iff.mpr (by decide)⟩
    let again : AcceptedCommand := ⟨⟨1, 90000, 90000, 8⟩, decoderAccepts_iff.mpr (by decide)⟩
    let j := init ⟨-170000, 170000, 360000, 500⟩
    SameMotion (((j.withTimeout 0).command cmd.1).steps [100, 100])
      (((j.withTimeout 500).command cmd.1).run [.step 100, .command again, .step 100]) := by
  intro cmd again j
  have hrep : ∀ a ∈ [JointAction.step 100, .command again, .step 100], Repeats cmd a := by
    intro a ha
    simp only [List.mem_cons, List.not_mem_nil, or_false] at ha
    obtain rfl | rfl | rfl := ha
    · trivial
    · rfl
    · trivial
  have hlive : KeepsAlive (500 : UInt32).toNat 0 [.step 100, .command again, .step 100] :=
    ⟨by decide, by decide, trivial⟩
  have h := refresh_keeps_motion j cmd rfl 500 hrep
    (neverExpires_of_keepsAlive j rfl 500 hrep (.inr hlive))
  exact h [.step 100, .command again, .step 100] [] rfl

end Joint

end Rjs
