import Mathlib.Data.List.Induction
import RobotJointStack.App.Node
import RobotJointStack.Joint.Run

/-!
# App.Envelope

The safety envelope of a node on an arbitrary bus. Whatever frames arrive, the joint stays inside
its soft limits, no faster than the largest velocity anyone has commanded and never faster than it
can stop within its range.

* `handleFrame_effect`: a frame reaches the joint only as a command the decoder accepts.
* `within_act`, `within_run`: the envelope, and what waits in the queue, over any events.
-/

namespace Rjs

/-- The command `handle_frame` takes out of a frame, on the node `nodeId`. -/
def acceptedCommand (nodeId : UInt8) (f : CanFrame) : Option Command :=
  if idType f.id = MsgType.command.code ∧ (idNode f.id = nodeId ∨ idNode f.id = nodeBroadcast) then
    match decodeCommand (some f) (some default) with
    | (.ok, cmd) => cmd
    | _ => none
  else none

/-- The velocity limit that an event brings in: the one of an accepted position command. -/
def AppEvent.velocityLimit (nodeId : UInt8) : AppEvent → Int
  | .frame f _ =>
    match acceptedCommand nodeId f with
    | some cmd =>
      if cmd.mode = JointMode.position.code then cmd.maxVelocityMdegS.toInt else 0
    | none => 0
  | _ => 0

/-- The largest velocity limit of the position commands accepted so far, zero if there is none. -/
def peakVelocity (nodeId : UInt8) (events : List AppEvent) : Int :=
  events.foldl (fun peak ev => max peak (ev.velocityLimit nodeId)) 0

theorem peakVelocity_snoc (nodeId : UInt8) (events : List AppEvent) (ev : AppEvent) :
    peakVelocity nodeId (events ++ [ev]) =
      max (peakVelocity nodeId events) (ev.velocityLimit nodeId) := by
  rw [peakVelocity, List.foldl_concat, ← peakVelocity]

namespace App

variable {p : Plant} {peak : Int} {a : App}

theorem acceptedCommand_accepts {nodeId : UInt8} {f : CanFrame} {cmd : Command}
    (h : acceptedCommand nodeId f = some cmd) : DecoderAccepts cmd := by
  unfold acceptedCommand at h
  split at h
  · split at h
    · rename_i cmd' hdec
      subst h
      exact ⟨f, default, hdec⟩
    · cases h
  · cases h

/-- Handling a frame leaves the joint alone, and sends the accepted command to the queue. -/
theorem handleFrame_effect (a : App) (f : CanFrame) (millis : UInt32) :
    (a.handleFrame f millis).joint = a.joint ∧ (a.handleFrame f millis).nodeId = a.nodeId ∧
      (a.handleFrame f millis).cmdQueue =
        match acceptedCommand a.nodeId f with
        | some cmd => (a.cmdQueue.send cmd).2
        | none => a.cmdQueue := by
  unfold handleFrame acceptedCommand
  dsimp only
  by_cases hbeat : idType f.id = MsgType.heartbeat.code
  · have hne : idType f.id ≠ MsgType.command.code := by rw [hbeat]; decide
    simp only [if_pos hbeat, hne, false_and, if_false]
    split <;> exact ⟨rfl, rfl, rfl⟩
  by_cases hcmd : idType f.id = MsgType.command.code
  · by_cases hfor : idNode f.id = a.nodeId ∨ idNode f.id = nodeBroadcast
    · have hours : ¬(idNode f.id ≠ a.nodeId ∧ idNode f.id ≠ nodeBroadcast) :=
        fun h => hfor.elim h.1 h.2
      simp only [if_neg hbeat, if_pos hcmd, if_neg hours, if_pos (And.intro hcmd hfor)]
      rcases decodeCommand (some f) (some default) with ⟨r, cmd⟩
      cases r <;> cases cmd <;> exact ⟨rfl, rfl, rfl⟩
    · have hothers : idNode f.id ≠ a.nodeId ∧ idNode f.id ≠ nodeBroadcast := not_or.mp hfor
      simp only [if_neg hbeat, if_pos hcmd, if_pos hothers,
        if_neg (fun h : _ ∧ _ => hfor h.2), true_and]
  · simp only [if_neg hbeat, hcmd, false_and, if_false]
    split
    · split <;> exact ⟨rfl, rfl, rfl⟩
    · exact ⟨rfl, rfl, rfl⟩

/-- The envelope of a node in plant `p` when the commands accepted so far allow `peak`. -/
structure Within (p : Plant) (peak : Int) (a : App) : Prop where
  safe : a.joint.Safe p
  limit : a.joint.maxVelocityMdegS.toInt ≤ peak
  speed : |a.joint.motion.vel| ≤ peak
  stoppable : a.joint.motion.vel ^ 2 ≤ 2 * p.acc * (p.hi - p.lo)
  /-- What waits in the queue has been accepted too. -/
  queue : ∀ cmd ∈ a.cmdQueue.items, DecoderAccepts cmd ∧
    (cmd.mode = JointMode.position.code → cmd.maxVelocityMdegS.toInt ≤ peak)

theorem within_start {cfg : JointConfig} (hcfg : cfg.HoldsZero) (nodeId : UInt8) (depth : Nat) :
    Within (cfg.plant hcfg) 0 (start nodeId depth cfg) where
  safe := Joint.safe_init cfg hcfg
  limit := le_rfl
  speed := le_rfl
  stoppable := by
    have hacc := (cfg.plant hcfg).acc_pos
    have hlo := (cfg.plant hcfg).lo_nonpos
    have hhi := (cfg.plant hcfg).hi_nonneg
    show (0 : Int) ^ 2 ≤ _
    rw [zero_pow two_ne_zero]
    exact Int.mul_nonneg (by omega) (by omega)
  queue := nofun

theorem Within.mono {peak' : Int} (h : Within p peak a) (hle : peak ≤ peak') :
    Within p peak' a where
  safe := h.safe
  limit := h.limit.trans hle
  speed := h.speed.trans hle
  stoppable := h.stoppable
  queue := fun cmd hcmd =>
    ⟨(h.queue cmd hcmd).1, fun hm => ((h.queue cmd hcmd).2 hm).trans hle⟩

/-- What a frame brings in is what waits in the queue afterwards. -/
theorem within_frame (h : Within p peak a) (f : CanFrame) (millis : UInt32) :
    Within p (max peak ((AppEvent.frame f millis).velocityLimit a.nodeId))
      (a.handleFrame f millis) := by
  obtain ⟨hjoint, -, hqueue⟩ := a.handleFrame_effect f millis
  have h' := h.mono (le_max_left peak ((AppEvent.frame f millis).velocityLimit a.nodeId))
  refine ⟨hjoint ▸ h'.safe, hjoint ▸ h'.limit, hjoint ▸ h'.speed, hjoint ▸ h'.stoppable, ?_⟩
  rw [hqueue]
  cases hacc : acceptedCommand a.nodeId f with
  | none => exact h'.queue
  | some new =>
    intro cmd hcmd
    rcases Fifo.mem_of_mem_send hcmd with hold | rfl
    · exact h'.queue cmd hold
    · refine ⟨acceptedCommand_accepts hacc, fun hm => le_max_of_le_right ?_⟩
      simp only [AppEvent.velocityLimit, hacc, if_pos hm, le_refl]

theorem within_receive (h : Within p peak a) : Within p peak a.receiveCommand := by
  unfold receiveCommand
  split
  · rename_i cmd q hreceive
    obtain ⟨hmem, hrest⟩ := Fifo.mem_of_receive hreceive
    obtain ⟨hacc, hpeak⟩ := h.queue cmd hmem
    have hmotion := a.joint.command_motion cmd
    refine ⟨Joint.safe_command h.safe ⟨cmd, hacc⟩, ?_, ?_, ?_, fun c hc => h.queue c (hrest c hc)⟩
    · show (a.joint.command cmd).maxVelocityMdegS.toInt ≤ peak
      rw [Joint.command_vmax]
      split
      · rename_i hm
        exact hpeak hm
      · exact h.limit
    · show |(a.joint.command cmd).motion.vel| ≤ peak
      rw [hmotion]; exact h.speed
    · show (a.joint.command cmd).motion.vel ^ 2 ≤ _
      rw [hmotion]; exact h.stoppable
  · exact h

theorem within_step (h : Within p peak a) (dtMs : UInt32) :
    Within p peak { a with joint := a.joint.step dtMs } where
  safe := Joint.safe_step h.safe dtMs
  limit := by
    show (a.joint.step dtMs).maxVelocityMdegS.toInt ≤ peak
    rw [Joint.step_vmax]; exact h.limit
  speed := Joint.abs_step_vel_le h.safe h.limit h.speed dtMs
  stoppable := Joint.step_vel_sq h.safe h.stoppable dtMs
  queue := h.queue

theorem within_act (h : Within p peak a) (ev : AppEvent) :
    Within p (max peak (ev.velocityLimit a.nodeId)) (a.act ev) := by
  have h' := h.mono (le_max_left peak (ev.velocityLimit a.nodeId))
  cases ev with
  | frame f millis => exact within_frame h f millis
  | poll millis => exact ⟨h'.safe, h'.limit, h'.speed, h'.stoppable, h'.queue⟩
  | receive => exact within_receive h'
  | lose i =>
    exact ⟨h'.safe, h'.limit, h'.speed, h'.stoppable,
      fun cmd hcmd => h'.queue cmd (Fifo.mem_of_mem_lose hcmd)⟩
  | step dtMs => exact within_step h' dtMs

theorem act_nodeId (a : App) (ev : AppEvent) : (a.act ev).nodeId = a.nodeId := by
  cases ev with
  | frame f millis => exact (a.handleFrame_effect f millis).2.1
  | receive => unfold act receiveCommand; dsimp only; split <;> rfl
  | poll millis => rfl
  | lose i => rfl
  | step dtMs => rfl

theorem within_run {cfg : JointConfig} (hcfg : cfg.HoldsZero) (nodeId : UInt8) (depth : Nat)
    (events : List AppEvent) : ((start nodeId depth cfg).run events).nodeId = nodeId ∧
      Within (cfg.plant hcfg) (peakVelocity nodeId events)
        ((start nodeId depth cfg).run events) := by
  induction events using List.reverseRecOn with
  | nil => exact ⟨rfl, within_start hcfg nodeId depth⟩
  | append_singleton events ev ih =>
    obtain ⟨hnode, hwithin⟩ := ih
    have hact := within_act hwithin ev
    rw [hnode] at hact
    rw [run, List.foldl_concat, ← run, peakVelocity_snoc]
    exact ⟨(act_nodeId _ ev).trans hnode, hact⟩

/-- **The safety envelope.** For every sequence of frames, steps and queue operations, the joint is
inside its soft limits in one of its two modes, no faster than the largest velocity of the position
commands accepted so far, and able to stop within the range. -/
theorem envelope {cfg : JointConfig} (hcfg : cfg.HoldsZero) (nodeId : UInt8) (depth : Nat)
    (events : List AppEvent) :
    let j := ((start nodeId depth cfg).run events).joint
    (cfg.minMdeg ≤ j.positionMdeg ∧ j.positionMdeg ≤ cfg.maxMdeg) ∧
    (cfg.minMdeg ≤ j.targetMdeg ∧ j.targetMdeg ≤ cfg.maxMdeg) ∧
    (j.mode = JointMode.disabled.code ∨ j.mode = JointMode.position.code) ∧
    |j.velocityMdegS.toInt| ≤ peakVelocity nodeId events ∧
    j.velocityMdegS.toInt ^ 2 ≤
      2 * j.cfg.accelMdegS2.toInt * (cfg.maxMdeg.toInt - cfg.minMdeg.toInt) := by
  obtain ⟨-, h⟩ := within_run hcfg nodeId depth events
  simp only [Int32.le_iff_toInt_le]
  rw [h.safe.acc]
  exact ⟨h.safe.pos, h.safe.target, h.safe.mode.imp_right And.left, h.speed, h.stoppable⟩

/-- A broadcast command taken from the bus, from the queue and into a step. -/
theorem envelope_broadcast :
    |((start 3 4 ⟨-170000, 170000, 360000, 500⟩).run
        [.frame ⟨makeId .command 0, commandLen, true, true,
          writeCommand ⟨1, 90000, 90000, 1⟩ (frameStart .command 0 0).data⟩ 10,
          .receive, .step 1]).joint.velocityMdegS.toInt| ≤
      peakVelocity 3 [.frame ⟨makeId .command 0, commandLen, true, true,
        writeCommand ⟨1, 90000, 90000, 1⟩ (frameStart .command 0 0).data⟩ 10, .receive, .step 1] :=
  (@envelope ⟨-170000, 170000, 360000, 500⟩ (by decide) 3 4 _).2.2.2.1

end App

end Rjs
