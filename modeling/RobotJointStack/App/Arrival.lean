import RobotJointStack.App.Stop
import RobotJointStack.Joint.Approach

/-!
# App.Arrival

The sweep comes to its ends. The controller turns round every 3000 ms, and a joint that takes
commands for one end needs at most 2875 iterations of its control task to get there, from wherever
it is and however fast it moves the other way.

* `headsFor_act`: a node whose joint heads for a target goes on doing so, as long as commands for it
  keep coming before the time limit runs out.
* `timeLeft_run`: meanwhile every iteration takes one off the time left.
* `sweep_arrives`: so the joint stands still at the end of the sweep.
-/

namespace Rjs

open Network

/-- In position mode, with at most `s` milliseconds gone since the last command. -/
structure Joint.HeadsFor (target : Int32) (s : Nat) (j : Joint) : Prop where
  mode : j.mode = JointMode.position.code
  target : j.targetMdeg = target
  since : j.sinceCommandMs.toNat ≤ s

namespace Node

/-- The joint heads for `target`, or will with the next iteration of `control_task`. -/
structure HeadsFor (target : Int32) (s : Nat) (n : Node) : Prop where
  queued : ∀ cmd ∈ n.app.cmdQueue.items, cmd.targetMdeg = target
  joint : n.app.cmdQueue.items = [] → n.app.joint.HeadsFor target s

/-- The iterations since the last command, after an event. -/
def silenceAfter (n : Node) (s : Nat) (ev : NodeEvent) : Nat :=
  if n.offered? ev ≠ none then 0 else if ev.isControl then s + 1 else s

/-- All commands that the events offer are for `target`, and there is one before the time limit of
the joint runs out. -/
def Fed (target : Int32) : Node → Nat → List NodeEvent → Prop
  | _, _, [] => True
  | n, s, ev :: events =>
    (∀ cmd ∈ n.offered? ev, cmd.targetMdeg = target) ∧
      n.silenceAfter s ev ≤ controlConfig.commandTimeoutMs.toNat ∧
      Fed target (n.act ev) (n.silenceAfter s ev) events

variable {ι : Type} {ids : ι → UInt8} {sent : List (ι × Transmission)} {i : ι}
  {n : Node} {ev : NodeEvent} {target : Int32} {s : Nat}

/-! ## The joint -/

theorem headsFor_commands {j : Joint} (h : Obeys ids sent i j) {cmds : List Command}
    (hcmds : ∀ cmd ∈ cmds, Issued ids sent i cmd) (ht : ∀ cmd ∈ cmds, cmd.targetMdeg = target)
    (hnil : cmds = [] → j.HeadsFor target s) :
    (cmds.foldl Joint.command j).HeadsFor target s := by
  induction cmds generalizing j with
  | nil => exact hnil rfl
  | cons cmd cmds ih =>
    rw [List.forall_mem_cons] at hcmds ht
    have hsweep := hcmds.1.isSweep
    refine ih (obeys_command h hcmds.1) hcmds.2 ht.2 fun _ => ⟨?_, ?_, ?_⟩
    · rw [Joint.command_mode, hsweep.mode]
    · rw [hsweep.command_target h.confined.safe, ht.1]
    · rw [Joint.command_since]
      exact Nat.zero_le s

/-- A step within the time limit. -/
theorem headsFor_step {j : Joint} (h : Obeys ids sent i j) (hj : j.HeadsFor target s)
    (hs : s + 1 ≤ controlConfig.commandTimeoutMs.toNat) :
    (j.step 1).HeadsFor target (s + 1) := by
  have htimed := h.attended.timed
  have hlimit : controlConfig.commandTimeoutMs.toNat = 500 := rfl
  have hsince := hj.since
  have hout : ¬j.TimesOut 1 := by
    have hone : (1 : UInt32).toNat = 1 := rfl
    rw [Joint.timesOut_iff (by rw [htimed, hone]; omega) fun hm _ => htimed ▸ h.attended.timer hm,
      htimed, hone]
    omega
  obtain ⟨hmode, -, -, hnext⟩ := Joint.step_of_not_timesOut hout
  refine ⟨hmode.trans hj.mode, by rw [Joint.step_target, hj.target], ?_⟩
  rw [hnext, if_pos ⟨hj.mode, by rw [htimed]; decide⟩, UInt32.toNat_add, UInt32.toNat_one]
  omega

theorem commands_motion (j : Joint) (cmds : List Command) :
    (cmds.foldl Joint.command j).motion = j.motion := by
  induction cmds generalizing j with
  | nil => rfl
  | cons cmd cmds ih => rw [List.foldl_cons, ih, Joint.command_motion]

/-! ## The time left -/

/-- Twice the amplitude: the joint and its target are both inside the sweep. -/
def sweepSpan : Int := 2 * sweepAmplitudeMdeg.toInt

/-- The time until the joint is at rest on `target`. -/
noncomputable def timeLeft (target : Int32) (n : Node) : ℝ :=
  controlPlant.timeLeft target.toInt sweepVelocityMdegS.toInt sweepSpan n.app.joint.motion

theorem abs_target_sub_le {j : Joint} (h : Obeys ids sent i j)
    (ht : |target.toInt| ≤ sweepAmplitudeMdeg.toInt) :
    |target.toInt - j.motion.pos| ≤ sweepSpan := by
  have hpos := h.confined.pos
  rw [abs_le] at ht ⊢
  simp only [sweepSpan, Joint.motion_pos]
  omega

/-- An iteration of `control_task` with the commands it finds. -/
theorem act_control (h : Obeys ids sent i n.app.joint)
    (hqueue : ∀ cmd ∈ n.app.cmdQueue.items, Issued ids sent i cmd)
    (hn : n.HeadsFor target s) (hs : s + 1 ≤ controlConfig.commandTimeoutMs.toNat)
    (ht : |target.toInt| ≤ sweepAmplitudeMdeg.toInt) (result : CanResult) :
    (n.act (.control result)).HeadsFor target (s + 1) ∧
      (n.act (.control result)).timeLeft target ≤ max 0 (n.timeLeft target - 1) := by
  obtain ⟨hdrain, hitems, -, -⟩ := drain_joint n.app
  have hobeys := obeys_commands h hqueue
  have hheads := headsFor_commands h hqueue hn.queued hn.joint
  have hstep := headsFor_step hobeys hheads hs
  have hspan := abs_target_sub_le (obeys_step hobeys) ht
  have hleft := Joint.timeLeft_step hobeys.confined.safe hstep.mode (hheads.target ▸ hspan)
  rw [hobeys.velocity hheads.mode, hheads.target, commands_motion, ← hdrain] at hleft
  rw [← hdrain] at hstep
  refine ⟨⟨?_, fun _ => ?_⟩, ?_⟩
  · rw [act_app]
    exact fun cmd hcmd => absurd (hitems ▸ hcmd) List.not_mem_nil
  · rw [act_app]
    exact hstep
  · rw [timeLeft, act_app]
    exact hleft

/-- One event of the node. -/
theorem headsFor_act [DecidableEq ι] (h : Member ids sent i n) (hroom : 0 < n.app.cmdQueue.depth)
    (hn : n.HeadsFor target s) (hoff : ∀ cmd ∈ n.offered? ev, cmd.targetMdeg = target)
    (hs : n.silenceAfter s ev ≤ controlConfig.commandTimeoutMs.toNat)
    (ht : |target.toInt| ≤ sweepAmplitudeMdeg.toInt) :
    (n.act ev).HeadsFor target (n.silenceAfter s ev) ∧
      (n.act ev).timeLeft target ≤
        max 0 (n.timeLeft target - if ev.isControl then 1 else 0) := by
  by_cases hcontrol : ∃ result, ev = .control result
  · obtain ⟨result, rfl⟩ := hcontrol
    exact act_control h.joint h.queue hn hs ht result
  · obtain ⟨hjoint, hqueue⟩ := n.act_quiet ev fun result he => hcontrol ⟨result, he⟩
    have hfalse : ev.isControl = false := by
      cases ev with
      | control result => exact absurd ⟨result, rfl⟩ hcontrol
      | _ => rfl
    refine ⟨?_, ?_⟩
    · cases ho : n.offered? ev with
      | none =>
        rw [ho] at hqueue
        have hsame : (n.act ev).app.cmdQueue.items = n.app.cmdQueue.items :=
          congrArg Fifo.items hqueue
        rw [silenceAfter, ho, hfalse]
        refine ⟨?_, fun hnil => ?_⟩
        · rw [hsame]
          exact hn.queued
        · rw [hjoint]
          exact hn.joint (hsame ▸ hnil)
      | some cmd =>
        rw [ho] at hqueue hoff
        refine ⟨fun c hc => ?_, fun hnil => ?_⟩
        · rw [hqueue] at hc
          rcases Fifo.mem_of_mem_send hc with hold | rfl
          · exact hn.queued c hold
          · exact hoff c rfl
        · rw [hqueue] at hnil
          exact absurd hnil (Fifo.items_send_ne_nil hroom cmd)
    · rw [hfalse, timeLeft, timeLeft, hjoint]
      simp

end Node

/-! ## Runs -/

section Runs

variable {ι : Type} [DecidableEq ι] {ids : ι → UInt8} {net : Network ι Node Transmission} {i : ι}
  {target : Int32} {s : Nat} {after : List (ι × NodeEvent)}

/-- A joint heads for an end of the sweep. -/
theorem headsFor_end {sent : List (ι × Transmission)} {n : Node} (h : Member ids sent i n)
    (hn : n.HeadsFor target s) : target = sweepAmplitudeMdeg ∨ target = -sweepAmplitudeMdeg := by
  by_cases hnil : n.app.cmdQueue.items = []
  · have hj := hn.joint hnil
    rcases h.joint.latest with ⟨hd, -⟩ | ⟨cmd, hcmd, -, htarget⟩
    · exact absurd (hj.mode.symm.trans hd) Joint.position_ne_disabled
    · rw [← hj.target, htarget]
      exact hcmd.isSweep.target
  · obtain ⟨cmd, hcmd⟩ := List.exists_mem_of_ne_nil _ hnil
    rw [← hn.queued cmd hcmd]
    exact (h.queue cmd hcmd).isSweep.target

theorem timeLeft_run (hnet : net.Holds (Member ids)) (hrun : net.IsRun nodeParty after)
    (hroom : 0 < (net.node i).app.cmdQueue.depth) (hn : (net.node i).HeadsFor target s)
    (hfed : Node.Fed target (net.node i) s (own i after))
    (ht : |target.toInt| ≤ sweepAmplitudeMdeg.toInt) :
    ((net.run nodeParty after).node i).timeLeft target ≤
      max 0 ((net.node i).timeLeft target - (own i after).countP (·.isControl)) := by
  induction after generalizing net s with
  | nil => simp [own, Network.run]
  | cons ev after ih =>
    obtain ⟨k, ev⟩ := ev
    have hnext := (member_sound ids).act hnet hrun.1
    by_cases hk : k = i
    · subst hk
      have hsame : (net.act nodeParty (k, ev)).node k = (net.node k).act ev :=
        Function.update_self ..
      have hown : own k ((k, ev) :: after) = ev :: own k after := by simp [own]
      rw [hown] at hfed ⊢
      obtain ⟨hheads, hleft⟩ := Node.headsFor_act (hnet k) hroom hn hfed.1 hfed.2.1 ht
      have hrest := ih hnext hrun.2 (by rw [hsame, Node.act_depth]; exact hroom) (hsame ▸ hheads)
        (hsame ▸ hfed.2.2)
      rw [hsame] at hrest
      refine hrest.trans (max_le (le_max_left _ _) ?_)
      rw [List.countP_cons]
      push_cast
      have hcount := ((own k after).countP (·.isControl)).cast_nonneg (α := ℝ)
      rcases le_max_iff.mp hleft with h0 | h1
      · exact le_max_of_le_left (by linarith)
      · exact le_max_of_le_right (by linarith)
    · have hsame : (net.act nodeParty (k, ev)).node i = net.node i :=
        Function.update_of_ne (Ne.symm hk) _ _
      have hown : own i ((k, ev) :: after) = own i after := by simp [own, hk]
      rw [hown] at hfed ⊢
      have hrest := ih hnext hrun.2 (hsame ▸ hroom) (hsame ▸ hn) (hsame ▸ hfed)
      rwa [hsame] at hrest

/-- At the sweep's velocity limit no way inside the sweep takes longer. -/
theorem arrivalSteps_sweep {speed : Int} (h : speed ≤ sweepVelocityMdegS.toInt) :
    controlPlant.arrivalSteps sweepVelocityMdegS.toInt Node.sweepSpan speed ≤ 2875 := by
  have hramp := controlPlant.rampSteps_mono h
  have hfull : controlPlant.arrivalSteps sweepVelocityMdegS.toInt Node.sweepSpan
      sweepVelocityMdegS.toInt = 2875 := by decide +kernel
  unfold Plant.arrivalSteps at hfull ⊢
  omega

theorem depth_run (ids : ι → UInt8) (clock : ι → UInt32) (events : List (ι × NodeEvent)) (i : ι) :
    (((Node.network ids clock).run nodeParty events).node i).app.cmdQueue.depth =
      cmdQueueDepth := by
  rw [node_run]
  exact Node.run_depth (Node.start (ids i) (clock i)) _

/-- **The sweep arrives.** In every run of a network: a joint that heads for a target and goes on
being fed with commands for it is at rest there after 2875 iterations of its control task, and it
is an end of the sweep. -/
theorem sweep_arrives {clock : ι → UInt32} {before : List (ι × NodeEvent)}
    (hrun : (Node.network ids clock).IsRun nodeParty (before ++ after))
    (hn : (((Node.network ids clock).run nodeParty before).node i).HeadsFor target s)
    (hfed : Node.Fed target (((Node.network ids clock).run nodeParty before).node i) s
      (own i after))
    (hlong : 2875 ≤ (own i after).countP (·.isControl)) :
    let j := (((Node.network ids clock).run nodeParty (before ++ after)).node i).app.joint
    j.positionMdeg = target ∧ j.velocityMdegS = 0 ∧
      (target = sweepAmplitudeMdeg ∨ target = -sweepAmplitudeMdeg) := by
  intro j
  obtain ⟨hbefore, hafter⟩ := (isRun_append _ _ _).mp hrun
  have hnet := member_run hbefore
  have hend := headsFor_end (hnet i) hn
  have ht : |target.toInt| ≤ sweepAmplitudeMdeg.toInt := by
    rcases hend with rfl | rfl <;> decide
  have hleft := timeLeft_run hnet hafter (by rw [depth_run]; decide) hn hfed ht
  have hstart := controlPlant.timeLeft_le_arrivalSteps
    (show 0 ≤ sweepVelocityMdegS.toInt by decide) (Node.abs_target_sub_le (hnet i).joint ht)
  have hsteps : (controlPlant.arrivalSteps sweepVelocityMdegS.toInt Node.sweepSpan
      |(((Node.network ids clock).run nodeParty before).node i).app.joint.motion.vel| : ℝ) ≤
        2875 := by exact_mod_cast arrivalSteps_sweep (hnet i).joint.attended.speed
  have hlong' : (2875 : ℝ) ≤ (own i after).countP (·.isControl) := by exact_mod_cast hlong
  rw [← run_append] at hleft
  have hrest := Plant.eq_of_timeLeft_le_zero (by decide) (by decide)
    (hleft.trans_eq (max_eq_left (by unfold Node.timeLeft; linarith)))
  exact ⟨Int32.toInt_inj.mp (congrArg Motion.pos hrest),
    Int32.toInt_inj.mp (congrArg Motion.vel hrest), hend⟩

end Runs

section Example

/-- A frame that the bus delivers again every 499 iterations. -/
def repeated (f : CanFrame) : Nat → List NodeEvent
  | 0 => []
  | rounds + 1 => .frame f 101 :: (List.replicate 499 (.control .ok) ++ repeated f rounds)

theorem mem_repeated {f : CanFrame} {rounds : Nat} {ev : NodeEvent} (h : ev ∈ repeated f rounds) :
    ev = .frame f 101 ∨ ev = .control .ok := by
  induction rounds with
  | zero => exact absurd h List.not_mem_nil
  | succ rounds ih =>
    rw [repeated, List.mem_cons, List.mem_append] at h
    rcases h with h | h | h
    · exact .inl h
    · exact .inr (List.eq_of_mem_replicate h)
    · exact ih h

theorem fed_controls {target : Int32} {events : List NodeEvent} {n : Node} {s k : Nat}
    (hs : s + k ≤ 500)
    (h : ∀ n' : Node, n'.app.nodeId = n.app.nodeId → Node.Fed target n' (s + k) events) :
    Node.Fed target n s (List.replicate k (.control .ok) ++ events) := by
  induction k generalizing n s with
  | zero => exact h n rfl
  | succ k ih =>
    have hsilence : n.silenceAfter s (.control .ok) = s + 1 := rfl
    refine ⟨nofun, hsilence ▸ show s + 1 ≤ 500 by omega, ?_⟩
    rw [hsilence]
    refine ih (by omega) fun n' hn' => ?_
    have hnext := h n' (hn'.trans (n.act_nodeId _))
    rwa [show s + (k + 1) = s + 1 + k by omega] at hnext

theorem fed_repeated {f : CanFrame} {cmd : Command} {n : Node} {s : Nat}
    (h : acceptedCommand n.app.nodeId f = some cmd) (rounds : Nat) :
    Node.Fed cmd.targetMdeg n s (repeated f rounds) := by
  induction rounds generalizing n s with
  | zero => trivial
  | succ rounds ih =>
    have hoff : n.offered? (.frame f 101) = some cmd := h
    have hsilence : n.silenceAfter s (.frame f 101) = 0 := by
      rw [Node.silenceAfter, hoff]
      rfl
    refine ⟨fun c hc => ?_, hsilence ▸ Nat.zero_le _, ?_⟩
    · rw [hoff] at hc
      cases hc
      rfl
    · rw [hsilence]
      refine fed_controls (by decide) fun n' hn' => ih ?_
      rw [hn', Node.act_nodeId]
      exact h

/-- The bus repeats the first command six times. -/
theorem sweep_arrives_repeated :
    (((Node.network pairIds fun _ => 0).run nodeParty (firstCommand ++
      (repeated (Node.commandFrame 0 ⟨1, 90000, 90000, 1⟩) 6).map (1, ·))).node
        1).app.joint.velocityMdegS = 0 := by
  have hrow : (((Node.network pairIds fun _ => 0).run nodeParty firstCommand).IsRun nodeParty
      ((repeated (Node.commandFrame 0 ⟨1, 90000, 90000, 1⟩) 6).map ((1 : Fin 2), ·))) := by
    refine isRun_row fun ev hev r hr => ?_
    rcases mem_repeated hev with rfl | rfl <;> cases hr
    exact ⟨0, (Node.commandFrame 0 ⟨1, 90000, 90000, 1⟩, .ok), by decide +kernel, by decide,
      arrives_self (by decide)⟩
  have hheads : (((Node.network pairIds fun _ => 0).run nodeParty firstCommand).node 1).HeadsFor
      90000 1 :=
    ⟨by decide +kernel, fun _ => ⟨by decide +kernel, by decide +kernel, by decide +kernel⟩⟩
  have hown := own_append_self (1 : Fin 2) []
    (repeated (Node.commandFrame 0 ⟨1, 90000, 90000, 1⟩) 6)
  rw [List.nil_append, show own (1 : Fin 2) ([] : List (Fin 2 × NodeEvent)) = [] from rfl,
    List.nil_append] at hown
  refine (sweep_arrives ((isRun_append _ _ _).mpr ⟨firstCommand_isRun, hrow⟩) hheads ?_ ?_).2.1
  · rw [hown]
    exact fed_repeated (show acceptedCommand _ _ = some ⟨1, 90000, 90000, 1⟩ by decide +kernel) 6
  · rw [hown]
    decide +kernel

end Example
end Rjs
