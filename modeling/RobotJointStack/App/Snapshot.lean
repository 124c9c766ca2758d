import RobotJointStack.App.Newest
import RobotJointStack.Joint.Timeout

/-!
# App.Snapshot

Heartbeats and the joint they report. `control_task` publishes the joint's state and flags together,
but `comms_task` reads them in two critical sections, and an iteration of the control task can fall
in between.

* `published_run`: what is published is the joint, after the history of its commands and steps.
* `reads_of_holding`, `holding_of_reads`: how a heartbeat comes about.
* `mode_iterations`, `flags_iterations`: what the iterations in between leave as it is.
* `heartbeat_consistent`: when a heartbeat is the picture of one iteration.
-/

namespace Rjs

open Flags Joint

/-- The error flags that come from the joint. -/
def jointBits : UInt16 := errPeerLost ||| errLimitReached

instance (cmd : Command) : Decidable (DecoderAccepts cmd) :=
  decidable_of_iff _ decoderAccepts_iff.symm

namespace Joint

theorem joint_errorFlags (cfg : JointConfig) (acts : List JointAction) :
    ((init cfg).run acts).errorFlags &&& jointBits = ((init cfg).run acts).errorFlags := by
  induction acts using List.reverseRecOn with
  | nil => simp [init]
  | append_singleton acts a ih =>
    rw [run_snoc]
    cases a with
    | command cmd =>
      have hclear := and_clear_inside (a := ~~~errPeerLost) ih
      unfold act command
      dsimp only
      split
      · exact hclear
      · dsimp only
        split
        · exact and_set_inside hclear (by decide)
        · exact and_clear_inside hclear
    | step dt =>
      by_cases ho : ((init cfg).run acts).TimesOut dt
      · rw [act, (step_of_timesOut ho).1]
        exact and_set_inside ih (by decide)
      · rw [act, (step_of_not_timesOut ho).2.1]
        exact ih

end Joint

namespace Node

/-! ## What is published -/

/-- The command that the control task hands to the joint, as an action of the joint. -/
def jointCommand? (cmd : Command) : Option JointAction :=
  if h : DecoderAccepts cmd then some (.command ⟨cmd, h⟩) else none

/-- What an event does to the joint. -/
def jointActions (n : Node) : NodeEvent → List JointAction
  | .control _ => n.app.cmdQueue.items.filterMap jointCommand? ++ [.step controlPeriodMs]
  | _ => []

/-- The history of the joint over a run. -/
def history (n : Node) : List NodeEvent → List JointAction
  | [] => []
  | ev :: events => n.jointActions ev ++ history (n.act ev) events

theorem history_snoc (n : Node) (events : List NodeEvent) (ev : NodeEvent) :
    n.history (events ++ [ev]) = n.history events ++ (n.run events).jointActions ev := by
  induction events generalizing n with
  | nil => simp [history, run]
  | cons first events ih => simp [history, run, ih]

/-- The node publishes its joint, which is what the history has made of it. -/
structure Published (n : Node) (acts : List JointAction) : Prop where
  joint : n.app.joint = (Joint.init controlConfig).run acts
  mode : n.jointSnapshot.mode = n.app.joint.mode
  flags : n.jointFlags = n.app.joint.errorFlags
  queue : ∀ cmd ∈ n.app.cmdQueue.items, DecoderAccepts cmd
  steps : ∀ dt, .step dt ∈ acts → dt = controlPeriodMs

section Published

variable {n : Node} {acts : List JointAction}

theorem published_start (nodeId : UInt8) (millis : UInt32) : (start nodeId millis).Published [] where
  joint := rfl
  mode := rfl
  flags := rfl
  queue := fun _ h => absurd h List.not_mem_nil
  steps := fun _ h => absurd h List.not_mem_nil

/-- Only the control task publishes. -/
theorem act_published (n : Node) (ev : NodeEvent) (h : ∀ sent, ev ≠ .control sent) :
    (n.act ev).jointSnapshot = n.jointSnapshot ∧ (n.act ev).jointFlags = n.jointFlags := by
  cases ev with
  | control sent => exact absurd rfl (h sent)
  | frame f millis => exact ⟨rfl, rfl⟩
  | poll millis => exact ⟨rfl, rfl⟩
  | readSnapshot => simp only [act]; split <;> exact ⟨rfl, rfl⟩
  | heartbeat cs millis sent =>
    simp only [act]
    split
    · simp only [sendHeartbeat]
      split <;> simp
    · exact ⟨rfl, rfl⟩
  | command down millis flip sent =>
    simp only [act]
    split
    · simp only [controllerCommand]
      split
      · split <;> simp
      · exact ⟨rfl, rfl⟩
    · exact ⟨rfl, rfl⟩

theorem control_published (n : Node) (sent : CanResult) :
    (n.control sent).jointSnapshot.mode = (n.control sent).app.joint.mode ∧
      (n.control sent).jointFlags = (n.control sent).app.joint.errorFlags := by
  unfold control
  dsimp only
  split
  · split <;> simp [getState]
  · exact ⟨rfl, rfl⟩

theorem nextCommand_accepted (n : Node) : DecoderAccepts n.nextCommand := by
  refine decoderAccepts_iff.mpr ⟨?_, fun _ => ?_⟩
  · show JointMode.position.code ≤ JointMode.position.code
    exact UInt8.le_refl _
  · show 0 < sweepVelocityMdegS
    decide

theorem offered?_accepted (n : Node) {ev : NodeEvent} {cmd : Command}
    (h : n.offered? ev = some cmd) : DecoderAccepts cmd := by
  cases ev with
  | frame f millis => exact App.acceptedCommand_accepts h
  | command down millis flip sent =>
    rw [offered?, ownCommand?] at h
    split at h
    · dsimp only at h
      split at h
      · cases h
        exact nextCommand_accepted _
      · cases h
    · cases h
  | _ => cases h

/-- Commands that the decoder accepts are actions of the joint. -/
theorem foldl_command (j : Joint) {cmds : List Command} (h : ∀ cmd ∈ cmds, DecoderAccepts cmd) :
    cmds.foldl Joint.command j = j.run (cmds.filterMap jointCommand?) := by
  induction cmds generalizing j with
  | nil => rfl
  | cons cmd cmds ih =>
    rw [List.forall_mem_cons] at h
    have hcmd : jointCommand? cmd = some (.command ⟨cmd, h.1⟩) := dif_pos h.1
    rw [List.foldl_cons, List.filterMap_cons_some hcmd, Joint.run_cons]
    exact ih (j.command cmd) h.2

theorem step_mem_jointActions {ev : NodeEvent} {dt : UInt32}
    (h : .step dt ∈ n.jointActions ev) : dt = controlPeriodMs := by
  cases ev with
  | control sent =>
    rcases List.mem_append.mp h with hcmd | hstep
    · obtain ⟨cmd, -, hcmd⟩ := List.mem_filterMap.mp hcmd
      unfold jointCommand? at hcmd
      split at hcmd <;> cases hcmd
    · simpa using hstep
  | _ => exact absurd h List.not_mem_nil

theorem published_act (h : n.Published acts) (ev : NodeEvent) :
    (n.act ev).Published (acts ++ n.jointActions ev) := by
  by_cases hc : ∃ sent, ev = .control sent
  · obtain ⟨sent, rfl⟩ := hc
    obtain ⟨hjoint, hitems, -, -⟩ := drain_joint n.app
    obtain ⟨hmode, hflags⟩ := n.control_published sent
    refine ⟨?_, hmode, hflags, ?_, fun dt hdt => ?_⟩
    · rw [act_app, jointActions, ← List.append_assoc, Joint.run_snoc, Joint.run_append, ← h.joint,
        ← foldl_command n.app.joint h.queue, ← hjoint]
      rfl
    · rw [act_app]
      intro cmd hcmd
      rw [show ({ n.app.drain with joint := _ } : App).cmdQueue.items = [] from hitems] at hcmd
      exact absurd hcmd List.not_mem_nil
    · rcases List.mem_append.mp hdt with hold | hnew
      · exact h.steps dt hold
      · exact step_mem_jointActions hnew
  · have hne : ∀ sent, ev ≠ .control sent := fun sent he => hc ⟨sent, he⟩
    have hacts : n.jointActions ev = [] := by
      cases ev <;> first | rfl | exact absurd rfl (hne _)
    obtain ⟨hjoint, hqueue⟩ := n.act_quiet ev hne
    obtain ⟨hsnapshot, hflags⟩ := n.act_published ev hne
    rw [hacts, List.append_nil]
    refine ⟨by rw [hjoint, h.joint], by rw [hsnapshot, h.mode, hjoint],
      by rw [hflags, h.flags, hjoint], ?_, h.steps⟩
    rw [hqueue]
    cases hoff : n.offered? ev with
    | none => exact h.queue
    | some new =>
      intro cmd hcmd
      cases Fifo.mem_of_mem_send hcmd with
      | inl hold => exact h.queue cmd hold
      | inr hnew => rw [hnew]; exact n.offered?_accepted hoff

theorem published_run (nodeId : UInt8) (millis : UInt32) (events : List NodeEvent) :
    ((start nodeId millis).run events).Published ((start nodeId millis).history events) := by
  induction events using List.reverseRecOn with
  | nil => exact published_start nodeId millis
  | append_singleton events ev ih =>
    rw [run_append, history_snoc]
    exact published_act ih ev

/-- The published flags are the joint's, and PEER_LOST means that its commands have timed out. -/
theorem Published.peerLost (h : n.Published acts) :
    n.jointFlags &&& jointBits = n.jointFlags ∧
      (HasFlag n.jointFlags errPeerLost ↔ Joint.TimedOut controlConfig acts) ∧
      (n.jointSnapshot.mode = JointMode.position.code → ¬HasFlag n.jointFlags errPeerLost) := by
  have hsteps : ∀ dt, .step dt ∈ acts →
      controlConfig.commandTimeoutMs.toNat + dt.toNat < 2 ^ 32 := by
    intro dt hdt
    rw [h.steps dt hdt]; decide
  have hjoint := remembers_run controlConfig hsteps
  rw [h.mode, h.flags, h.joint]
  exact ⟨joint_errorFlags controlConfig acts, hjoint.peerLost,
    fun hm hp => hjoint.position hm (hjoint.peerLost.mp hp)⟩

end Published

/-! ## How heartbeats come about -/

/-- In the run `events`, `comms_task` last read its snapshot after `before`, and has not sent its
heartbeat yet. There is only one such cut of a run. -/
structure Reads (nodeId : UInt8) (millis : UInt32) (before between events : List NodeEvent) :
    Prop where
  cut : events = before ++ .readSnapshot :: between
  idle : ((start nodeId millis).run before).comms.pc = .idle
  unsent : ∀ cs time sent, .heartbeat cs time sent ∉ between

section Reads

variable {nodeId : UInt8} {millis : UInt32} {before between events : List NodeEvent}

/-- The program counter of `comms_task` is moved by its own events only. -/
theorem act_pc (n : Node) (ev : NodeEvent) :
    (n.act ev).comms.pc =
      match ev, n.comms.pc with
      | .readSnapshot, .idle => .holding n.jointSnapshot
      | .heartbeat _ _ _, .holding _ =>
        if n.app.nodeId = controllerNodeId then .reported else .idle
      | .command _ _ _ _, .reported => .idle
      | _, pc => pc := by
  cases ev with
  | frame f millis => rfl
  | poll millis => rfl
  | control sent =>
    simp only [act, control]
    split
    · split <;> simp
    · rfl
  | readSnapshot => cases hpc : n.comms.pc <;> simp [act, hpc]
  | heartbeat cs millis sent =>
    cases hpc : n.comms.pc with
    | holding js =>
      simp only [act, hpc, sendHeartbeat]
      split <;> simp
    | _ => simp [act, hpc]
  | command down millis flip sent =>
    cases hpc : n.comms.pc with
    | reported =>
      simp only [act, hpc, controllerCommand]
      split
      · split <;> simp
      · rfl
    | _ => simp [act, hpc]

/-- A task that holds a snapshot has read it at some point and not sent a heartbeat since. -/
theorem reads_of_holding {js : JointState}
    (h : ((start nodeId millis).run events).comms.pc = .holding js) :
    ∃ before between, Reads nodeId millis before between events := by
  induction events using List.reverseRecOn with
  | nil => cases h
  | append_singleton events ev ih =>
    rw [run_append, run, List.foldl_cons, List.foldl_nil, act_pc] at h
    cases hpc : ((start nodeId millis).run events).comms.pc with
    | idle =>
      rw [hpc] at h
      cases ev with
      | readSnapshot =>
        exact ⟨events, [], rfl, hpc, fun _ _ _ hm => absurd hm List.not_mem_nil⟩
      | _ => cases h
    | reported => rw [hpc] at h; cases ev <;> cases h
    | holding js' =>
      rw [hpc] at h
      have hsend : ∀ cs time sent, ev ≠ .heartbeat cs time sent := by
        intro cs time sent he
        rw [he] at h
        dsimp only at h
        split at h <;> cases h
      have hsame : js' = js := by
        cases ev with
        | heartbeat cs time sent => exact absurd rfl (hsend cs time sent)
        | _ => cases h; rfl
      obtain ⟨before, between, hcut, hidle, hunsent⟩ := ih (hsame ▸ hpc)
      refine ⟨before, between ++ [ev], by simp [hcut], hidle, fun cs time sent hm => ?_⟩
      cases List.mem_append.mp hm with
      | inl hm => exact hunsent cs time sent hm
      | inr hm => exact hsend cs time sent (List.mem_singleton.mp hm).symm

/-- And what it holds is what was published when it read. -/
theorem holding_of_reads (h : Reads nodeId millis before between events) :
    ((start nodeId millis).run events).comms.pc =
      .holding ((start nodeId millis).run before).jointSnapshot := by
  obtain ⟨rfl, hidle, hunsent⟩ := h
  induction between using List.reverseRecOn with
  | nil =>
    rw [run_append, run, List.foldl_cons, List.foldl_nil, act_pc]
    rw [hidle]
  | append_singleton between ev ih =>
    have hpc := ih fun cs time sent hm => hunsent cs time sent (List.mem_append_left _ hm)
    rw [← List.cons_append, ← List.append_assoc, run_append, run, List.foldl_cons,
      List.foldl_nil, act_pc, hpc]
    cases ev with
    | heartbeat cs time sent => exact absurd (by simp) (hunsent cs time sent)
    | _ => rfl

end Reads

/-! ## Consistency -/

/-- The heartbeat says what the control task publishes after the run `events`: its state, its flags
and with them whether the joint has stopped because its commands timed out. -/
structure Shows (nodeId : UInt8) (millis : UInt32) (events : List NodeEvent) (cs : CanStatus)
    (hb : Heartbeat) : Prop where
  state : hb.state =
    if cs.busOff then NodeState.fault.code
    else if ((start nodeId millis).run events).jointSnapshot.mode = JointMode.position.code then
      NodeState.operational.code
    else NodeState.preop.code
  flags : hb.errorFlags &&& jointBits = ((start nodeId millis).run events).jointFlags
  peerLost : HasFlag hb.errorFlags errPeerLost ↔
    Joint.TimedOut controlConfig ((start nodeId millis).history events)
  operational : hb.state = NodeState.operational.code → ¬HasFlag hb.errorFlags errPeerLost

section Shows

variable {nodeId : UInt8} {millis : UInt32}

/-- The communication task adds bits of its own to the joint's. -/
theorem heartbeatFlags_eq (n : Node) (cs : CanStatus)
    (h : n.jointFlags &&& jointBits = n.jointFlags) :
    n.heartbeatFlags cs &&& jointBits = n.jointFlags ∧
      (HasFlag (n.heartbeatFlags cs) errPeerLost ↔ HasFlag n.jointFlags errPeerLost) ∧
      (n.heartbeatFlags cs &&& errCanBusOff ≠ 0 ↔ cs.busOff) := by
  have hbus : ¬HasFlag n.jointFlags errCanBusOff := by
    rw [← h, HasFlag, UInt16.and_assoc, show jointBits &&& errCanBusOff = 0 from by decide]
    simp
  unfold heartbeatFlags
  dsimp only
  refine ⟨?_, ?_, ?_⟩
  · split <;> split <;> split <;> simp only [and_set_other
      (show errCanPassive &&& jointBits = 0 by decide),
      and_set_other (show errCanBusOff &&& jointBits = 0 by decide),
      and_set_other (show errTxDropped &&& jointBits = 0 by decide), h]
  · split <;> split <;> split <;>
      simp only [hasFlag_set_other (show errCanPassive &&& errPeerLost = 0 by decide),
        hasFlag_set_other (show errCanBusOff &&& errPeerLost = 0 by decide),
        hasFlag_set_other (show errTxDropped &&& errPeerLost = 0 by decide)]
  · rw [← HasFlag]
    split <;> split <;> split <;>
      simp [hasFlag_set_other (show errCanPassive &&& errCanBusOff = 0 by decide),
        hasFlag_set_other (show errTxDropped &&& errCanBusOff = 0 by decide),
        hasFlag_set (show errCanBusOff ≠ 0 by decide), *]

/-- A heartbeat of one iteration's state and flags says all that iteration has to say. -/
theorem shows_iff {events : List NodeEvent} {cs : CanStatus} {hb : Heartbeat}
    (hpeer : HasFlag hb.errorFlags errPeerLost ↔
      HasFlag (hb.errorFlags &&& jointBits) errPeerLost) :
    Shows nodeId millis events cs hb ↔
      hb.state =
        (if cs.busOff then NodeState.fault.code
        else if ((start nodeId millis).run events).jointSnapshot.mode = JointMode.position.code then
          NodeState.operational.code
        else NodeState.preop.code) ∧
      hb.errorFlags &&& jointBits = ((start nodeId millis).run events).jointFlags := by
  refine ⟨fun h => ⟨h.state, h.flags⟩, fun ⟨hstate, hflags⟩ => ?_⟩
  obtain ⟨-, hlost, hposition⟩ := (published_run nodeId millis events).peerLost
  rw [hflags] at hpeer
  refine ⟨hstate, hflags, hpeer.trans hlost, fun hop => ?_⟩
  rw [hop] at hstate
  rw [hpeer]
  split at hstate
  · exact absurd hstate (by decide)
  · split at hstate
    · rename_i hmode
      exact hposition hmode
    · exact absurd hstate (by decide)

/-- A heartbeat with the mode of one point of the run and the flags of another shows every point
that has both. -/
theorem shows_of_point {before point events : List NodeEvent} {cs : CanStatus} {time : UInt32}
    (hmode : cs.busOff ∨
      (((start nodeId millis).run point).jointSnapshot.mode = JointMode.position.code ↔
        ((start nodeId millis).run before).jointSnapshot.mode = JointMode.position.code))
    (hflags : ((start nodeId millis).run events).jointFlags =
      ((start nodeId millis).run point).jointFlags) :
    Shows nodeId millis point cs (((start nodeId millis).run events).buildHeartbeat
      ((start nodeId millis).run before).jointSnapshot cs time) := by
  obtain ⟨hmask, hlost, hbus⟩ :=
    heartbeatFlags_eq ((start nodeId millis).run events) cs
      (published_run nodeId millis events).peerLost.1
  have hpeer : HasFlag (((start nodeId millis).run events).heartbeatFlags cs) errPeerLost ↔
      HasFlag (((start nodeId millis).run events).heartbeatFlags cs &&& jointBits) errPeerLost := by
    rw [hmask, hlost]
  refine (shows_iff hpeer).mpr ⟨?_, hmask.trans hflags⟩
  simp only [buildHeartbeat, hbus]
  by_cases hoff : cs.busOff
  · simp only [hoff, if_true]
  · simp only [hoff, Bool.false_eq_true, if_false, hmode.resolve_left hoff]

end Shows

/-! ## Between the two reads -/

/-- The iteration of `control_task` that comes next leaves the joint in its mode: the last command
in the queue is for the same mode, or there is none and the joint does not time out. -/
structure KeepsMode (n : Node) : Prop where
  commanded : ∀ cmd ∈ n.app.cmdQueue.items.getLast?,
    (cmd.mode = JointMode.position.code ↔ n.app.joint.mode = JointMode.position.code)
  uncommanded : n.app.cmdQueue.items = [] → ¬n.app.joint.TimesOut controlPeriodMs

instance (n : Node) : Decidable n.KeepsMode :=
  decidable_of_iff (_ ∧ _) ⟨fun h => ⟨h.1, h.2⟩, fun h => ⟨h.commanded, h.uncommanded⟩⟩

/-- The last position command in the queue. -/
def lastMove (cmds : List Command) : Option Command :=
  (cmds.filter (·.mode = JointMode.position.code)).getLast?

/-- The target of a position command is not inside the soft limits. -/
def BeyondLimits (cmd : Command) : Prop :=
  cmd.targetMdeg < controlConfig.minMdeg ∨ controlConfig.maxMdeg < cmd.targetMdeg

instance (cmd : Command) : Decidable (BeyondLimits cmd) := inferInstanceAs (Decidable (_ ∨ _))

/-- That iteration leaves the flags of the joint: no command ends a timeout, the last target is
beyond the limits exactly if the flag for that is set, and without commands there is no timeout. -/
structure KeepsFlags (n : Node) : Prop where
  commanded : n.app.cmdQueue.items ≠ [] → ¬HasFlag n.app.joint.errorFlags errPeerLost
  moved : ∀ cmd ∈ lastMove n.app.cmdQueue.items,
    (BeyondLimits cmd ↔ HasFlag n.app.joint.errorFlags errLimitReached)
  uncommanded : n.app.cmdQueue.items = [] → ¬n.app.joint.TimesOut controlPeriodMs

instance (n : Node) : Decidable n.KeepsFlags :=
  decidable_of_iff (_ ∧ _ ∧ _)
    ⟨fun h => ⟨h.1, h.2.1, h.2.2⟩, fun h => ⟨h.commanded, h.moved, h.uncommanded⟩⟩

/-- Every iteration of `control_task` among the events finds the node in a state with `P`. -/
def Iterations (P : Node → Prop) : Node → List NodeEvent → Prop
  | _, [] => True
  | n, ev :: events => (ev.isControl → P n) ∧ Iterations P (n.act ev) events

instance decidableIterations (P : Node → Prop) [DecidablePred P] :
    ∀ (n : Node) (events : List NodeEvent), Decidable (Iterations P n events)
  | _, [] => isTrue trivial
  | n, ev :: events =>
    have : Decidable (Iterations P (n.act ev) events) :=
      decidableIterations P (n.act ev) events
    inferInstanceAs (Decidable ((ev.isControl → P n) ∧ Iterations P (n.act ev) events))

/-- The iterations among the events leave the mode of the joint as it is up to some point, and its
flags from that point on. -/
def Untorn (n : Node) (events : List NodeEvent) : Prop :=
  ∃ earlier later, events = earlier ++ later ∧ n.Iterations KeepsMode earlier ∧
    (n.run earlier).Iterations KeepsFlags later

section Between

variable {n : Node} {acts : List JointAction} {events : List NodeEvent}

theorem control_joint (n : Node) (sent : CanResult) : (n.act (.control sent)).app.joint =
    (n.app.cmdQueue.items.foldl Joint.command n.app.joint).step controlPeriodMs := by
  rw [act_app, ← (drain_joint n.app).1]

/-- The joint of a node between two iterations. -/
theorem Published.remembers (h : n.Published acts) :
    Remembers controlConfig acts n.app.joint := by
  rw [h.joint]
  refine remembers_run controlConfig fun dt hdt => ?_
  rw [h.steps dt hdt]
  decide

/-- A joint that has just taken a command does not time out. -/
theorem not_timesOut_commands (h : n.Published acts)
    (hnone : n.app.cmdQueue.items = [] → ¬n.app.joint.TimesOut controlPeriodMs) :
    ¬(n.app.cmdQueue.items.foldl Joint.command n.app.joint).TimesOut controlPeriodMs := by
  have hlimit : ∀ cmds : List Command,
      (cmds.foldl Joint.command n.app.joint).cfg.commandTimeoutMs = 500 := by
    intro cmds
    induction cmds using List.reverseRecOn with
    | nil => exact h.remembers.timeout
    | append_singleton cmds cmd ih => rw [List.foldl_concat, command_cfg, ih]
  rcases List.eq_nil_or_concat n.app.cmdQueue.items with e | ⟨cmds, cmd, e⟩
  · rw [e]
    exact hnone e
  · have hfresh : (n.app.cmdQueue.items.foldl Joint.command n.app.joint).sinceCommandMs = 0 := by
      rw [e, List.concat_eq_append, List.foldl_concat, command_since]
    rw [timesOut_iff (by rw [hlimit]; decide) (by rw [hfresh]; exact fun _ _ => UInt32.zero_le),
      hlimit, hfresh]
    rintro ⟨-, -, hlt⟩
    exact absurd hlt (by decide)

theorem mode_iteration (h : n.Published acts) (hk : n.KeepsMode) (sent : CanResult) :
    (n.act (.control sent)).app.joint.mode = JointMode.position.code ↔
      n.app.joint.mode = JointMode.position.code := by
  rw [control_joint, (step_of_not_timesOut (not_timesOut_commands h hk.uncommanded)).1]
  cases hlast : n.app.cmdQueue.items.getLast? with
  | none => rw [List.getLast?_eq_none_iff.mp hlast, List.foldl_nil]
  | some cmd => rw [(command_last n.app.joint hlast).2, hk.commanded cmd hlast]

/-- The commands of the queue in the history of the joint. -/
theorem remembers_queue {cfg : JointConfig} {j : Joint} (h : Remembers cfg acts j)
    {cmds : List Command} (hcmds : ∀ cmd ∈ cmds, DecoderAccepts cmd) :
    Remembers cfg (acts ++ cmds.filterMap jointCommand?) (cmds.foldl Joint.command j) ∧
      (cmds ≠ [] → ¬TimedOut cfg (acts ++ cmds.filterMap jointCommand?)) ∧
      lastPositionCommand (acts ++ cmds.filterMap jointCommand?) =
        (lastMove cmds).or (lastPositionCommand acts) := by
  induction cmds using List.reverseRecOn with
  | nil => rw [List.filterMap_nil, List.append_nil]; exact ⟨h, absurd rfl, rfl⟩
  | append_singleton cmds cmd ih =>
    have hacc : DecoderAccepts cmd := hcmds cmd (by simp)
    have hcmd : jointCommand? cmd = some (.command ⟨cmd, hacc⟩) := dif_pos hacc
    obtain ⟨hremembers, -, hlast⟩ := ih fun c hc => hcmds c (List.mem_append_left _ hc)
    rw [List.filterMap_append, List.filterMap_cons_some hcmd, List.filterMap_nil,
      ← List.append_assoc, List.foldl_concat]
    refine ⟨remembers_command hremembers ⟨cmd, hacc⟩,
      fun _ => History.not_occursSince_snoc_mark _ _ rfl, ?_⟩
    rw [lastPositionCommand, History.last?_snoc, ← lastPositionCommand, hlast]
    by_cases hm : cmd.mode = JointMode.position.code
    · simp [JointAction.positionCommand?, lastMove, hm]
    · simp [JointAction.positionCommand?, lastMove, hm]

theorem flags_iteration (h : n.Published acts) (hk : n.KeepsFlags) (sent : CanResult) :
    (n.act (.control sent)).app.joint.errorFlags = n.app.joint.errorFlags := by
  have hbefore := h.remembers
  obtain ⟨hafter, htimed, hlast⟩ := remembers_queue hbefore h.queue
  rw [control_joint, (step_of_not_timesOut (not_timesOut_commands h hk.uncommanded)).2.1]
  refine eq_of_bits (a := errPeerLost) (b := errLimitReached) (k := 3) (l := 5) rfl rfl ?_ ?_ ?_ ?_
  · rw [foldl_command n.app.joint h.queue, h.joint, ← Joint.run_append]
    exact joint_errorFlags controlConfig _
  · rw [h.joint]
    exact joint_errorFlags controlConfig acts
  · by_cases hq : n.app.cmdQueue.items = []
    · rw [hq, List.foldl_nil]
    · exact iff_of_false (fun hlost => htimed hq (hafter.peerLost.mp hlost)) (hk.commanded hq)
  · rw [hafter.limitReached, hlast]
    cases hmove : lastMove n.app.cmdQueue.items with
    | none => rw [Option.none_or, hbefore.limitReached]
    | some cmd =>
      rw [← hk.moved cmd hmove]
      simp [BeyondLimits]

/-- What every iteration among the events keeps, the run keeps. -/
theorem eq_of_iterations {α : Type} {P : Node → Prop} {f : Node → α}
    (hother : ∀ (n : Node) (ev : NodeEvent), (∀ sent, ev ≠ .control sent) → f (n.act ev) = f n)
    (hcontrol : ∀ (n : Node) (acts : List JointAction) (sent : CanResult), n.Published acts → P n →
      f (n.act (.control sent)) = f n)
    (h : n.Published acts) (hp : n.Iterations P events) : f (n.run events) = f n := by
  induction events generalizing n acts with
  | nil => rfl
  | cons ev events ih =>
    obtain ⟨hev, hrest⟩ := hp
    refine (ih (published_act h ev) hrest).trans ?_
    cases ev with
    | control sent => exact hcontrol n acts sent h (hev rfl)
    | _ => exact hother n _ (by simp)

theorem mode_iterations (h : n.Published acts) (hk : n.Iterations KeepsMode events) :
    (n.run events).jointSnapshot.mode = JointMode.position.code ↔
      n.jointSnapshot.mode = JointMode.position.code := by
  have hkeep := eq_of_iterations
    (f := fun n : Node => decide (n.jointSnapshot.mode = JointMode.position.code))
    (fun n ev hev => by rw [(act_published n ev hev).1]) (fun n acts sent h hk => ?_) h hk
  · exact decide_eq_decide.mp hkeep
  · refine decide_eq_decide.mpr ?_
    rw [(published_act h (.control sent)).mode, mode_iteration h hk, h.mode]

theorem flags_iterations (h : n.Published acts) (hk : n.Iterations KeepsFlags events) :
    (n.run events).jointFlags = n.jointFlags := by
  refine eq_of_iterations (f := fun n : Node => n.jointFlags)
    (fun n ev hev => (act_published n ev hev).2) (fun n acts sent h hk => ?_) h hk
  rw [(published_act h (.control sent)).flags, flags_iteration h hk, h.flags]

end Between

section Consistent

variable {nodeId : UInt8} {millis : UInt32}

/-- **When heartbeats are consistent.** Every heartbeat of every run is built from a snapshot read
at one point and flags read at another. If the bus is off, or the iterations of `control_task`
between these points do not tear it, it shows what one iteration has published, and one that
`comms_task` has been reading beside. -/
theorem heartbeat_consistent {events : List NodeEvent} {cs : CanStatus} {time : UInt32}
    {sent : CanResult} {hb : Heartbeat}
    (hhb : ((start nodeId millis).run events).heartbeat? (.heartbeat cs time sent) = some hb) :
    (∃ before between, Reads nodeId millis before between events) ∧
    ∀ before between, Reads nodeId millis before between events →
      (cs.busOff ∨ ((start nodeId millis).run (before ++ [.readSnapshot])).Untorn between) →
      ∃ point, point <+: events ∧ Shows nodeId millis point cs hb ∧ before <+: point := by
  obtain ⟨js, hpc, rfl⟩ : ∃ js, ((start nodeId millis).run events).comms.pc = .holding js ∧
      hb = ((start nodeId millis).run events).buildHeartbeat js cs time := by
    rw [heartbeat?] at hhb
    split at hhb
    · rename_i js hpc
      cases hhb
      exact ⟨js, hpc, rfl⟩
    · cases hhb
  refine ⟨reads_of_holding hpc, fun before between hreads hcond => ?_⟩
  obtain rfl : js = ((start nodeId millis).run before).jointSnapshot := by
    have hheld := holding_of_reads hreads
    rw [hpc] at hheld
    cases hheld; rfl
  have hcut := hreads.cut
  rcases hcond with hoff | ⟨earlier, later, rfl, hmode, hflags⟩
  · exact ⟨events, List.prefix_rfl, shows_of_point (.inl hoff) rfl, hcut ▸ List.prefix_append ..⟩
  · -- the iterations up to `point` keep the mode that was read, those behind it the flags
    have hread := published_run nodeId millis (before ++ [.readSnapshot])
    have hpoint := published_run nodeId millis (before ++ [.readSnapshot] ++ earlier)
    have hsame := mode_iterations hread hmode
    rw [← run_append] at hflags hsame
    have hkept := flags_iterations hpoint hflags
    rw [← run_append] at hkept
    have hall : before ++ [.readSnapshot] ++ earlier ++ later = events := by simp [hcut]
    have hsnapshot : ((start nodeId millis).run (before ++ [.readSnapshot])).jointSnapshot =
        ((start nodeId millis).run before).jointSnapshot := by
      rw [run_append]
      exact (act_published _ .readSnapshot nofun).1
    rw [hsnapshot] at hsame
    rw [hall] at hkept
    refine ⟨before ++ [.readSnapshot] ++ earlier, ⟨later, hall⟩, shows_of_point (.inr hsame) hkept,
      ?_⟩
    rw [List.append_assoc]
    exact List.prefix_append ..

/-- Between the two reads the joint takes a target beyond the limits, and then a command that
disables it. The heartbeat is neither the picture of the iteration before the reads nor of that
after them, but of the one in between. -/
theorem heartbeat_consistent_between :
    ∃ point, point <+: [.frame (commandFrame 7 ⟨1, 0, 90000, 1⟩) 0, .control .ok, .readSnapshot,
        .frame (commandFrame 7 ⟨1, 180000, 90000, 2⟩) 0, .control .ok,
        .frame (commandFrame 7 ⟨0, 0, 0, 3⟩) 0, .control .ok] ∧
      Shows 7 0 point ⟨false, false⟩ ⟨2, 0x20, 9, 0, 1, 0⟩ ∧
      [.frame (commandFrame 7 ⟨1, 0, 90000, 1⟩) 0, .control .ok] <+: point :=
  (@heartbeat_consistent 7 0 _ ⟨false, false⟩ 9 .ok ⟨2, 0x20, 9, 0, 1, 0⟩ (by decide +kernel)).2 _
    [.frame (commandFrame 7 ⟨1, 180000, 90000, 2⟩) 0, .control .ok,
      .frame (commandFrame 7 ⟨0, 0, 0, 3⟩) 0, .control .ok]
    ⟨rfl, by decide +kernel, by simp⟩
    (.inr ⟨[.frame (commandFrame 7 ⟨1, 180000, 90000, 2⟩) 0, .control .ok],
      [.frame (commandFrame 7 ⟨0, 0, 0, 3⟩) 0, .control .ok], rfl, by decide +kernel,
      by decide +kernel⟩)

end Consistent

/-! ## A torn heartbeat -/

/-- Whenever the joint times out between the two reads, the heartbeat reports OPERATIONAL together
with PEER_LOST. -/
theorem torn_of_timesOut {nodeId : UInt8} {millis : UInt32} {before : List NodeEvent}
    (hidle : ((start nodeId millis).run before).comms.pc = .idle)
    (hempty : ((start nodeId millis).run before).app.cmdQueue.items = [])
    (hlate : ((start nodeId millis).run before).app.joint.TimesOut controlPeriodMs)
    {cs : CanStatus} (hcs : cs.busOff = false) (time : UInt32) (sent sent' : CanResult) :
    ∃ hb, ((start nodeId millis).run (before ++ [.readSnapshot, .control sent])).heartbeat?
        (.heartbeat cs time sent') = some hb ∧
      hb.state = NodeState.operational.code ∧ HasFlag hb.errorFlags errPeerLost := by
  have hreads : Reads nodeId millis before [.control sent]
      (before ++ [.readSnapshot, .control sent]) := ⟨rfl, hidle, fun _ _ _ hm => by simp at hm⟩
  have hpc := holding_of_reads hreads
  have hposition : ((start nodeId millis).run before).jointSnapshot.mode =
      JointMode.position.code := by
    rw [(published_run nodeId millis before).mode]; exact hlate.1
  have hafter := published_run nodeId millis (before ++ [.readSnapshot, .control sent])
  have hjoint : ((start nodeId millis).run (before ++ [.readSnapshot, .control sent])).app.joint =
      ((start nodeId millis).run before).app.joint.step controlPeriodMs := by
    rw [run_append, run, List.foldl_cons, List.foldl_cons, List.foldl_nil, act_app]
    dsimp only
    rw [(drain_joint _).1, act_app]
    dsimp only [offered?]
    rw [hempty]; rfl
  obtain ⟨-, hflag, hbus⟩ := heartbeatFlags_eq _ cs hafter.peerLost.1
  refine ⟨_, by rw [heartbeat?, hpc], ?_, ?_⟩
  · simp only [buildHeartbeat, hbus, hcs, hposition]
    rfl
  · simp only [buildHeartbeat, hflag, hafter.flags, hjoint, (step_of_timesOut hlate).1]
    exact hasFlag_set (by decide)

/-- A position command and the iteration that takes it, then `steps` iterations without another. -/
def sweepThenSilence (steps : Nat) : List NodeEvent :=
  [.frame (commandFrame 7 ⟨1, 0, 90000, 1⟩) 0, .control .ok] ++ List.replicate steps (.control .ok)

/-- Nothing but steps reaches the joint. -/
theorem published_silence {n : Node} {acts : List JointAction} (h : n.Published acts)
    (hq : n.app.cmdQueue.items = []) (steps : Nat) :
    (n.run (List.replicate steps (.control .ok))).Published
        (acts ++ List.replicate steps (.step controlPeriodMs)) ∧
      (n.run (List.replicate steps (.control .ok))).app.cmdQueue.items = [] ∧
      (n.run (List.replicate steps (.control .ok))).comms.pc = n.comms.pc := by
  induction steps generalizing n acts with
  | zero => simpa [run, hq] using h
  | succ steps ih =>
    have hstep := published_act h (.control .ok)
    rw [jointActions, hq, List.filterMap_nil, List.nil_append] at hstep
    have hq' : (n.act (.control .ok)).app.cmdQueue.items = [] := by
      rw [act_app]; exact (drain_joint n.app).2.1
    have hpc : (n.act (.control .ok)).comms.pc = n.comms.pc := by rw [act_pc]
    rw [List.replicate_succ, List.replicate_succ, List.append_cons, ← hpc]
    exact ih hstep hq'

/-- A joint in position mode stays in it for the 500 ms of its limit. -/
theorem mode_silence (cmd : AcceptedCommand) (hm : cmd.1.mode = JointMode.position.code)
    {steps : Nat} (hle : steps ≤ 500) :
    let acts := [.command cmd] ++ List.replicate steps (.step controlPeriodMs)
    silence acts = steps ∧ Remembers controlConfig acts ((Joint.init controlConfig).run acts) ∧
      ((Joint.init controlConfig).run acts).mode = JointMode.position.code := by
  induction steps with
  | zero =>
    refine ⟨silence_command [] cmd, remembers_command (remembers_init controlConfig) cmd, ?_⟩
    exact (command_mode (Joint.init controlConfig) cmd.1).trans hm
  | succ steps ih =>
    obtain ⟨hsilence, hremembers, hmode⟩ := ih (Nat.le_of_succ_le hle)
    dsimp only
    rw [List.replicate_succ', ← List.append_assoc, Joint.run_snoc]
    have hnot : ¬((Joint.init controlConfig).run
        ([.command cmd] ++ List.replicate steps (.step controlPeriodMs))).TimesOut
          controlPeriodMs := by
      rw [hremembers.timesOut_iff (by decide), hsilence]
      rintro ⟨-, -, -, hlt⟩
      have h500 : controlConfig.commandTimeoutMs.toNat = 500 := rfl
      have h1 : controlPeriodMs.toNat = 1 := rfl
      omega
    refine ⟨?_, remembers_step hremembers rfl (by decide), ?_⟩
    · rw [silence_step, hsilence]; rfl
    · rw [Joint.act, (step_of_not_timesOut hnot).1, hmode]

/-- The command of `sweepThenSilence`. -/
def sweepCommand : AcceptedCommand :=
  ⟨⟨1, 0, 90000, 1⟩, decoderAccepts_iff.mpr (by decide)⟩

theorem published_sweep (steps : Nat) :
    ((start 7 0).run (sweepThenSilence steps)).Published
        ([.command sweepCommand] ++ List.replicate (steps + 1) (.step controlPeriodMs)) ∧
      ((start 7 0).run (sweepThenSilence steps)).app.cmdQueue.items = [] ∧
      ((start 7 0).run (sweepThenSilence steps)).comms.pc = .idle := by
  have hitems : ((start 7 0).run [.frame (commandFrame 7 sweepCommand.1) 0]).app.cmdQueue.items =
      [sweepCommand.1] := by decide +kernel
  have hframe := published_run 7 0 [.frame (commandFrame 7 sweepCommand.1) 0]
  have hcontrol := published_act hframe (.control .ok)
  have hcmd : jointCommand? sweepCommand.1 = some (.command sweepCommand) := dif_pos sweepCommand.2
  rw [jointActions, hitems, List.filterMap_cons_some hcmd] at hcontrol
  have hempty : (((start 7 0).run [.frame (commandFrame 7 sweepCommand.1) 0]).act
      (.control .ok)).app.cmdQueue.items = [] := by
    rw [act_app]; exact (drain_joint _).2.1
  have hpc : (((start 7 0).run [.frame (commandFrame 7 sweepCommand.1) 0]).act
      (.control .ok)).comms.pc = .idle := by rw [act_pc]; rfl
  rw [← hpc]
  exact published_silence hcontrol hempty steps

/-- So it does 500 ms after the last command, if the control task runs at the wrong moment: no
iteration of the run has published what the heartbeat shows. -/
theorem heartbeat_torn :
    ¬∀ (nodeId : UInt8) (millis : UInt32) (events : List NodeEvent) (cs : CanStatus)
        (time : UInt32) (sent : CanResult) (hb : Heartbeat),
      ((start nodeId millis).run events).heartbeat? (.heartbeat cs time sent) = some hb →
      ∃ point, point <+: events ∧ Shows nodeId millis point cs hb := by
  intro h
  obtain ⟨hbefore, hempty, hidle⟩ := published_sweep 499
  obtain ⟨hsilence, hremembers, hmode⟩ := mode_silence sweepCommand rfl (le_refl 500)
  have hlate : ((start 7 0).run (sweepThenSilence 499)).app.joint.TimesOut controlPeriodMs := by
    rw [hbefore.joint, hremembers.timesOut_iff (by decide), hsilence]
    exact ⟨hmode, by decide, by decide, by decide⟩
  obtain ⟨hb, hhb, hstate, hlost⟩ :=
    torn_of_timesOut hidle hempty hlate (show (⟨false, false⟩ : CanStatus).busOff = false from rfl)
      501 .ok .ok
  obtain ⟨point, -, hshows⟩ := h _ _ _ _ _ _ _ hhb
  exact hshows.operational hstate hlost

end Node
end Rjs
