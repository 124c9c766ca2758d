import RobotJointStack.App.Bus
import RobotJointStack.Joint.Standstill
import RobotJointStack.Monitor.Run

/-!
# App.Network

A network of nodes, every node with its own identifier, on a bus that may lose, delay, reorder and
repeat frames. What each node keeps rests on what the others send, and what it sends on what it
keeps.

* `Member`: the invariant of a node, given everything sent so far.
* `member_sound`: a node keeps it while the others do.
* `member_run`: so in every run of a network all do.
-/

namespace Rjs

open Network

/-- A node as a party of the bus. -/
def nodeParty : Party Node NodeEvent Transmission CanFrame where
  act := Node.act
  sends := Node.transmits
  takes := fun
    | .frame f _ => some f
    | _ => none
  arrives := Transmission.Arrives

/-- Nodes with the identifiers `ids`, started at the times `clock`. -/
def Node.network {ι : Type} (ids : ι → UInt8) (clock : ι → UInt32) :
    Network ι Node Transmission := Network.start fun i => Node.start (ids i) (clock i)

variable {ι : Type} (ids : ι → UInt8)

/-- The controller has sent the command: on the bus, or to its own joint. -/
def Issued (sent : List (ι × Transmission)) (i : ι) (cmd : Command) : Prop :=
  ∃ j t, (j, t) ∈ sent ∧ (j = i ∨ t.2 = .ok) ∧ Tells (ids j) t.1 (.command cmd)

/-- Another node has sent a heartbeat that the entry of the peer table shows. -/
def Heard (sent : List (ι × Transmission)) (i : ι) (p : Peer) : Prop :=
  ∃ j t, (j, t) ∈ sent ∧ j ≠ i ∧ t.2 = .ok ∧ ids j = p.node ∧
    Tells (ids j) t.1 (.heartbeat p.last)

/-- The commands among the transmissions of a node. -/
def commandsIn (ts : List Transmission) : List Command :=
  ts.filterMap fun t => acceptedCommand nodeBroadcast t.1

/-- Commands numbered from 1, and the counter at the last of them. -/
structure Numbered (cmds : List Command) (seq : UInt16) : Prop where
  each : ∀ k (h : k < cmds.length), cmds[k].sequence = UInt16.ofNat (k + 1)
  counter : seq = UInt16.ofNat cmds.length

theorem controlHoldsZero : controlConfig.HoldsZero := by decide

/-- The plant of every joint. -/
def controlPlant : Plant := controlConfig.plant controlHoldsZero

/-- A joint of the network: inside the sweep, and where the last command it has taken wants it. -/
structure Obeys (sent : List (ι × Transmission)) (i : ι) (j : Joint) : Prop where
  confined : j.Confined controlPlant (-sweepAmplitudeMdeg.toInt) sweepAmplitudeMdeg.toInt
  attended : j.Attended controlPlant sweepVelocityMdegS.toInt controlConfig.commandTimeoutMs
  velocity : j.mode = JointMode.position.code → j.maxVelocityMdegS = sweepVelocityMdegS
  latest : (j.mode = JointMode.disabled.code ∧ j.lastSeq = 0 ∧ j.targetMdeg = 0) ∨
    ∃ cmd, Issued ids sent i cmd ∧ j.lastSeq = cmd.sequence ∧ j.targetMdeg = cmd.targetMdeg

variable {ids} {sent more : List (ι × Transmission)} {i : ι}

/-! ## More messages -/

theorem Issued.mono {cmd : Command} (h : Issued ids sent i cmd) :
    Issued ids (sent ++ more) i cmd := by
  obtain ⟨j, t, hmem, hto, htells⟩ := h
  exact ⟨j, t, List.mem_append_left more hmem, hto, htells⟩

theorem Heard.mono {p : Peer} (h : Heard ids sent i p) : Heard ids (sent ++ more) i p := by
  obtain ⟨j, t, hmem, hrest⟩ := h
  exact ⟨j, t, List.mem_append_left more hmem, hrest⟩

theorem Obeys.mono {j : Joint} (h : Obeys ids sent i j) : Obeys ids (sent ++ more) i j where
  confined := h.confined
  attended := h.attended
  velocity := h.velocity
  latest := h.latest.imp_right fun ⟨cmd, hissued, hmarks⟩ => ⟨cmd, hissued.mono, hmarks⟩

/-! ## The joint -/

theorem Issued.isSweep {cmd : Command} (h : Issued ids sent i cmd) : IsSweep cmd := by
  obtain ⟨j, t, -, -, htells⟩ := h
  exact htells.2.1

theorem IsSweep.accepted {cmd : Command} (h : IsSweep cmd) : DecoderAccepts cmd := by
  refine decoderAccepts_iff.mpr ⟨?_, fun _ => ?_⟩
  · rw [h.mode]; decide
  · rw [h.velocity]; decide

theorem IsSweep.span {cmd : Command} (h : IsSweep cmd) :
    |cmd.targetMdeg.toInt| ≤ sweepAmplitudeMdeg.toInt := by
  rcases h.target with e | e <;> rw [e] <;> decide

/-- The sweep is inside the soft limits. -/
theorem IsSweep.command_target {cmd : Command} (h : IsSweep cmd) {j : Joint}
    (hsafe : j.Safe controlPlant) : (j.command cmd).targetMdeg = cmd.targetMdeg := by
  have hspan := abs_le.mp h.span
  have hin : controlPlant.Holds cmd.targetMdeg.toInt :=
    ⟨show (-170000 : Int) ≤ _ from hspan.1.trans' (by decide), hspan.2.trans (by decide)⟩
  rw [Joint.command_target, if_pos h.mode, ← Int32.toInt_inj, toInt_clamp32 hsafe.lo hsafe.hi,
    Int32.toInt_toInt64, Plant.clamp_of_holds hin]

theorem obeys_command {j : Joint} (h : Obeys ids sent i j) {cmd : Command}
    (hcmd : Issued ids sent i cmd) : Obeys ids sent i (j.command cmd) := by
  have hsweep := hcmd.isSweep
  refine ⟨Joint.confined_command h.confined ⟨cmd, hsweep.accepted⟩ fun _ => abs_le.mp hsweep.span,
    Joint.attended_command h.attended ⟨cmd, hsweep.accepted⟩ fun _ => ?_, fun _ => ?_,
    .inr ⟨cmd, hcmd, ?_, hsweep.command_target h.confined.safe⟩⟩
  · rw [hsweep.velocity]
  · rw [Joint.command_vmax, if_pos hsweep.mode, hsweep.velocity]
  · unfold Joint.command; split <;> rfl

theorem obeys_step {j : Joint} (h : Obeys ids sent i j) : Obeys ids sent i (j.step 1) where
  confined := Joint.confined_step rfl h.confined
  attended := (Joint.attended_step rfl (by decide) (by decide) h.attended).1
  velocity hmode := by
    rw [Joint.step_vmax]
    cases j.step_mode 1 with
    | inl e => exact h.velocity (e ▸ hmode)
    | inr e => exact absurd (hmode.symm.trans e) Joint.position_ne_disabled
  latest := by
    rw [Joint.step_lastSeq, Joint.step_target]
    refine h.latest.imp_left fun ⟨hmode, hmarks⟩ => ⟨?_, hmarks⟩
    cases j.step_mode 1 with
    | inl e => exact e.trans hmode
    | inr e => exact e

theorem obeys_commands {j : Joint} (h : Obeys ids sent i j) {cmds : List Command}
    (hcmds : ∀ cmd ∈ cmds, Issued ids sent i cmd) :
    Obeys ids sent i (cmds.foldl Joint.command j) := by
  induction cmds generalizing j with
  | nil => exact h
  | cons cmd cmds ih =>
    rw [List.forall_mem_cons] at hcmds
    exact ih (obeys_command h hcmds.1) hcmds.2

theorem obeys_init : Obeys ids sent i (Joint.init controlConfig) where
  confined := Joint.confined_init controlHoldsZero (by decide) (by decide)
  attended := Joint.attended_init controlHoldsZero (by decide)
  velocity := nofun
  latest := .inl ⟨rfl, rfl, rfl⟩

/-! ## The peer table -/

namespace Monitor

variable {σ : Type} {m : Monitor σ}

theorem mem_onHeartbeat {node : UInt8} {hb : Heartbeat} {nowMs : UInt32} {p : Peer}
    (h : p ∈ (m.onHeartbeat node (some hb) nowMs).2.peers) :
    p ∈ m.peers ∨ (p.node = node ∧ p.last = hb) := by
  by_cases hacc : m.Accepts node
  · rw [onHeartbeat_accepted hb nowMs hacc] at h
    cases Table.mem_put h with
    | inl hp =>
      rw [hp]; exact .inr ⟨m.entry_node node, rfl⟩
    | inr hold => exact .inl hold
  · rw [onHeartbeat_refused hb nowMs hacc] at h
    exact .inl h

theorem distinct_onHeartbeat (h : Table.Distinct Peer.node m.peers) (node : UInt8) (hb : Heartbeat)
    (nowMs : UInt32) :
    Table.Distinct Peer.node (m.onHeartbeat node (some hb) nowMs).2.peers := by
  by_cases hacc : m.Accepts node
  · rw [onHeartbeat_accepted hb nowMs hacc]
    exact Table.distinct_put h _
  · rw [onHeartbeat_refused hb nowMs hacc]
    exact h

theorem room_onHeartbeat (h : m.peers.length ≤ monitorMaxNodes) (node : UInt8) (hb : Heartbeat)
    (nowMs : UInt32) : (m.onHeartbeat node (some hb) nowMs).2.peers.length ≤ monitorMaxNodes := by
  by_cases hacc : m.Accepts node
  · exact length_onHeartbeat hb nowMs hacc h
  · rw [onHeartbeat_refused hb nowMs hacc]
    exact h

theorem room_poll (h : m.peers.length ≤ monitorMaxNodes) (nowMs : UInt32) :
    (m.poll nowMs).peers.length ≤ monitorMaxNodes := by
  rw [poll_eq]
  simpa using h

theorem mem_poll {nowMs : UInt32} {p : Peer} (h : p ∈ (m.poll nowMs).peers) :
    ∃ q ∈ m.peers, p.node = q.node ∧ p.last = q.last := by
  rw [poll_eq] at h
  obtain ⟨q, hq, rfl⟩ := List.mem_map.mp h
  refine ⟨q, hq, q.expire_node _ _, ?_⟩
  unfold Peer.expire
  split <;> rfl

theorem distinct_poll (h : Table.Distinct Peer.node m.peers) (nowMs : UInt32) :
    Table.Distinct Peer.node (m.poll nowMs).peers := by
  rw [poll_eq]
  exact Table.distinct_map (fun p => p.expire_node _ _) h

end Monitor

/-! ## Commands of a node -/

namespace Node

variable {n : Node} {ev : NodeEvent} {cmd : Command}

/-- The command that an event of the node issues. -/
def issues? (n : Node) : NodeEvent → Option Command
  | .command down millis flip _ => n.ownCommand? down millis flip
  | _ => none

theorem issues?_eq_some (h : n.issues? ev = some cmd) : n.comms.pc = .reported ∧
    cmd.mode = JointMode.position.code ∧ cmd.maxVelocityMdegS = sweepVelocityMdegS ∧
      cmd.sequence = n.comms.seq + 1 ∧
      (cmd.targetMdeg = n.comms.target ∨ cmd.targetMdeg = -n.comms.target) := by
  cases ev with
  | command down millis flip sent =>
    simp only [issues?, ownCommand?] at h
    split at h
    · rename_i hpc
      split at h
      · cases h
        refine ⟨hpc, rfl, rfl, ?_, ?_⟩
        · unfold nextCommand sweep; split <;> rfl
        · unfold nextCommand sweep; split
          · exact .inr rfl
          · exact .inl rfl
      · cases h
    · cases h
  | _ => cases h

/-- A command that is issued is handed over in one frame. -/
theorem transmits_of_issues (h : n.issues? ev = some cmd) : ∃ f sent,
    n.transmits ev = [(f, sent)] ∧
      encodeCommand nodeBroadcast (some cmd) (some default) = (.ok, some f) := by
  obtain ⟨-, hmode, hvel, -, -⟩ := issues?_eq_some h
  have hvalid : commandValid nodeBroadcast cmd = true := by
    simp [commandValid, hmode, hvel]
    decide
  cases ev with
  | command down millis flip sent =>
    refine ⟨_, sent, ?_, encode_eq_ok.mpr ⟨hvalid, rfl⟩⟩
    simp only [transmits, show n.ownCommand? down millis flip = some cmd from h]
    rw [encodeCommand, encode_eq_ok.mpr ⟨hvalid, rfl⟩]
    rfl
  | _ => cases h

/-- What an event does to the numbers of `comms_task`. -/
theorem act_comms (n : Node) (ev : NodeEvent) :
    (n.act ev).comms.seq = ((n.issues? ev).map (·.sequence)).getD n.comms.seq ∧
      ((n.act ev).comms.target = n.comms.target ∨ (n.act ev).comms.target = -n.comms.target) := by
  cases ev with
  | frame f millis => exact ⟨rfl, .inl rfl⟩
  | poll millis => exact ⟨rfl, .inl rfl⟩
  | control sent =>
    simp only [act, control]
    split
    · split <;> simp [issues?]
    · exact ⟨rfl, .inl rfl⟩
  | readSnapshot => simp only [act]; split <;> exact ⟨rfl, .inl rfl⟩
  | heartbeat cs millis sent =>
    simp only [act]
    split
    · simp only [sendHeartbeat]
      split <;> simp [issues?]
    · exact ⟨rfl, .inl rfl⟩
  | command down millis flip sent =>
    cases hpc : n.comms.pc with
    | reported =>
      simp only [act, hpc, controllerCommand, issues?, ownCommand?, if_true]
      split
      · obtain ⟨f, hf⟩ := encode_nextCommand
          (({ n with comms := { n.comms with pc := .idle } }.button down).sweep millis flip)
        simp only [hf, canSend_comms]
        refine ⟨rfl, ?_⟩
        unfold sweep
        split
        · exact .inr rfl
        · exact .inl rfl
      · exact ⟨rfl, .inl rfl⟩
    | _ => simp [act, hpc, issues?, ownCommand?]

theorem drain_rest (a : App) :
    a.drain.monitor = a.monitor ∧ a.drain.rxDecodeErrors = a.rxDecodeErrors := by
  induction a using App.drain.induct with
  | case1 a cmd q h ih => rw [App.drain, h]; exact ih
  | case2 a h => rw [App.drain, h]; exact ⟨rfl, rfl⟩

end Node

theorem numbered_snoc {cmds : List Command} {seq : UInt16} {cmd : Command}
    (h : Numbered cmds seq) (hcmd : cmd.sequence = seq + 1) :
    Numbered (cmds ++ [cmd]) cmd.sequence := by
  have hnext : cmd.sequence = UInt16.ofNat (cmds.length + 1) := by
    rw [hcmd, h.counter, UInt16.ofNat_add]
    rfl
  refine ⟨fun k hk => ?_, by rw [List.length_append]; exact hnext⟩
  rw [List.getElem_append]
  split
  · rename_i hlt
    exact h.each k hlt
  · rename_i hge
    have hk' : k = cmds.length := by
      simp only [List.length_append, List.length_singleton] at hk
      omega
    subst hk'
    simpa using hnext

/-- What arrives comes from another node and says what that node may say. -/
theorem offered_tells (hsent : ∀ j t, (j, t) ∈ sent → ∃ msg, Tells (ids j) t.1 msg) {g : CanFrame}
    (hoff : Offers nodeParty sent i g) :
    ∃ j t msg, (j, t) ∈ sent ∧ j ≠ i ∧ t.2 = .ok ∧ Tells (ids j) t.1 msg ∧ g.id = t.1.id ∧
      msg.DecodedFrom g := by
  obtain ⟨j, t, hmem, hne, harr⟩ := hoff
  obtain ⟨msg, htells⟩ := hsent j t hmem
  obtain ⟨hid, hdec⟩ := htells.arrives harr
  exact ⟨j, t, msg, hmem, hne, harr.1, htells, hid, hdec⟩

/-! ## A node -/

section Member

variable [DecidableEq ι] (ids) in
/-- What a node keeps. -/
structure Member (sent : List (ι × Transmission)) (i : ι) (n : Node) : Prop where
  nodeId : n.app.nodeId = ids i
  reported : n.comms.pc = .reported → ids i = controllerNodeId
  errors : n.app.rxDecodeErrors = 0
  told : ∀ t, (i, t) ∈ sent → ∃ msg, Tells (ids i) t.1 msg
  target : n.comms.target = sweepAmplitudeMdeg ∨ n.comms.target = -sweepAmplitudeMdeg
  queue : ∀ cmd ∈ n.app.cmdQueue.items, Issued ids sent i cmd
  joint : Obeys ids sent i n.app.joint
  room : n.app.monitor.peers.length ≤ monitorMaxNodes
  distinct : Table.Distinct Peer.node n.app.monitor.peers
  peers : ∀ p ∈ n.app.monitor.peers, Heard ids sent i p
  numbered : Numbered (commandsIn (own i sent)) n.comms.seq

variable [DecidableEq ι] {n : Node}

/-- What others send does not concern the node. -/
theorem Member.stable (h : Member ids sent i n) (hmore : ∀ m ∈ more, m.1 ≠ i) :
    Member ids (sent ++ more) i n where
  nodeId := h.nodeId
  reported := h.reported
  errors := h.errors
  told t hmem := by
    cases List.mem_append.mp hmem with
    | inl hold => exact h.told t hold
    | inr hnew => exact absurd rfl (hmore _ hnew)
  target := h.target
  queue := fun cmd hcmd => (h.queue cmd hcmd).mono
  joint := h.joint.mono
  room := h.room
  distinct := h.distinct
  peers := fun p hp => (h.peers p hp).mono
  numbered := by
    rw [own_append_other sent hmore]; exact h.numbered

theorem neg_target {x : Int32} (h : x = sweepAmplitudeMdeg ∨ x = -sweepAmplitudeMdeg) :
    -x = sweepAmplitudeMdeg ∨ -x = -sweepAmplitudeMdeg := by
  rcases h with rfl | rfl <;> decide

/-- What an event hands to `can_send` says something the node may say, a command if the event
issues one. -/
theorem Member.means (h : Member ids sent i n) {ev : NodeEvent} {t : Transmission}
    (ht : t ∈ n.transmits ev) :
    ∃ msg, Tells (ids i) t.1 msg ∧ msg.command? = n.issues? ev := by
  rw [← h.nodeId]
  cases ev with
  | control result =>
    simp only [Node.transmits] at ht
    split at ht
    · obtain ⟨henc, -⟩ := Node.mem_transmission.mp ht
      refine ⟨.jointState _, ⟨?_, henc⟩, rfl⟩
      have hj : Obeys ids sent i (n.app.drain.joint.step 1) := by
        rw [(Node.drain_joint n.app).1]
        exact obeys_step (obeys_commands h.joint h.queue)
      exact ⟨abs_le.mpr hj.confined.pos, hj.attended.speed⟩
    · cases ht
  | heartbeat cs millis sent =>
    simp only [Node.transmits] at ht
    split at ht
    · obtain ⟨henc, -⟩ := Node.mem_transmission.mp ht
      exact ⟨.heartbeat _, henc, rfl⟩
    · cases ht
  | command down millis flip sent =>
    simp only [Node.transmits] at ht
    split at ht
    · rename_i cmd hcmd
      obtain ⟨henc, -⟩ := Node.mem_transmission.mp ht
      have hissues : n.issues? (.command down millis flip sent) = some cmd := hcmd
      obtain ⟨hpc, hmode, hvel, -, htarget⟩ := Node.issues?_eq_some hissues
      refine ⟨.command cmd, ⟨h.nodeId ▸ h.reported hpc, ⟨hmode, ?_, hvel⟩, henc⟩, hcmd.symm⟩
      rcases htarget with e | e <;> rw [e]
      · exact h.target
      · exact neg_target h.target
    · cases ht
  | _ => cases ht

theorem commandsIn_transmits (h : Member ids sent i n) (ev : NodeEvent) :
    commandsIn (n.transmits ev) = (n.issues? ev).toList := by
  have hall : ∀ t ∈ n.transmits ev, acceptedCommand nodeBroadcast t.1 = n.issues? ev := by
    intro t ht
    obtain ⟨msg, htells, hmsg⟩ := h.means ht
    rw [acceptedCommand_tells htells rfl htells.decoded, hmsg]
  cases hissues : n.issues? ev with
  | none =>
    refine List.filterMap_eq_nil_iff.mpr fun t ht => ?_
    rw [hall t ht, hissues]
  | some cmd =>
    obtain ⟨f, result, hts, -⟩ := Node.transmits_of_issues hissues
    have hf := hall (f, result) (by rw [hts]; exact List.mem_singleton_self _)
    simp only [hts, commandsIn, List.filterMap_cons, hf, hissues, List.filterMap_nil,
      Option.toList_some]

/-- A command that an event offers to the queue of the node has been issued. -/
theorem Member.offered (h : Member ids sent i n) {ev : NodeEvent}
    (hsent : ∀ j t, (j, t) ∈ sent → ∃ msg, Tells (ids j) t.1 msg)
    (hoff : ∀ r ∈ nodeParty.takes ev, Offers nodeParty sent i r) {cmd : Command}
    (hcmd : n.offered? ev = some cmd) :
    Issued ids (sent ++ (n.transmits ev).map (i, ·)) i cmd := by
  cases ev with
  | frame g millis =>
    obtain ⟨j, t, msg, hmem, -, hok, htells, hid, hdec⟩ := offered_tells hsent (hoff g rfl)
    rw [Node.offered?, acceptedCommand_tells htells hid hdec] at hcmd
    refine ⟨j, t, List.mem_append_left _ hmem, .inr hok, ?_⟩
    cases msg <;> cases hcmd
    exact htells
  | command down millis flip result =>
    have hissues : n.issues? (.command down millis flip result) = some cmd := hcmd
    obtain ⟨f, res, hts, -⟩ := Node.transmits_of_issues hissues
    have ht : (f, res) ∈ n.transmits (.command down millis flip result) := by
      rw [hts]; exact List.mem_singleton_self _
    obtain ⟨msg, htells, hmsg⟩ := h.means ht
    refine ⟨i, (f, res), List.mem_append_right _ (List.mem_map.mpr ⟨_, ht, rfl⟩), .inl rfl, ?_⟩
    rw [hissues] at hmsg
    cases msg <;> cases hmsg
    exact htells
  | _ => cases hcmd

/-- The peer table, when the node has taken in a message of `j` or none. -/
theorem Member.monitor (h : Member ids sent i n) {ev : NodeEvent}
    (hsent : ∀ j t, (j, t) ∈ sent → ∃ msg, Tells (ids j) t.1 msg)
    (hoff : ∀ r ∈ nodeParty.takes ev, Offers nodeParty sent i r) :
    (n.act ev).app.rxDecodeErrors = 0 ∧
      (n.act ev).app.monitor.peers.length ≤ monitorMaxNodes ∧
      Table.Distinct Peer.node (n.act ev).app.monitor.peers ∧
      ∀ p ∈ (n.act ev).app.monitor.peers, Heard ids sent i p := by
  rw [Node.act_app]
  cases ev with
  | frame g millis =>
    obtain ⟨j, t, msg, hmem, hne, hok, htells, hid, hdec⟩ := offered_tells hsent (hoff g rfl)
    dsimp only
    rw [handleFrame_tells htells hid hdec]
    cases msg with
    | heartbeat hb =>
      refine ⟨h.errors, Monitor.room_onHeartbeat h.room _ _ _,
        Monitor.distinct_onHeartbeat h.distinct _ _ _, fun p hp => ?_⟩
      rcases Monitor.mem_onHeartbeat hp with hold | ⟨hnode, hlast⟩
      · exact h.peers p hold
      · exact ⟨j, t, hmem, hne, hok, hnode.symm, hlast ▸ htells⟩
    | _ => exact ⟨h.errors, h.room, h.distinct, h.peers⟩
  | poll millis =>
    refine ⟨h.errors, Monitor.room_poll h.room millis, Monitor.distinct_poll h.distinct millis,
      fun p hp => ?_⟩
    obtain ⟨q, hq, hnode, hlast⟩ := Monitor.mem_poll hp
    have hheard := h.peers q hq
    rw [Heard, hnode, hlast]
    exact hheard
  | control result =>
    obtain ⟨hmonitor, herrors⟩ := Node.drain_rest n.app
    dsimp only
    rw [hmonitor, herrors]
    exact ⟨h.errors, h.room, h.distinct, h.peers⟩
  | _ => exact ⟨h.errors, h.room, h.distinct, h.peers⟩

/-- The queue and the joint, when the commands offered have been issued. -/
theorem Member.control (h : Member ids sent i n) {ev : NodeEvent}
    (hoffered : ∀ cmd, n.offered? ev = some cmd → Issued ids (sent ++ more) i cmd) :
    (∀ cmd ∈ (n.act ev).app.cmdQueue.items, Issued ids (sent ++ more) i cmd) ∧
      Obeys ids (sent ++ more) i (n.act ev).app.joint := by
  by_cases hcontrol : ∃ result, ev = .control result
  · obtain ⟨result, rfl⟩ := hcontrol
    obtain ⟨hjoint, hitems, -, -⟩ := Node.drain_joint n.app
    rw [Node.act_app]
    refine ⟨fun cmd hcmd => ?_, ?_⟩
    · rw [show ({ n.app.drain with joint := _ } : App).cmdQueue.items = [] from hitems] at hcmd
      exact absurd hcmd List.not_mem_nil
    · dsimp only
      rw [hjoint]
      exact (obeys_step (obeys_commands h.joint h.queue)).mono
  · have hquiet := n.act_quiet ev fun result he => hcontrol ⟨result, he⟩
    rw [hquiet.1, hquiet.2]
    refine ⟨fun cmd hcmd => ?_, h.joint.mono⟩
    cases ho : n.offered? ev with
    | none =>
      rw [ho] at hcmd
      exact (h.queue cmd hcmd).mono
    | some new =>
      rw [ho] at hcmd
      rcases Fifo.mem_of_mem_send hcmd with hold | rfl
      · exact (h.queue cmd hold).mono
      · exact hoffered cmd ho

/-- Only the controller gets to the commands. -/
theorem Member.pc (h : Member ids sent i n) {ev : NodeEvent}
    (hpc : (n.act ev).comms.pc = .reported) : ids i = controllerNodeId := by
  rw [Node.act_pc] at hpc
  cases hold : n.comms.pc with
  | idle => rw [hold] at hpc; cases ev <;> cases hpc
  | holding js =>
    rw [hold] at hpc
    cases ev with
    | heartbeat cs millis result =>
      dsimp only at hpc
      split at hpc
      · rename_i hid
        exact h.nodeId.symm.trans hid
      · cases hpc
    | _ => cases hpc
  | reported => exact h.reported hold

/-- A node keeps what it keeps, as long as the others say what they may say. -/
theorem member_act (h : Member ids sent i n) {ev : NodeEvent}
    (hsent : ∀ j t, (j, t) ∈ sent → ∃ msg, Tells (ids j) t.1 msg)
    (hoff : ∀ r ∈ nodeParty.takes ev, Offers nodeParty sent i r) :
    Member ids (sent ++ (n.transmits ev).map (i, ·)) i (n.act ev) := by
  obtain ⟨herrors, hroom, hdistinct, hpeers⟩ := h.monitor hsent hoff
  obtain ⟨hqueue, hjoint⟩ := h.control fun cmd hcmd => h.offered hsent hoff hcmd
  obtain ⟨hseq, htarget⟩ := n.act_comms ev
  refine ⟨(n.act_nodeId ev).trans h.nodeId, h.pc, herrors, ?_, ?_, hqueue, hjoint, hroom,
    hdistinct, fun p hp => (hpeers p hp).mono, ?_⟩
  · intro t ht
    cases List.mem_append.mp ht with
    | inl hold => exact h.told t hold
    | inr hnew =>
      obtain ⟨t', ht', heq⟩ := List.mem_map.mp hnew
      cases heq
      obtain ⟨msg, htells, -⟩ := h.means ht'
      exact ⟨msg, htells⟩
  · rcases htarget with e | e <;> rw [e]
    · exact h.target
    · exact neg_target h.target
  · rw [own_append_self, commandsIn, List.filterMap_append, ← commandsIn, ← commandsIn,
      commandsIn_transmits h, hseq]
    cases hissues : n.issues? ev with
    | none => simpa using h.numbered
    | some cmd => exact numbered_snoc h.numbered (Node.issues?_eq_some hissues).2.2.2.1

/-- So the nodes of a network keep it together. -/
theorem member_sound (ids : ι → UInt8) :
    Sound nodeParty (Member ids) fun j t => ∃ msg, Tells (ids j) t.1 msg where
  guarantee h := h.told
  stable h hmore := h.stable hmore
  step h hsent hoff := member_act h hsent hoff

theorem member_start (clock : ι → UInt32) : (Node.network ids clock).Holds (Member ids) := fun _ =>
  { nodeId := rfl
    reported := nofun
    errors := rfl
    told := fun _ h => absurd h List.not_mem_nil
    target := .inl rfl
    queue := fun _ h => absurd h List.not_mem_nil
    joint := obeys_init
    room := Nat.zero_le _
    distinct := List.nodup_nil
    peers := fun _ h => absurd h List.not_mem_nil
    numbered := ⟨fun _ h => absurd h (Nat.not_lt_zero _), rfl⟩ }

/-- Every node of every run. -/
theorem member_run {clock : ι → UInt32} {events : List (ι × NodeEvent)}
    (hrun : (Node.network ids clock).IsRun nodeParty events) :
    ((Node.network ids clock).run nodeParty events).Holds (Member ids) :=
  (member_sound ids).run (member_start clock) hrun

end Member

end Rjs
