import Mathlib.Data.Fintype.Card
import RobotJointStack.App.Network
import RobotJointStack.Monitor.LifeCycle

/-!
# App.Sweep

What a network of nodes guarantees as a whole, in every run and whatever the bus loses, delays or
repeats.

* `bus_wellFormed`: what is on the bus can be read, and no two nodes use one identifier.
* `joints_obey`: joints move inside the sweep, on commands of the controller.
* `peers_genuine`: a peer table lists other nodes that have sent what it shows.
* `sequence_agreement`: joints that report one sequence number head for one target.
-/

namespace Rjs

open Network

/-- Frames with one identifier come from one node. -/
theorem Tells.sender {ι : Type} {ids : ι → UInt8} {i j : ι} (hids : Function.Injective ids)
    {f g : CanFrame} {msg msg' : Message} (h : Tells (ids i) f msg) (h' : Tells (ids j) g msg')
    (hid : f.id = g.id) : i = j := by
  obtain ⟨htype, hnode⟩ := h.id_eq
  obtain ⟨htype', hnode'⟩ := h'.id_eq
  rw [hid, htype', MsgType.code_inj] at htype
  rw [hid, hnode'] at hnode
  cases msg with
  | heartbeat hb =>
    cases msg' with
    | heartbeat hb' => exact (hids hnode).symm
    | _ => cases htype
  | jointState st =>
    cases msg' with
    | jointState st' => exact (hids hnode).symm
    | _ => cases htype
  | command cmd =>
    cases msg' with
    | command cmd' => exact hids (h.1.trans h'.1.symm)
    | _ => cases htype
  | emergency em => exact h.elim

/-- The bus may deliver a frame into a buffer that holds it already. -/
theorem arrives_self {f : CanFrame} (hlen : FdSize f.len) : Transmission.Arrives (f, .ok) f := by
  refine ⟨rfl, f.message, f.data, f.delivered_message, ?_⟩
  have hdata (n : Nat) : copyPayload n f.data f.data = f.data := by
    ext k hk
    simp [copyPayload]
  have hid : (rxFrame f.message f.data).id = f.id := rxFrame_id f.delivered_message
  have hframe : (rxFrame f.message f.data).len = f.len := rxFrame_len hlen f.delivered_message
  simp only [rxFrame, CanFrame.message] at hid hframe ⊢
  rw [hid, hframe, hdata]

section Example

/-- The first heartbeat of the controller. -/
def firstHeartbeat : CanFrame :=
  { frameStart .heartbeat 1 heartbeatLen with
    data := writeHeartbeat ⟨NodeState.preop.code, 0, 100, 0, 1, 0⟩
      (frameStart .heartbeat 1 heartbeatLen).data }

/-- A controller and a joint. -/
def pairIds (i : Fin 2) : UInt8 := if i = 0 then 1 else 7

theorem pairIds_injective : Function.Injective pairIds := by decide

/-- The other joint hears the controller and takes its first command. -/
def firstCommand : List (Fin 2 × NodeEvent) :=
  [(0, .readSnapshot), (0, .heartbeat ⟨false, false⟩ 100 .ok), (0, .command false 100 100 .ok),
    (1, .frame firstHeartbeat 101), (1, .frame (Node.commandFrame 0 ⟨1, 90000, 90000, 1⟩) 101),
    (1, .control .ok)]

theorem firstCommand_isRun :
    (Node.network pairIds fun _ => 0).IsRun nodeParty firstCommand := by
  refine ⟨nofun, nofun, nofun, fun r hr => ?_, fun r hr => ?_, nofun, trivial⟩ <;> cases hr
  · exact ⟨0, (firstHeartbeat, .ok), by decide +kernel, by decide, arrives_self (by decide)⟩
  · exact ⟨0, (Node.commandFrame 0 ⟨1, 90000, 90000, 1⟩, .ok), by decide +kernel, by decide,
      arrives_self (by decide)⟩

end Example

variable {ι : Type} [DecidableEq ι] {ids : ι → UInt8} {clock : ι → UInt32}
  {events : List (ι × NodeEvent)}

/-- **A well-formed bus.** In every run of a network of nodes with different identifiers, no node
counts a decode error; every frame handed to the bus is a heartbeat or joint state of its sender or
a sweep command of the controller, which its decoder reads wherever it arrives and the other
decoders refuse; and no identifier is used by two nodes. -/
theorem bus_wellFormed (hids : Function.Injective ids)
    (hrun : (Node.network ids clock).IsRun nodeParty events) :
    let net := (Node.network ids clock).run nodeParty events
    (∀ i, (net.node i).app.rxDecodeErrors = 0) ∧
    (∀ i t, (i, t) ∈ net.sent → ∃ msg, Tells (ids i) t.1 msg ∧
      ∀ g, t.Arrives g → msg.DecodedFrom g ∧ Message.RefusedByOthers msg.type g) ∧
    ∀ i t j u, (i, t) ∈ net.sent → (j, u) ∈ net.sent → t.1.id = u.1.id → i = j := by
  intro net
  have h : net.Holds (Member ids) := member_run hrun
  refine ⟨fun i => (h i).errors, fun i t ht => ?_, fun i t j u ht hu hid => ?_⟩
  · obtain ⟨msg, htells⟩ := (h i).told t ht
    refine ⟨msg, htells, fun g hg => ?_⟩
    obtain ⟨hgid, hdec⟩ := htells.arrives hg
    exact ⟨hdec, Message.refusedByOthers (by rw [hgid]; exact htells.id_eq.1)⟩
  · obtain ⟨msg, htells⟩ := (h i).told t ht
    obtain ⟨msg', htells'⟩ := (h j).told u hu
    exact htells.sender hids htells' hid

/-- A heartbeat and a command are on the bus, and no joint state is due yet. -/
theorem bus_wellFormed_pair :
    (((Node.network pairIds fun _ => 0).run nodeParty firstCommand).node 1).app.rxDecodeErrors =
      0 :=
  (bus_wellFormed pairIds_injective firstCommand_isRun).1 1

/-- **Joints obey the controller.** In every run, every joint is within the sweep and no faster than
it; and if it is in position mode, its target and sequence number are those of a command that the
controller has sent, on the bus or, being the controller, to itself. -/
theorem joints_obey (hrun : (Node.network ids clock).IsRun nodeParty events) (i : ι) :
    let net := (Node.network ids clock).run nodeParty events
    let j := (net.node i).app.joint
    |j.positionMdeg.toInt| ≤ 90000 ∧ |j.velocityMdegS.toInt| ≤ 90000 ∧
    (j.mode = JointMode.position.code →
      ∃ c t cmd, (c, t) ∈ net.sent ∧ ids c = controllerNodeId ∧ (c = i ∨ t.2 = .ok) ∧
        (Message.command cmd).DecodedFrom t.1 ∧
        j.lastSeq = cmd.sequence ∧ j.targetMdeg = cmd.targetMdeg) := by
  intro net j
  have h : Obeys ids net.sent i j := (member_run hrun i).joint
  refine ⟨abs_le.mpr h.confined.pos, h.attended.speed, fun hmode => ?_⟩
  rcases h.latest with ⟨hdisabled, -⟩ | ⟨cmd, ⟨c, t, hmem, hto, htells⟩, hseq, htarget⟩
  · rw [hdisabled] at hmode
    exact absurd hmode (by decide)
  · exact ⟨c, t, cmd, hmem, htells.1, hto, htells.decoded, hseq, htarget⟩

/-- The other joint obeys the first command. -/
theorem joints_obey_pair :
    let j := (((Node.network pairIds fun _ => 0).run nodeParty firstCommand).node 1).app.joint
    |j.positionMdeg.toInt| ≤ 90000 ∧ j.mode = JointMode.position.code :=
  ⟨(joints_obey firstCommand_isRun 1).1, by decide +kernel⟩

/-- **Genuine peers.** In every run of a network of nodes with different identifiers, an entry of a
node's peer table shows a heartbeat that another node has sent under its identifier; no node lists
itself or another node twice, and none counts as many live peers as there are nodes. -/
theorem peers_genuine [Fintype ι] (hids : Function.Injective ids)
    (hrun : (Node.network ids clock).IsRun nodeParty events) (i : ι) :
    let net := (Node.network ids clock).run nodeParty events
    let monitor := (net.node i).app.monitor
    (∀ p ∈ monitor.peers, p.node ≠ ids i ∧ ∃ j t, (j, t) ∈ net.sent ∧ ids j = p.node ∧ t.2 = .ok ∧
      (Message.heartbeat p.last).DecodedFrom t.1) ∧
    (monitor.peers.map Peer.node).Nodup ∧
    monitor.aliveCount.toNat < Fintype.card ι := by
  intro net monitor
  have h : Member ids net.sent i (net.node i) := member_run hrun i
  refine ⟨fun p hp => ?_, h.distinct, ?_⟩
  · obtain ⟨j, t, hmem, hne, hok, hnode, htells⟩ := h.peers p hp
    exact ⟨fun he => hne (hids (hnode.trans he)), j, t, hmem, hnode, hok, htells.decoded⟩
  · have hsub : (monitor.peers.map Peer.node).toFinset ⊆ (Finset.univ.erase i).image ids := by
      intro node hnode
      obtain ⟨p, hp, rfl⟩ := List.mem_map.mp (List.mem_toFinset.mp hnode)
      obtain ⟨j, t, -, hne, -, hj, -⟩ := h.peers p hp
      exact Finset.mem_image.mpr ⟨j, Finset.mem_erase.mpr ⟨hne, Finset.mem_univ j⟩, hj⟩
    have hothers : monitor.peers.length ≤ Fintype.card ι - 1 := by
      calc monitor.peers.length
          = (monitor.peers.map Peer.node).toFinset.card := by
            rw [List.toFinset_card_of_nodup h.distinct, List.length_map]
        _ ≤ ((Finset.univ.erase i).image ids).card := Finset.card_le_card hsub
        _ ≤ (Finset.univ.erase i).card := Finset.card_image_le
        _ = Fintype.card ι - 1 := Finset.card_erase_of_mem (Finset.mem_univ i)
    have hpos : 0 < Fintype.card ι := Fintype.card_pos_iff.mpr ⟨i⟩
    have hcount := monitor.peers.countP_le_length (p := (·.status = .alive))
    rw [Monitor.aliveCount_eq monitor h.room]
    omega

/-- The joint has heard the controller. -/
theorem peers_genuine_pair :
    let monitor := (((Node.network pairIds fun _ => 0).run nodeParty firstCommand).node
      1).app.monitor
    monitor.aliveCount = 1 ∧ monitor.aliveCount.toNat < 2 :=
  ⟨by decide +kernel, (peers_genuine pairIds_injective firstCommand_isRun 1).2.2⟩

/-- A command that has been issued has its place among those of the controller. -/
theorem Issued.index {sent : List (ι × Transmission)} {i : ι} {cmd : Command}
    (h : Issued ids sent i cmd) : ∃ c, ids c = controllerNodeId ∧ ∃ k,
      ∃ hk : k < (commandsIn (own c sent)).length, (commandsIn (own c sent))[k] = cmd := by
  obtain ⟨c, t, hmem, -, htells⟩ := h
  have hcmd : cmd ∈ commandsIn (own c sent) := by
    refine List.mem_filterMap.mpr ⟨t, mem_own.mpr hmem, ?_⟩
    rw [acceptedCommand_tells htells rfl htells.decoded]
    rfl
  obtain ⟨k, hk, e⟩ := List.getElem_of_mem hcmd
  exact ⟨c, htells.1, k, hk, e⟩

/-- The sequence number of a command is its place, as long as the numbers last. -/
theorem Numbered.toNat_sequence {cmds : List Command} {seq : UInt16} (h : Numbered cmds seq)
    (hfew : cmds.length < 65536) {k : Nat} (hk : k < cmds.length) :
    cmds[k].sequence.toNat = k + 1 := by
  rw [h.each k hk, UInt16.toNat_ofNat_of_lt']
  show k + 1 < 65536
  omega

/-- **Agreement on sequence numbers.** As long as the controller has issued fewer than 65536
commands, two joints that report the same sequence number head for the same target. -/
theorem sequence_agreement (hids : Function.Injective ids)
    (hrun : (Node.network ids clock).IsRun nodeParty events)
    (hfew : ∀ c, ids c = controllerNodeId →
      (commandsIn (own c ((Node.network ids clock).run nodeParty events).sent)).length < 65536)
    (i j : ι) :
    let net := (Node.network ids clock).run nodeParty events
    (net.node i).app.joint.lastSeq = (net.node j).app.joint.lastSeq →
    (net.node i).app.joint.targetMdeg = (net.node j).app.joint.targetMdeg := by
  intro net hseq
  have h : net.Holds (Member ids) := member_run hrun
  have hnumber {c : ι} (hc : ids c = controllerNodeId) {k : Nat}
      (hk : k < (commandsIn (own c net.sent)).length) :=
    (h c).numbered.toNat_sequence (hfew c hc) hk
  obtain ⟨-, hi, ei⟩ | ⟨cmd, hcmd, hi, ei⟩ := (h i).joint.latest <;>
    obtain ⟨-, hj, ej⟩ | ⟨cmd', hcmd', hj, ej⟩ := (h j).joint.latest
  · rw [ei, ej]
  · -- no command has the number of a joint that has had none
    obtain ⟨c, hc, k, hk, rfl⟩ := hcmd'.index
    have := hnumber hc hk
    rw [← hj, ← hseq, hi] at this
    cases this
  · obtain ⟨c, hc, k, hk, rfl⟩ := hcmd.index
    have := hnumber hc hk
    rw [← hi, hseq, hj] at this
    cases this
  · obtain ⟨c, hc, k, hk, rfl⟩ := hcmd.index
    obtain ⟨c', hc', k', hk', rfl⟩ := hcmd'.index
    obtain rfl := hids (hc.trans hc'.symm)
    have hk1 := hnumber hc hk
    have hk2 := hnumber hc hk'
    rw [← hi, hseq, hj, hk2] at hk1
    obtain rfl : k' = k := Nat.succ.inj hk1
    rw [ei, ej]

/-- Both joints have taken the first command. -/
theorem sequence_agreement_pair :
    (((Node.network pairIds fun _ => 0).run nodeParty (firstCommand ++ [(0, .control .ok)])).node
        0).app.joint.targetMdeg =
      (((Node.network pairIds fun _ => 0).run nodeParty
        (firstCommand ++ [(0, .control .ok)])).node 1).app.joint.targetMdeg := by
  have hrun : (Node.network pairIds fun _ => 0).IsRun nodeParty
      (firstCommand ++ [(0, .control .ok)]) :=
    (isRun_append _ _ _).mpr ⟨firstCommand_isRun, nofun, trivial⟩
  exact sequence_agreement pairIds_injective hrun (by decide +kernel) 0 1 (by decide +kernel)

end Rjs
