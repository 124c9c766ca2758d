import RobotJointStack.App.Snapshot
import RobotJointStack.Board.Fidelity
import RobotJointStack.Joint.Reach
import RobotJointStack.Lib.Network

/-!
# App.Bus

Nodes on one bus. A node is the one of `App.Tasks`; here it also says which frames its events hand
to `can_send`. A frame that `rjs_can_send` takes may arrive at every other node, as the receive
interrupt puts it together, at any time, any number of times or never.

* `Tells.arrives`: a frame says the same wherever it arrives.
* `handleFrame_tells`: what `handle_frame` makes of it there.
-/

namespace Rjs

/-- A frame handed to `can_send`, with the result of `rjs_can_send`. -/
abbrev Transmission := CanFrame × CanResult

/-- A transmission as it may arrive: the bus delivers what `rjs_can_send` has taken, into a buffer
with any old contents. -/
def Transmission.Arrives (t : Transmission) (g : CanFrame) : Prop :=
  t.2 = .ok ∧ ∃ m buf, Delivered (txHeader t.1) t.1.data m ∧ g = rxFrame m buf

/-- The message of a frame that the bus delivers as it is. -/
def CanFrame.message (f : CanFrame) : RxMessage where
  header := ⟨f.id.toUInt32, (fdLenToDlc f.len).toUInt32, f.brs, f.fd⟩
  payload := f.data

theorem CanFrame.delivered_message (f : CanFrame) : Delivered (txHeader f) f.data f.message :=
  ⟨rfl, rfl, fun _ _ _ => rfl⟩

/-- The transmission of an encoded frame, if there is one. -/
def transmission (r : ProtoResult × Option CanFrame) (sent : CanResult) : List Transmission :=
  match r with
  | (.ok, some f) => [(f, sent)]
  | _ => []

namespace Node

/-- What an event hands to `can_send`. -/
def transmits (n : Node) : NodeEvent → List Transmission
  | .control sent =>
    let st := (n.app.drain.joint.step controlPeriodMs).getState
    if (n.ticks + 1) % jointStatePeriodMs = 0 then
      transmission (encodeJointState n.app.nodeId (some st) (some default)) sent
    else []
  | .heartbeat cs millis sent =>
    match n.comms.pc with
    | .holding js =>
      let hb := n.buildHeartbeat js cs millis
      transmission (encodeHeartbeat n.app.nodeId (some hb) (some default)) sent
    | _ => []
  | .command down millis flip sent =>
    match n.ownCommand? down millis flip with
    | some cmd => transmission (encodeCommand nodeBroadcast (some cmd) (some default)) sent
    | none => []
  | _ => []

/-! ## The frames a node sends -/

theorem drain_nodeId (a : App) : a.drain.nodeId = a.nodeId := (drain_joint a).2.2.2

theorem act_nodeId (n : Node) (ev : NodeEvent) : (n.act ev).app.nodeId = n.app.nodeId := by
  rw [act_app]
  cases ev with
  | frame f millis => exact (n.app.handleFrame_effect f millis).2.1
  | control sent => exact drain_nodeId n.app
  | _ => rfl

theorem mem_transmission {r : ProtoResult × Option CanFrame} {sent : CanResult} {t : Transmission} :
    t ∈ transmission r sent ↔ r = (.ok, some t.1) ∧ t.2 = sent := by
  obtain ⟨f, res⟩ := t
  unfold transmission
  split
  · rename_i g
    simp [eq_comm]
  · rename_i hno
    refine iff_of_false List.not_mem_nil fun h => ?_
    exact hno _ h.1

end Node

/-! ## What the frames say -/

/-- A command of the sweep. -/
structure IsSweep (cmd : Command) : Prop where
  mode : cmd.mode = JointMode.position.code
  target : cmd.targetMdeg = sweepAmplitudeMdeg ∨ cmd.targetMdeg = -sweepAmplitudeMdeg
  velocity : cmd.maxVelocityMdegS = sweepVelocityMdegS

/-- A joint inside the sweep. -/
structure InSweep (position velocity : Int32) : Prop where
  position : |position.toInt| ≤ sweepAmplitudeMdeg.toInt
  velocity : |velocity.toInt| ≤ sweepVelocityMdegS.toInt

/-- The frame `f` is one that the node `id` sends with the message: heartbeats and joint states are
its own, commands are for all and come from the controller. -/
def Tells (id : UInt8) (f : CanFrame) : Message → Prop
  | .heartbeat hb => encodeHeartbeat id (some hb) (some default) = (.ok, some f)
  | .jointState st => InSweep st.positionMdeg st.velocityMdegS ∧
      encodeJointState id (some st) (some default) = (.ok, some f)
  | .command cmd => id = controllerNodeId ∧ IsSweep cmd ∧
      encodeCommand nodeBroadcast (some cmd) (some default) = (.ok, some f)
  | .emergency _ => False

/-- The node in the identifier of a message from `id`. -/
def addressee (id : UInt8) : Message → UInt8
  | .command _ => nodeBroadcast
  | _ => id

def Message.command? : Message → Option Command
  | .command cmd => some cmd
  | _ => none

/-- What a message from `id` does to the application of another node. -/
def App.hear (a : App) (id : UInt8) (millis : UInt32) : Message → App
  | .heartbeat hb => { a with monitor := (a.monitor.onHeartbeat id (some hb) millis).2 }
  | .command cmd => { a with cmdQueue := (a.cmdQueue.send cmd).2 }
  | _ => a

section Tells

variable {id : UInt8} {f g : CanFrame} {msg : Message}

theorem Tells.encode (h : Tells id f msg) :
    msg.encode (addressee id msg) default = (.ok, some f) := by
  cases msg with
  | heartbeat hb => exact h
  | jointState st => exact h.2
  | command cmd => exact h.2.2
  | emergency em => exact h.elim

/-- The identifier of a frame says its type and whose it is. -/
theorem Tells.id_eq (h : Tells id f msg) :
    idType f.id = msg.type.code ∧ idNode f.id = addressee id msg := by
  obtain ⟨hid, hnode, -, -⟩ := Message.encoded h.encode
  rw [hid]
  exact ⟨idType_makeId _ _, idNode_makeId _ hnode⟩

theorem Tells.decoded (h : Tells id f msg) : msg.DecodedFrom f :=
  Message.decodedFrom h.encode rfl rfl fun _ _ _ => rfl

/-- A frame that arrives is decoded to the message that was sent. -/
theorem Tells.arrives (h : Tells id f msg) {sent : CanResult}
    (harr : Transmission.Arrives (f, sent) g) : g.id = f.id ∧ msg.DecodedFrom g := by
  obtain ⟨-, m, buf, hm, rfl⟩ := harr
  have hsize := (Message.encoded h.encode).size
  exact ⟨rxFrame_id hm, Message.decodedFrom h.encode (rxFrame_id hm) (rxFrame_len hsize hm)
    (rxFrame_data hsize hm)⟩

/-- The command a frame carries, whoever it is for. -/
theorem acceptedCommand_tells (h : Tells id f msg) (hid : g.id = f.id) (hmsg : msg.DecodedFrom g)
    (nodeId : UInt8) :
    acceptedCommand nodeId g = msg.command? := by
  obtain ⟨htype, hnode⟩ := h.id_eq
  rw [acceptedCommand, hid, htype, hnode]
  cases msg with
  | command cmd =>
    rw [if_pos ⟨rfl, .inr rfl⟩, hmsg default]
    rfl
  | heartbeat hb => simp [Message.type, Message.command?, MsgType.code_inj]
  | jointState st => simp [Message.type, Message.command?, MsgType.code_inj]
  | emergency em => exact h.elim

/-- What `handle_frame` makes of a frame that another node has sent. -/
theorem handleFrame_tells (h : Tells id f msg) (hid : g.id = f.id) (hmsg : msg.DecodedFrom g)
    (a : App) (millis : UInt32) : a.handleFrame g millis = a.hear id millis msg := by
  obtain ⟨htype, hnode⟩ := h.id_eq
  unfold App.handleFrame
  rw [hid, htype, hnode]
  cases msg with
  | heartbeat hb => rw [hmsg default]; rfl
  | command cmd =>
    rw [hmsg default]
    simp only [addressee, Message.type, ne_eq, not_true_eq_false, and_false, if_false,
      MsgType.code_inj, reduceCtorEq, if_true]
    rfl
  | jointState st => simp only [Message.type, MsgType.code_inj, reduceCtorEq, if_false]; rfl
  | emergency em => exact h.elim

end Tells

end Rjs
