import RobotJointStack.Board.Fdcan
import RobotJointStack.Protocol.RoundTrip

/-!
# Board.Fidelity

A message sent by one node arrives unchanged at another: encoder, send checks, bus, receive
interrupt and decoder together.
-/

namespace Rjs

namespace Message

def encode (node : UInt8) (msg : Message) (out : CanFrame) : ProtoResult × Option CanFrame :=
  match msg with
  | heartbeat hb => encodeHeartbeat node (some hb) (some out)
  | command cmd => encodeCommand node (some cmd) (some out)
  | jointState st => encodeJointState node (some st) (some out)
  | emergency em => encodeEmergency node (some em) (some out)

/-- The message's own decoder returns it, whatever its output object held. -/
def DecodedFrom (msg : Message) (g : CanFrame) : Prop :=
  match msg with
  | heartbeat hb => ∀ o, decodeHeartbeat (some g) (some o) = (.ok, some hb)
  | command cmd => ∀ o, decodeCommand (some g) (some o) = (.ok, some cmd)
  | jointState st => ∀ o, decodeJointState (some g) (some o) = (.ok, some st)
  | emergency em => ∀ o, decodeEmergency (some g) (some o) = (.ok, some em)

/-- The decoders of the other three types report the type. -/
def RefusedByOthers (type : MsgType) (g : CanFrame) : Prop :=
  (type ≠ .heartbeat → ∀ o, decodeHeartbeat (some g) (some o) = (.errType, some o)) ∧
  (type ≠ .command → ∀ o, decodeCommand (some g) (some o) = (.errType, some o)) ∧
  (type ≠ .jointState → ∀ o, decodeJointState (some g) (some o) = (.errType, some o)) ∧
  (type ≠ .emergency → ∀ o, decodeEmergency (some g) (some o) = (.errType, some o))

variable {node : UInt8} {msg : Message} {out f g : CanFrame}

theorem refusedByOthers {type : MsgType} (h : idType g.id = type.code) :
    RefusedByOthers type g := by
  have hne : ∀ t : MsgType, type ≠ t → idType g.id ≠ t.code := fun t ht hid =>
    ht (MsgType.code_inj.mp (h ▸ hid))
  exact ⟨fun ht _ => decode_errType (hne _ ht), fun ht _ => decode_errType (hne _ ht),
    fun ht _ => decode_errType (hne _ ht), fun ht _ => decode_errType (hne _ ht)⟩

/-- What every accepted encoding looks like from outside. -/
structure Encoded (node : UInt8) (msg : Message) (f : CanFrame) : Prop where
  id : f.id = makeId msg.type node
  node_le : node ≤ nodeIdMax
  size : FdSize f.len
  fd : f.fd

theorem encoded (h : msg.encode node out = (.ok, some f)) : Encoded node msg f := by
  cases msg with
  | heartbeat hb =>
    obtain ⟨hv, rfl⟩ := encode_eq_ok.mp h
    exact ⟨rfl, heartbeat_laws.node_le hv, (by decide : FdSize heartbeatLen), rfl⟩
  | command cmd =>
    obtain ⟨hv, rfl⟩ := encode_eq_ok.mp h
    exact ⟨rfl, command_laws.node_le hv, (by decide : FdSize commandLen), rfl⟩
  | jointState st =>
    obtain ⟨hv, rfl⟩ := encode_eq_ok.mp h
    exact ⟨rfl, jointState_laws.node_le hv, (by decide : FdSize jointStateLen), rfl⟩
  | emergency em =>
    obtain ⟨hv, rfl⟩ := encode_eq_ok.mp h
    exact ⟨rfl, emergency_laws.node_le hv, (by decide : FdSize emergencyLen), rfl⟩

theorem decodedFrom (h : msg.encode node out = (.ok, some f)) (hid : g.id = f.id)
    (hlen : g.len = f.len)
    (hdata : ∀ k (hk : k < canMaxPayload), k < f.len.toNat → g.data[k] = f.data[k]) :
    msg.DecodedFrom g := by
  cases msg with
  | heartbeat hb => exact decode_encode heartbeat_laws h hid hlen hdata
  | command cmd => exact decode_encode command_laws h hid hlen hdata
  | jointState st => exact decode_encode jointState_laws h hid hlen hdata
  | emergency em => exact decode_encode emergency_laws h hid hlen hdata

end Message

/-- **End-to-end message fidelity.** Every frame an encoder produces passes the checks of
`rjs_can_send`. Delivered over the bus into a receive buffer with arbitrary old contents, it is
decoded to the message that was encoded, under its type and node, and refused by the decoders of
the other types. -/
theorem message_fidelity {node : UInt8} {msg : Message} {out f : CanFrame}
    (h : msg.encode node out = (.ok, some f)) :
    (f.id ≤ 0x7FF ∧ fdDlcToLen (fdLenToDlc f.len) = f.len ∧
      ∀ hw s, (canSend hw s (some f)).1 ≠ .errParam) ∧
    ∀ m buf, Delivered (txHeader f) f.data m →
      (rxFrame m buf).id = f.id ∧
      (rxFrame m buf).len = fdDlcToLen (fdLenToDlc f.len) ∧
      msg.DecodedFrom (rxFrame m buf) ∧
      idType (rxFrame m buf).id = msg.type.code ∧
      idNode (rxFrame m buf).id = node ∧
      Message.RefusedByOthers msg.type (rxFrame m buf) := by
  obtain ⟨hid, hnode, hsize, hfd⟩ := Message.encoded h
  have hle : f.id ≤ 0x7FF := hid ▸ makeId_le _ _
  refine ⟨⟨hle, hsize.2.1, canSend_ne_errParam hle hsize hfd⟩, ?_⟩
  intro m buf hm
  have hgid : (rxFrame m buf).id = f.id := rxFrame_id hm
  have hglen : (rxFrame m buf).len = f.len := rxFrame_len hsize hm
  have htype : idType (rxFrame m buf).id = msg.type.code := by
    rw [hgid, hid]; exact idType_makeId _ _
  refine ⟨hgid, by rw [hglen, hsize.2.1], ?_, htype, ?_, Message.refusedByOthers htype⟩
  · exact Message.decodedFrom h hgid hglen (rxFrame_data hsize hm)
  · rw [hgid, hid]; exact idNode_makeId _ hnode

/-- A state with negative fields, received into a buffer full of old bytes. -/
theorem message_fidelity_jointState :
    let st : JointState := ⟨-170000, 123456, -250, -55, 42, 1⟩
    let f : CanFrame := ⟨makeId .jointState 9, jointStateLen, true, true,
      writeJointState st (frameStart .jointState 9 jointStateLen).data⟩
    decodeJointState (some (rxFrame ⟨⟨f.id.toUInt32, 10, true, true⟩, f.data⟩
      (Vector.replicate canMaxPayload 0xAA))) (some default) = (.ok, some st) := by
  intro st f
  have hencode : (Message.jointState st).encode 9 (frameStart .emergency 0 0) = (.ok, some f) := rfl
  have hdelivered : Delivered (txHeader f) f.data ⟨⟨f.id.toUInt32, 10, true, true⟩, f.data⟩ :=
    ⟨rfl, rfl, fun _ _ _ => rfl⟩
  exact ((message_fidelity hencode).2 _ _ hdelivered).2.2.1 default

end Rjs
