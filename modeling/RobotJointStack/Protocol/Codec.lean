import RobotJointStack.Protocol.Types

/-!
# Protocol.Codec

Encoding and decoding of the four messages (`protocol.c`). A possibly null pointer argument is an
`Option`; the object an out-pointer refers to is passed in and returned, so "left untouched" is an
equation. The four encoders and the four decoders share `encode` and `decode`, and each is that
function applied to its own type, length, checks and payload layout.
-/

namespace Rjs

abbrev Payload := Vector UInt8 canMaxPayload

def heartbeatLen : UInt8 := 12

def commandLen : UInt8 := 12

def jointStateLen : UInt8 := 16

def emergencyLen : UInt8 := 8

/-! ## Little-endian helpers -/

def putU16 (p : Payload) (i : Nat) (h : i + 1 < canMaxPayload) (v : UInt16) : Payload :=
  (p.set i (v &&& 0xFF).toUInt8).set (i + 1) (v >>> 8).toUInt8

def putU32 (p : Payload) (i : Nat) (h : i + 3 < canMaxPayload) (v : UInt32) : Payload :=
  (((p.set i (v &&& 0xFF).toUInt8).set (i + 1) ((v >>> 8) &&& 0xFF).toUInt8).set (i + 2)
    ((v >>> 16) &&& 0xFF).toUInt8).set (i + 3) (v >>> 24).toUInt8

def getU16 (p : Payload) (i : Nat) (h : i + 1 < canMaxPayload) : UInt16 :=
  p[i].toUInt16 ||| (p[i + 1].toUInt16 <<< 8)

def getU32 (p : Payload) (i : Nat) (h : i + 3 < canMaxPayload) : UInt32 :=
  p[i].toUInt32 ||| (p[i + 1].toUInt32 <<< 8) ||| (p[i + 2].toUInt32 <<< 16) |||
    (p[i + 3].toUInt32 <<< 24)

/-! ## CAN FD length table -/

def kDlcToLen : List UInt8 := [0, 1, 2, 3, 4, 5, 6, 7, 8, 12, 16, 20, 24, 32, 48, 64]

def fdDlcToLen (dlc : UInt8) : UInt8 := kDlcToLen.getD dlc.toNat 0xFF

def fdLenToDlc (len : UInt8) : UInt8 :=
  match kDlcToLen.findIdx? (fun l => l == len) with
  | some dlc => UInt8.ofNat dlc
  | none => 0xFF

/-! ## Common frame handling -/

def frameStart (type : MsgType) (node len : UInt8) : CanFrame where
  id := makeId type node
  len := len
  fd := true
  brs := true
  data := (Vector.replicate canMaxPayload 0).set 0 protocolVersion

def frameCheck (inp : Option CanFrame) (type : MsgType) (minLen : UInt8) : ProtoResult :=
  match inp with
  | none => .errParam
  | some f =>
    if idType f.id ≠ type.code then .errType
    else if f.len < minLen ∨ f.len > UInt8.ofNat canMaxPayload then .errLength
    else if f.data[0] ≠ protocolVersion then .errVersion
    else .ok

def nodeValid (node : UInt8) : Bool := node ≥ 1 && node ≤ nodeIdMax

/-- The shape of every `rjs_encode_*`: refuse, or start a frame and write the fields. -/
def encode {α : Type} (type : MsgType) (len : UInt8) (valid : UInt8 → α → Bool)
    (write : α → Payload → Payload) (node : UInt8) (inp : Option α) (out : Option CanFrame) :
    ProtoResult × Option CanFrame :=
  match inp, out with
  | some msg, some _ =>
    if valid node msg then
      let f := frameStart type node len
      (.ok, some { f with data := write msg f.data })
    else (.errParam, out)
  | _, _ => (.errParam, out)

/-- The shape of every `rjs_decode_*`: check the frame, then read the message or refuse it. -/
def decode {α : Type} (type : MsgType) (len : UInt8) (read : Payload → Option α)
    (inp : Option CanFrame) (out : Option α) : ProtoResult × Option α :=
  match frameCheck inp type len, inp, out with
  | .ok, some f, some _ =>
    match read f.data with
    | some msg => (.ok, some msg)
    | none => (.errParam, out)
  | .ok, _, _ => (.errParam, out)
  | r, _, _ => (r, out)

/-! ## HEARTBEAT -/

def heartbeatValid (node : UInt8) (hb : Heartbeat) : Bool :=
  nodeValid node && hb.state ≤ NodeState.fault.code

def writeHeartbeat (hb : Heartbeat) (p : Payload) : Payload :=
  let p := p.set 1 hb.state
  let p := putU16 p 2 (by decide) hb.errorFlags
  let p := putU32 p 4 (by decide) hb.uptimeMs
  ((p.set 8 hb.fwMajor).set 9 hb.fwMinor).set 10 hb.fwPatch

def readHeartbeat (p : Payload) : Option Heartbeat :=
  some
    { state := p[1]
      errorFlags := getU16 p 2 (by decide)
      uptimeMs := getU32 p 4 (by decide)
      fwMajor := p[8]
      fwMinor := p[9]
      fwPatch := p[10] }

def encodeHeartbeat := encode .heartbeat heartbeatLen heartbeatValid writeHeartbeat

def decodeHeartbeat := decode .heartbeat heartbeatLen readHeartbeat

/-! ## COMMAND -/

def commandValid (targetNode : UInt8) (cmd : Command) : Bool :=
  targetNode ≤ nodeIdMax && cmd.mode ≤ JointMode.position.code &&
    !(cmd.mode == JointMode.position.code && cmd.maxVelocityMdegS ≤ 0)

def writeCommand (cmd : Command) (p : Payload) : Payload :=
  let p := p.set 1 cmd.mode
  let p := putU32 p 2 (by decide) cmd.targetMdeg.toUInt32
  let p := putU32 p 6 (by decide) cmd.maxVelocityMdegS.toUInt32
  putU16 p 10 (by decide) cmd.sequence

/-- Commands a joint must never execute are rejected, with `RJS_PROTO_ERR_PARAM`. -/
def readCommand (p : Payload) : Option Command :=
  let tmp : Command :=
    { mode := p[1]
      targetMdeg := (getU32 p 2 (by decide)).toInt32
      maxVelocityMdegS := (getU32 p 6 (by decide)).toInt32
      sequence := getU16 p 10 (by decide) }
  if tmp.mode > JointMode.position.code ∨
      (tmp.mode = JointMode.position.code ∧ tmp.maxVelocityMdegS ≤ 0) then none
  else some tmp

def encodeCommand := encode .command commandLen commandValid writeCommand

def decodeCommand := decode .command commandLen readCommand

/-! ## JOINT_STATE -/

def jointStateValid (node : UInt8) (_ : JointState) : Bool := nodeValid node

def writeJointState (st : JointState) (p : Payload) : Payload :=
  let p := p.set 1 st.mode
  let p := putU32 p 2 (by decide) st.positionMdeg.toUInt32
  let p := putU32 p 6 (by decide) st.velocityMdegS.toUInt32
  let p := putU16 p 10 (by decide) st.currentMa.toUInt16
  let p := putU16 p 12 (by decide) st.temperatureC10.toUInt16
  putU16 p 14 (by decide) st.lastCommandSeq

def readJointState (p : Payload) : Option JointState :=
  some
    { mode := p[1]
      positionMdeg := (getU32 p 2 (by decide)).toInt32
      velocityMdegS := (getU32 p 6 (by decide)).toInt32
      currentMa := (getU16 p 10 (by decide)).toInt16
      temperatureC10 := (getU16 p 12 (by decide)).toInt16
      lastCommandSeq := getU16 p 14 (by decide) }

def encodeJointState := encode .jointState jointStateLen jointStateValid writeJointState

def decodeJointState := decode .jointState jointStateLen readJointState

/-! ## EMERGENCY -/

def emergencyValid (node : UInt8) (_ : Emergency) : Bool := nodeValid node

def writeEmergency (em : Emergency) (p : Payload) : Payload :=
  let p := putU16 p 2 (by decide) em.code
  putU32 p 4 (by decide) em.detail

def readEmergency (p : Payload) : Option Emergency :=
  some
    { code := getU16 p 2 (by decide)
      detail := getU32 p 4 (by decide) }

def encodeEmergency := encode .emergency emergencyLen emergencyValid writeEmergency

def decodeEmergency := decode .emergency emergencyLen readEmergency

end Rjs
