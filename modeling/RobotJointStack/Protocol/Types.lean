/-!
# Protocol.Types

The data model shared by every node: the CAN FD frame of the hardware interface (`hal_can.h`) and
the messages, result codes, identifier helpers and constants of the protocol (`protocol.h`).
Structure fields have the C field's width; C enumerations are inductive types, and where the C
code stores one in a `uint8_t` or compares it with an arbitrary number, `code` gives its value.
-/

namespace Rjs

/-! ## CAN frame -/

/-- `RJS_CAN_MAX_PAYLOAD`. -/
abbrev canMaxPayload : Nat := 64

/-- `rjs_can_frame_t`. -/
structure CanFrame where
  id : UInt16
  len : UInt8
  fd : Bool
  brs : Bool
  data : Vector UInt8 canMaxPayload
deriving DecidableEq, Repr

/-- `rjs_can_result_t`. -/
inductive CanResult where
  | ok
  | errParam
  | errBusy
  | errHw
deriving DecidableEq, Repr

/-! ## Protocol constants and messages -/

def protocolVersion : UInt8 := 1

def nodeBroadcast : UInt8 := 0

def nodeIdMax : UInt8 := 127

/-- `rjs_msg_type_t`, ordered by bus priority. -/
inductive MsgType where
  | emergency
  | command
  | jointState
  | sensor
  | heartbeat
deriving DecidableEq, Repr

def MsgType.code : MsgType → UInt16
  | emergency => 0x0
  | command => 0x1
  | jointState => 0x2
  | sensor => 0x3
  | heartbeat => 0x7

/-- `rjs_proto_result_t`. -/
inductive ProtoResult where
  | ok
  | errParam
  | errLength
  | errVersion
  | errType
deriving DecidableEq, Repr

/-- `rjs_node_state_t`. -/
inductive NodeState where
  | boot
  | preop
  | operational
  | fault
deriving DecidableEq, Repr

def NodeState.code : NodeState → UInt8
  | boot => 0
  | preop => 1
  | operational => 2
  | fault => 3

def errPeerLost : UInt16 := 0x0008

def errLimitReached : UInt16 := 0x0020

/-- `rjs_heartbeat_t`. -/
structure Heartbeat where
  state : UInt8
  errorFlags : UInt16
  uptimeMs : UInt32
  fwMajor : UInt8
  fwMinor : UInt8
  fwPatch : UInt8
deriving DecidableEq, Repr, Inhabited

/-- `rjs_joint_mode_t`. -/
inductive JointMode where
  | disabled
  | position
deriving DecidableEq, Repr

def JointMode.code : JointMode → UInt8
  | disabled => 0
  | position => 1

/-- `rjs_command_t`. -/
structure Command where
  mode : UInt8
  targetMdeg : Int32
  maxVelocityMdegS : Int32
  sequence : UInt16
deriving DecidableEq, Repr, Inhabited

/-- `rjs_joint_state_t`. -/
structure JointState where
  positionMdeg : Int32
  velocityMdegS : Int32
  currentMa : Int16
  temperatureC10 : Int16
  lastCommandSeq : UInt16
  mode : UInt8
deriving DecidableEq, Repr, Inhabited

/-- `rjs_emergency_t`. -/
structure Emergency where
  code : UInt16
  detail : UInt32
deriving DecidableEq, Repr, Inhabited

/-- The messages that have an encoder and a decoder. -/
inductive Message where
  | heartbeat (hb : Heartbeat)
  | command (cmd : Command)
  | jointState (st : JointState)
  | emergency (em : Emergency)
deriving DecidableEq, Repr

def Message.type : Message → MsgType
  | heartbeat _ => .heartbeat
  | command _ => .command
  | jointState _ => .jointState
  | emergency _ => .emergency

/-! ## Identifier helpers -/

def makeId (type : MsgType) (node : UInt8) : UInt16 :=
  ((type.code &&& 0x0F) <<< 7) ||| (node.toUInt16 &&& 0x7F)

/-- The type field of an identifier: any of 16 values, five of which are a `MsgType`. -/
def idType (id : UInt16) : UInt16 := (id >>> 7) &&& 0x0F

def idNode (id : UInt16) : UInt8 := (id &&& 0x7F).toUInt8

end Rjs
