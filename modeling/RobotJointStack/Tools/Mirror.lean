import RobotJointStack.Lib.Struct

/-!
# Tools.Mirror

The Python mirror of the protocol (`rjs_protocol.py`): `decode`, in two steps. `unpackMessage`
checks a frame and takes its integers out of it, `Raw.decoded` names and scales them. A scaled field
is the fraction that Python divides out in floating point.
-/

namespace Rjs
namespace Mirror

def protocolVersion : UInt8 := 1

def msgEmergency : Nat := 0x0

def msgCommand : Nat := 0x1

def msgJointState : Nat := 0x2

def msgHeartbeat : Nat := 0x7

def nodeStates : List (Int × String) :=
  [(0, "BOOT"), (1, "PREOP"), (2, "OPERATIONAL"), (3, "FAULT")]

def modes : List (Int × String) := [(0, "DISABLED"), (1, "POSITION")]

def errorFlags : List (Nat × String) :=
  [(0x0001, "CAN_PASSIVE"), (0x0002, "CAN_BUS_OFF"), (0x0004, "TX_DROPPED"), (0x0008, "PEER_LOST"),
    (0x0010, "OVER_TEMP"), (0x0020, "LIMIT_REACHED")]

def splitId (canId : Nat) : Nat × Nat := ((canId >>> 7) &&& 0x0F, canId &&& 0x7F)

def flagsText (flags : Int) : String :=
  let names := (errorFlags.filter fun (bit, _) => flags.toNat &&& bit ≠ 0).map Prod.snd
  if names.isEmpty then "-" else "|".intercalate names

/-- `f"0x{x:04x}"`, with the width as an argument. -/
def hexText (width : Nat) (x : Nat) : String :=
  "0x" ++ String.ofList ((Nat.toDigits 16 x).leftpad width '0')

/-- The kinds of message that are decoded. -/
inductive Kind where
  | heartbeat
  | command
  | jointState
  | emergency
deriving DecidableEq, Repr

def Kind.name : Kind → String
  | heartbeat => "HEARTBEAT"
  | command => "COMMAND"
  | jointState => "JOINT_STATE"
  | emergency => "EMERGENCY"

/-- What `decode` raises: a `ValueError` of its own, or what `struct` raises on too little data. -/
inductive DecodeError where
  | version (canId : Nat)
  | tooShort (kind : Kind)
  | struct
deriving DecidableEq, Repr

def DecodeError.message : DecodeError → String
  | version canId => "id " ++ hexText 3 canId ++ ": bad or missing protocol version"
  | tooShort .heartbeat => "heartbeat too short"
  | tooShort .command => "command too short"
  | tooShort .jointState => "joint state too short"
  | tooShort .emergency => "emergency too short"
  | struct => "unpack_from requires a larger buffer"

/-- The integers of a message, as `struct.unpack_from` gives them. -/
inductive Raw where
  | heartbeat (state flags uptime major minor patch : Int)
  | command (mode target vmax seq : Int)
  | jointState (mode pos vel cur temp seq : Int)
  | emergency (code detail : Int)
deriving DecidableEq, Repr

def Raw.kind : Raw → Kind
  | heartbeat .. => .heartbeat
  | command .. => .command
  | jointState .. => .jointState
  | emergency .. => .emergency

/-- A value of a decoded field; `ratio x n` is `x / n`. -/
inductive Field where
  | text (s : String)
  | int (x : Int)
  | ratio (x : Int) (n : Nat)
deriving DecidableEq, Repr

structure Decoded where
  node : Nat
  kind : Kind
  fields : List (String × Field)
deriving DecidableEq, Repr

/-- `table.get(x, x)`. -/
def named (table : List (Int × String)) (x : Int) : Field :=
  match table.lookup x with
  | some name => .text name
  | none => .int x

def Raw.decoded (node : Nat) (raw : Raw) : Decoded where
  node := node
  kind := raw.kind
  fields :=
    match raw with
    | .heartbeat state flags uptime major minor patch =>
      [("state", named nodeStates state),
       ("errors", .text (flagsText flags)),
       ("uptime_s", .ratio uptime 1000),
       ("fw", .text (toString major ++ "." ++ toString minor ++ "." ++ toString patch))]
    | .command mode target vmax seq =>
      [("to", if node = 0 then .text "ALL" else .int node),
       ("mode", named modes mode),
       ("target_deg", .ratio target 1000),
       ("vmax_deg_s", .ratio vmax 1000),
       ("seq", .int seq)]
    | .jointState mode pos vel cur temp seq =>
      [("mode", named modes mode),
       ("pos_deg", .ratio pos 1000),
       ("vel_deg_s", .ratio vel 1000),
       ("current_ma", .int cur),
       ("temp_c", .ratio temp 10),
       ("seq", .int seq)]
    | .emergency code detail =>
      [("code", .text (hexText 4 code.toNat)), ("detail", .text (hexText 8 detail.toNat))]

/-- The node and the integers of a frame; nothing where its type is unknown. -/
def unpackMessage (canId : Nat) (data : List UInt8) : Except DecodeError (Option (Nat × Raw)) :=
  let (msgType, node) := splitId canId
  if data.length < 1 ∨ data.head? ≠ some protocolVersion then .error (.version canId)
  else if msgType = msgHeartbeat then
    if data.length < 12 then .error (.tooShort .heartbeat)
    else
      match Struct.unpackFrom [.u8, .u16, .u32, .u8, .u8, .u8] data 1 with
      | some [state, flags, uptime, major, minor, patch] =>
        .ok (some (node, .heartbeat state flags uptime major minor patch))
      | _ => .error .struct
  else if msgType = msgCommand then
    if data.length < 12 then .error (.tooShort .command)
    else
      match Struct.unpackFrom [.u8, .i32, .i32, .u16] data 1 with
      | some [mode, target, vmax, seq] => .ok (some (node, .command mode target vmax seq))
      | _ => .error .struct
  else if msgType = msgJointState then
    if data.length < 16 then .error (.tooShort .jointState)
    else
      match Struct.unpackFrom [.u8, .i32, .i32, .i16, .i16, .u16] data 1 with
      | some [mode, pos, vel, cur, temp, seq] =>
        .ok (some (node, .jointState mode pos vel cur temp seq))
      | _ => .error .struct
  else if msgType = msgEmergency then
    if data.length < 8 then .error (.tooShort .emergency)
    else
      match Struct.unpackFrom [.u16, .u32] data 2 with
      | some [code, detail] => .ok (some (node, .emergency code detail))
      | _ => .error .struct
  else .ok none

/-- `decode`. -/
def decode (canId : Nat) (data : List UInt8) : Except DecodeError (Option Decoded) :=
  (unpackMessage canId data).map (Option.map fun (node, raw) => raw.decoded node)

end Mirror
end Rjs
