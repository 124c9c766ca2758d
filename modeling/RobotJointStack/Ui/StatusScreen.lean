import RobotJointStack.Monitor.Basic
import RobotJointStack.Ui.TextScreen

/-!
# Ui.StatusScreen

The status screen of `ui.c`: what `render` makes of a view, as the calls of the text screen in
order, each print with the text its format gives. The view itself is whatever `app_get_view` has
filled it with. The negation of the least position is undefined in C; here it wraps.
-/

namespace Rjs

def viewPeers : Nat := 4

/-- `app_peer_view_t`. -/
structure PeerView where
  node : UInt8
  status : UInt8
  state : UInt8
  errorFlags : UInt16
deriving DecidableEq, Repr, Inhabited

/-- `app_view_t`. -/
structure AppView where
  nodeId : UInt8
  controller : Bool
  sweepEnabled : Bool
  uptimeMs : UInt32
  peerCount : UInt8
  peers : Vector PeerView viewPeers
  joint : JointState
  jointFlags : UInt16
  txFrames : UInt32
  rxFrames : UInt32
  txBusy : UInt32
  rxDropped : UInt32
  txErrorCount : UInt8
  rxErrorCount : UInt8
  busOff : Bool
  loopJitterMaxUs : UInt32

namespace StatusScreen

/-! ## Colours and texts -/

/-- `RJS_RGB`. -/
def rgb (r g b : UInt16) : UInt16 := ((r &&& 0xF8) <<< 8) ||| ((g &&& 0xFC) <<< 3) ||| (b >>> 3)

def black : UInt16 := rgb 0 0 0

def white : UInt16 := rgb 255 255 255

def grey : UInt16 := rgb 128 128 128

def red : UInt16 := rgb 255 40 40

def green : UInt16 := rgb 40 220 80

def yellow : UInt16 := rgb 255 200 0

def blue : UInt16 := rgb 60 140 255

/-- `BG`. -/
def bg : UInt16 := black

def ascii (text : String) : List UInt8 := text.toList.map fun c => UInt8.ofNat c.toNat

/-- `%u` and `%ld`. -/
def decimal (x : Int) : List UInt8 := ascii (toString x)

/-- `%-6s`: filled up with blanks on the right. -/
def padTo (width : Nat) (text : List UInt8) : List UInt8 :=
  text ++ List.replicate (width - text.length) blank

/-- `rjs_ts_print_line` at the left edge, of a text that `vsnprintf` has formatted. -/
def line (row : UInt8) (text : List UInt8) : ScreenOp := .printLine row 0 (some text)

/-! ## The parts of the screen -/

def stateName (state : UInt8) : List UInt8 :=
  if state = NodeState.boot.code then ascii "BOOT"
  else if state = NodeState.preop.code then ascii "PREOP"
  else if state = NodeState.operational.code then ascii "OPER"
  else if state = NodeState.fault.code then ascii "FAULT"
  else ascii "?"

def renderHeader (v : AppView) : List ScreenOp :=
  [.setColors blue bg,
   line 0 (ascii "ROBOT JOINT STACK    node " ++ decimal v.nodeId.toNat),
   .setColors grey bg,
   line 1 (ascii "CAN FD 1/2 Mbit   up " ++ decimal (v.uptimeMs / 1000).toNat ++ ascii "s")]

/-- -170..+170 degrees mapped to 0..1000 per mille. -/
def positionPermille (pos : Int32) : UInt16 :=
  let span : Int32 := 170000
  let clamped := if pos > span then span else if pos < -span then -span else pos
  ((clamped.toInt64 + span.toInt64) * 1000 / (2 * span).toInt64).toUInt64.toUInt16

def renderJoint (v : AppView) : List ScreenOp :=
  let pos := v.joint.positionMdeg
  let posAbs := (if pos < 0 then -pos else pos).toUInt32
  let moving := v.joint.mode = JointMode.position.code
  [.setColors white bg,
   line 3 (ascii "POSITION " ++ ascii (if pos < 0 then "-" else "") ++
     decimal (posAbs / 1000).toNat ++ ascii "." ++ decimal (posAbs % 1000 / 100).toNat ++
     ascii " deg"),
   .setColors (if moving then green else grey) bg,
   .bar 4 0 24 (positionPermille pos),
   .setColors white bg,
   line 5 (ascii "vel " ++ decimal (v.joint.velocityMdegS / 1000).toInt ++ ascii " deg/s  mode " ++
     ascii (if moving then "POS" else "OFF"))]

def renderPeer (v : AppView) (i : Fin viewPeers) : List ScreenOp :=
  let row := 8 + UInt8.ofNat i
  if UInt8.ofNat i ≥ v.peerCount then [.clearRow row]
  else
    let p := v.peers[i]
    let alive := p.status = PeerStatus.alive.code
    [.setColors (if alive then green else red) bg,
     line row (ascii " node " ++ padTo 3 (decimal p.node.toNat) ++ ascii " " ++
       padTo 6 (if alive then stateName p.state else ascii "LOST") ++ ascii " " ++
       ascii (if p.errorFlags ≠ 0 then "ERR" else ""))]

def renderPeers (v : AppView) : List ScreenOp :=
  [.setColors grey bg,
   line 7 (ascii "NODES ON BUS (" ++ decimal v.peerCount.toNat ++ ascii " alive)")] ++
  (List.finRange viewPeers).flatMap (renderPeer v)

def renderBus (v : AppView) : List ScreenOp :=
  [.setColors grey bg,
   line 13 (ascii "BUS"),
   .setColors white bg,
   line 14 (ascii " tx " ++ decimal v.txFrames.toNat ++ ascii "  rx " ++ decimal v.rxFrames.toNat),
   .setColors (if v.txErrorCount > 0 ∨ v.rxErrorCount > 0 then yellow else white) bg,
   line 15 (ascii " tec " ++ decimal v.txErrorCount.toNat ++ ascii "  rec " ++
     decimal v.rxErrorCount.toNat ++ ascii "  drop " ++ decimal (v.txBusy + v.rxDropped).toNat),
   .setColors white bg,
   line 16 (ascii " loop jitter " ++ decimal v.loopJitterMaxUs.toNat ++ ascii " us")]

def renderStatus (v : AppView) : List ScreenOp :=
  if v.busOff then [.setColors white red, line 18 (ascii " CAN BUS OFF - recovering ")]
  else if v.jointFlags &&& errPeerLost ≠ 0 then
    [.setColors black yellow, line 18 (ascii " COMMAND TIMEOUT - joint off ")]
  else if v.controller ∧ ¬v.sweepEnabled then
    [.setColors black yellow, line 18 (ascii " SWEEP STOPPED (button B1) ")]
  else [.setColors green bg, line 18 (ascii " RUNNING")]

def render (v : AppView) : List ScreenOp :=
  renderHeader v ++ renderJoint v ++ renderPeers v ++ renderBus v ++ renderStatus v

/-- One turn of the loop of `ui_task`. -/
def cycle (v : AppView) : List ScreenOp := render v ++ [.flush]

/-- The display as `ui_task` starts it, whatever the panel shows. -/
def start (panel : Panel) : Display := Display.start white bg panel

end StatusScreen

end Rjs
