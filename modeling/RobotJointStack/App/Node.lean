import RobotJointStack.Joint.Basic
import RobotJointStack.Lib.Fifo
import RobotJointStack.Monitor.Basic
import RobotJointStack.Protocol.Codec

/-!
# App.Node

The joint node of `app.c`: what `can_rx_task` does with a frame and what `control_task` does with
the commands it finds, on the state these tasks share. The UART log is the state the monitor's
callback works on, so it lives in the monitor.

Events are atomic, in any order. Between `handle_frame` and the joint lies the command queue.
-/

namespace Rjs

/-- The lines of `rjs_log` that handling a frame can write. -/
inductive LogLine where
  | joined (node fwMajor fwMinor fwPatch : UInt8)
  | lost (node : UInt8) (timeoutMs : UInt32)
  | rebooted (node : UInt8)
  | emergency (node : UInt8) (code : UInt16) (detail : UInt32)
deriving DecidableEq, Repr

def peerTimeoutMs : UInt32 := 350

def onMonitorEvent : MonitorCb (List LogLine) := fun ev peer log =>
  match ev with
  | .nodeJoined =>
    log ++ [.joined peer.node peer.last.fwMajor peer.last.fwMinor peer.last.fwPatch]
  | .nodeLost => log ++ [.lost peer.node peerTimeoutMs]
  | .nodeRebooted => log ++ [.rebooted peer.node]
  | .none => log

structure App where
  nodeId : UInt8
  joint : Joint
  cmdQueue : Fifo Command
  monitor : Monitor (List LogLine)
  rxDecodeErrors : UInt32

namespace App

/-- A started node: the joint of `control_task`, the monitor of `can_rx_task` and the queue between
them, `depth` commands deep. -/
def start (nodeId : UInt8) (depth : Nat) (cfg : JointConfig) : App where
  nodeId := nodeId
  joint := Joint.init cfg
  cmdQueue := Fifo.create depth
  monitor := Monitor.init peerTimeoutMs (some onMonitorEvent) []
  rxDecodeErrors := 0

def log (a : App) (line : LogLine) : App :=
  { a with monitor := { a.monitor with user := a.monitor.user ++ [line] } }

def decodeError (a : App) : App := { a with rxDecodeErrors := a.rxDecodeErrors + 1 }

/-- `handle_frame` at the time `board_millis()`. -/
def handleFrame (a : App) (f : CanFrame) (millis : UInt32) : App :=
  let node := idNode f.id
  if idType f.id = MsgType.heartbeat.code then
    match decodeHeartbeat (some f) (some default) with
    | (.ok, some hb) => { a with monitor := (a.monitor.onHeartbeat node (some hb) millis).2 }
    | _ => a.decodeError
  else if idType f.id = MsgType.command.code then
    -- a command is for this node or for all
    if node ≠ a.nodeId ∧ node ≠ nodeBroadcast then a
    else
      match decodeCommand (some f) (some default) with
      | (.ok, some cmd) => { a with cmdQueue := (a.cmdQueue.send cmd).2 }
      | _ => a.decodeError
  else if idType f.id = MsgType.emergency.code then
    match decodeEmergency (some f) (some default) with
    | (.ok, some em) => a.log (.emergency node em.code em.detail)
    | _ => a
  else a

/-- One turn of the loop in which `control_task` empties the queue. -/
def receiveCommand (a : App) : App :=
  match a.cmdQueue.receive with
  | some (cmd, q) => { a with joint := a.joint.command cmd, cmdQueue := q }
  | none => a

end App

inductive AppEvent where
  | frame (f : CanFrame) (millis : UInt32)
  | poll (millis : UInt32)
  | receive
  | lose (i : Nat)
  | step (dtMs : UInt32)

namespace App

def act (a : App) : AppEvent → App
  | .frame f millis => a.handleFrame f millis
  | .poll millis => { a with monitor := a.monitor.poll millis }
  | .receive => a.receiveCommand
  | .lose i => { a with cmdQueue := a.cmdQueue.lose i }
  | .step dtMs => { a with joint := a.joint.step dtMs }

def run (a : App) (events : List AppEvent) : App := events.foldl act a

end App

end Rjs
