import RobotJointStack.App.Node

/-!
# App.Tasks

The tasks of a node on the state they share (`app.c`): `can_rx_task` and `control_task` as in
`App.Node`, with what the control task publishes, and `comms_task`, which builds heartbeats from
that and is, on the controller, a second producer of commands.

Each critical section and each queue operation is atomic. An iteration of `control_task`, the task
of the highest priority, is one event, as is handling a frame; `comms_task` can be interrupted
between its two critical sections, and its program counter says where it is. An event of a task
that is elsewhere changes nothing.
-/

namespace Rjs

deriving instance Inhabited for CanFrame

def controllerNodeId : UInt8 := 1

def controlPeriodMs : UInt32 := 1

def jointStatePeriodMs : UInt32 := 10

def cmdQueueDepth : Nat := 4

def sweepHalfPeriodMs : UInt32 := 3000

def sweepAmplitudeMdeg : Int32 := 90000

def sweepVelocityMdegS : Int32 := 90000

def fwMajor : UInt8 := 0

def fwMinor : UInt8 := 1

def fwPatch : UInt8 := 0

def errCanPassive : UInt16 := 0x0001

def errCanBusOff : UInt16 := 0x0002

def errTxDropped : UInt16 := 0x0004

/-- The joint configuration of `control_task`. -/
def controlConfig : JointConfig where
  minMdeg := -170000
  maxMdeg := 170000
  accelMdegS2 := 360000
  commandTimeoutMs := 500

/-- What `comms_task` reads of `rjs_can_status_t`. -/
structure CanStatus where
  errorPassive : Bool
  busOff : Bool
deriving DecidableEq, Repr

/-- Where `comms_task` is: waiting for its next cycle, holding a snapshot of the joint, or done with
the heartbeat. -/
inductive CommsPc where
  | idle
  | holding (js : JointState)
  | reported
deriving DecidableEq, Repr

/-- The locals of `comms_task`. -/
structure Comms where
  pc : CommsPc
  seq : UInt16
  target : Int32
  lastFlip : UInt32
  buttonWasDown : Bool
deriving DecidableEq, Repr

/-- A node: its queue, joint and monitor, and the statics that its tasks share. -/
structure Node where
  app : App
  ticks : UInt32
  jointSnapshot : JointState
  jointFlags : UInt16
  sweepEnabled : Bool
  txBusy : UInt32
  comms : Comms

inductive NodeEvent where
  | frame (f : CanFrame) (millis : UInt32)
  | poll (millis : UInt32)
  | control (sent : CanResult)
  | readSnapshot
  | heartbeat (cs : CanStatus) (millis : UInt32) (sent : CanResult)
  | command (down : Bool) (millis flip : UInt32) (sent : CanResult)

/-- An iteration of `control_task`. -/
def NodeEvent.isControl : NodeEvent → Bool
  | .control _ => true
  | _ => false

namespace App

/-- The loop in which `control_task` empties the command queue. -/
def drain (a : App) : App :=
  match _h : a.cmdQueue.receive with
  | some (cmd, q) => drain { a with joint := a.joint.command cmd, cmdQueue := q }
  | none => a
termination_by a.cmdQueue.items.length
decreasing_by
  rw [Fifo.items_of_receive _h]
  exact Nat.lt_succ_self _

end App

namespace Node

def start (nodeId : UInt8) (millis : UInt32) : Node where
  app := App.start nodeId cmdQueueDepth controlConfig
  ticks := 0
  jointSnapshot := ⟨0, 0, 0, 0, 0, 0⟩
  jointFlags := 0
  sweepEnabled := true
  txBusy := 0
  comms := ⟨.idle, 0, sweepAmplitudeMdeg, millis, false⟩

/-- `can_send`, with the result of `rjs_can_send`. -/
def canSend (n : Node) (sent : CanResult) : Node :=
  if sent = .ok then n else { n with txBusy := n.txBusy + 1 }

section CanSend

variable (n : Node) (sent : CanResult)

@[simp] theorem canSend_app : (n.canSend sent).app = n.app := by
  unfold canSend; split <;> rfl

@[simp] theorem canSend_jointSnapshot : (n.canSend sent).jointSnapshot = n.jointSnapshot := by
  unfold canSend; split <;> rfl

@[simp] theorem canSend_jointFlags : (n.canSend sent).jointFlags = n.jointFlags := by
  unfold canSend; split <;> rfl

@[simp] theorem canSend_comms : (n.canSend sent).comms = n.comms := by
  unfold canSend; split <;> rfl

end CanSend

/-- One iteration of `control_task`. -/
def control (n : Node) (sent : CanResult) : Node :=
  let a := n.app.drain
  let joint := a.joint.step controlPeriodMs
  let st := joint.getState
  let n := { n with app := { a with joint := joint }
                    jointSnapshot := st
                    jointFlags := joint.errorFlags
                    ticks := n.ticks + 1 }
  if n.ticks % jointStatePeriodMs = 0 then
    match encodeJointState n.app.nodeId (some st) (some default) with
    | (.ok, _) => n.canSend sent
    | _ => n
  else n

def heartbeatFlags (n : Node) (cs : CanStatus) : UInt16 :=
  let flags := n.jointFlags
  let flags := if cs.errorPassive then flags ||| errCanPassive else flags
  let flags := if cs.busOff then flags ||| errCanBusOff else flags
  if n.txBusy ≠ 0 then flags ||| errTxDropped else flags

/-- The heartbeat of a `comms_task` that holds the snapshot `js`. -/
def buildHeartbeat (n : Node) (js : JointState) (cs : CanStatus) (millis : UInt32) : Heartbeat :=
  let flags := n.heartbeatFlags cs
  { state :=
      if flags &&& errCanBusOff ≠ 0 then NodeState.fault.code
      else if js.mode = JointMode.position.code then NodeState.operational.code
      else NodeState.preop.code
    errorFlags := flags
    uptimeMs := millis
    fwMajor := fwMajor
    fwMinor := fwMinor
    fwPatch := fwPatch }

/-- The heartbeat an event builds. -/
def heartbeat? (n : Node) : NodeEvent → Option Heartbeat
  | .heartbeat cs millis _ =>
    match n.comms.pc with
    | .holding js => some (n.buildHeartbeat js cs millis)
    | _ => none
  | _ => none

def sendHeartbeat (n : Node) (js : JointState) (cs : CanStatus) (millis : UInt32)
    (sent : CanResult) : Node :=
  let n := match encodeHeartbeat n.app.nodeId (some (n.buildHeartbeat js cs millis))
      (some default) with
    | (.ok, _) => n.canSend sent
    | _ => n
  let pc := if n.app.nodeId = controllerNodeId then .reported else .idle
  { n with comms := { n.comms with pc := pc } }

/-- The user button toggles the sweep. -/
def button (n : Node) (down : Bool) : Node :=
  let sweep := if down && !n.comms.buttonWasDown then !n.sweepEnabled else n.sweepEnabled
  { n with sweepEnabled := sweep, comms := { n.comms with buttonWasDown := down } }

/-- The turn of the sweep at `millis`, which the task remembers as `flip`. -/
def sweep (n : Node) (millis flip : UInt32) : Node :=
  if millis - n.comms.lastFlip ≥ sweepHalfPeriodMs then
    { n with comms := { n.comms with lastFlip := flip, target := -n.comms.target } }
  else n

section Sweep

variable (n : Node) (down : Bool) (millis flip : UInt32)

@[simp] theorem button_app : (n.button down).app = n.app := rfl

@[simp] theorem button_jointSnapshot : (n.button down).jointSnapshot = n.jointSnapshot := rfl

@[simp] theorem button_jointFlags : (n.button down).jointFlags = n.jointFlags := rfl

@[simp] theorem button_pc : (n.button down).comms.pc = n.comms.pc := rfl

@[simp] theorem sweep_app : (n.sweep millis flip).app = n.app := by
  unfold sweep; split <;> rfl

@[simp] theorem sweep_jointSnapshot : (n.sweep millis flip).jointSnapshot = n.jointSnapshot := by
  unfold sweep; split <;> rfl

@[simp] theorem sweep_jointFlags : (n.sweep millis flip).jointFlags = n.jointFlags := by
  unfold sweep; split <;> rfl

@[simp] theorem sweep_pc : (n.sweep millis flip).comms.pc = n.comms.pc := by
  unfold sweep; split <;> rfl

end Sweep

/-- The next command of the controller. -/
def nextCommand (n : Node) : Command where
  mode := JointMode.position.code
  targetMdeg := n.comms.target
  maxVelocityMdegS := sweepVelocityMdegS
  sequence := n.comms.seq + 1

/-- The part of `comms_task` that only the controller gets to. -/
def controllerCommand (n : Node) (down : Bool) (millis flip : UInt32) (sent : CanResult) : Node :=
  let n := { n with comms := { n.comms with pc := .idle } }.button down
  if n.sweepEnabled then
    let n := n.sweep millis flip
    let cmd := n.nextCommand
    let n := { n with comms := { n.comms with seq := cmd.sequence } }
    match encodeCommand nodeBroadcast (some cmd) (some default) with
    | (.ok, _) =>
      let n := n.canSend sent
      -- the controller is also a joint
      { n with app := { n.app with cmdQueue := (n.app.cmdQueue.send cmd).2 } }
    | _ => n
  else n

def act (n : Node) : NodeEvent → Node
  | .frame f millis => { n with app := n.app.handleFrame f millis }
  | .poll millis => { n with app := n.app.act (.poll millis) }
  | .control sent => n.control sent
  | .readSnapshot =>
    match n.comms.pc with
    | .idle => { n with comms := { n.comms with pc := .holding n.jointSnapshot } }
    | _ => n
  | .heartbeat cs millis sent =>
    match n.comms.pc with
    | .holding js => n.sendHeartbeat js cs millis sent
    | _ => n
  | .command down millis flip sent =>
    match n.comms.pc with
    | .reported => n.controllerCommand down millis flip sent
    | _ => n

def run (n : Node) (events : List NodeEvent) : Node := events.foldl act n

end Node

end Rjs
