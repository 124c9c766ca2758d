import RobotJointStack.App.Envelope
import RobotJointStack.Lib.History
import RobotJointStack.Monitor.Callback

/-!
# App.Isolation

What of the bus traffic can reach the joint, and what can reach the monitor. A node sees the bus
through two keyholes: the joint only through the commands that `handle_frame` accepts, the monitor
only through the heartbeats that it decodes.

* `control_run`: the queue and the joint are a function of the accepted commands and of what the
  control task does.
* `monitor_run`: the node's monitor is the monitor run on the decoded heartbeats and the polls.
* `traffic_isolated`: so other frames affect neither.
-/

namespace Rjs

/-- The heartbeat `handle_frame` takes out of a frame. -/
def acceptedHeartbeat (f : CanFrame) : Option Heartbeat :=
  if idType f.id = MsgType.heartbeat.code then
    match decodeHeartbeat (some f) (some default) with
    | (.ok, hb) => hb
    | _ => none
  else none

/-! ## The joint's keyhole -/

inductive ControlEvent where
  | command (cmd : Command)
  | receive
  | lose (i : Nat)
  | step (dtMs : UInt32)
deriving DecidableEq

/-- What an event is to the queue and the joint of the node `nodeId`. -/
def controlEvent? (nodeId : UInt8) : AppEvent → Option ControlEvent
  | .frame f _ => (acceptedCommand nodeId f).map .command
  | .poll _ => none
  | .receive => some .receive
  | .lose i => some (.lose i)
  | .step dtMs => some (.step dtMs)

def controlEvents (nodeId : UInt8) (events : List AppEvent) : List ControlEvent :=
  events.filterMap (controlEvent? nodeId)

/-- The command queue and the joint by themselves. -/
structure Control where
  cmdQueue : Fifo Command
  joint : Joint

def Control.act (c : Control) : ControlEvent → Control
  | .command cmd => { c with cmdQueue := (c.cmdQueue.send cmd).2 }
  | .receive =>
    match c.cmdQueue.receive with
    | some (cmd, q) => ⟨q, c.joint.command cmd⟩
    | none => c
  | .lose i => { c with cmdQueue := c.cmdQueue.lose i }
  | .step dtMs => { c with joint := c.joint.step dtMs }

/-! ## The monitor's keyhole -/

/-- What an event is to the monitor. -/
def monitorOp? : AppEvent → Option Monitor.MonitorOp
  | .frame f millis =>
    (acceptedHeartbeat f).map fun hb => .heartbeat (idNode f.id) hb millis.toNat
  | .poll millis => some (.poll millis.toNat)
  | _ => none

def monitorOps (events : List AppEvent) : List Monitor.MonitorOp := events.filterMap monitorOp?

/-- The log without the emergencies, which are none of the monitor's business. -/
def peerLines (log : List LogLine) : List LogLine :=
  log.filter fun line => match line with
    | .emergency _ _ _ => false
    | _ => true

theorem peerLines_onMonitorEvent (ev : MonitorEvent) (p : Peer) (log : List LogLine) :
    peerLines (onMonitorEvent ev p log) = onMonitorEvent ev p (peerLines log) := by
  cases ev <;> simp [onMonitorEvent, peerLines]

namespace App

section Control

variable (a : App)

def control : Control := ⟨a.cmdQueue, a.joint⟩

/-- One event moves the queue and the joint as they move by themselves, if it is theirs at all. -/
theorem control_act (ev : AppEvent) :
    (a.act ev).control = (controlEvent? a.nodeId ev).toList.foldl Control.act a.control := by
  cases ev with
  | frame f millis =>
    obtain ⟨hjoint, -, hqueue⟩ := a.handleFrame_effect f millis
    rw [act, control, hjoint, hqueue, controlEvent?]
    cases acceptedCommand a.nodeId f <;> rfl
  | receive =>
    cases h : a.cmdQueue.receive <;>
      simp [act, receiveCommand, control, controlEvent?, Control.act, h]
  | _ => rfl

theorem control_run (events : List AppEvent) :
    (a.run events).control = (controlEvents a.nodeId events).foldl Control.act a.control := by
  induction events generalizing a with
  | nil => rfl
  | cons ev events ih =>
    have hsplit : controlEvents a.nodeId (ev :: events) =
        (controlEvent? a.nodeId ev).toList ++ controlEvents a.nodeId events := by
      cases h : controlEvent? a.nodeId ev <;> simp [controlEvents, h]
    rw [hsplit, List.foldl_append, ← control_act, ← act_nodeId a ev, ← ih]; rfl

end Control

section Monitor

variable {a : App}

/-- The node's monitor goes along with a recording monitor. -/
def Monitors (a : App) (m : Monitor Monitor.Trace) : Prop :=
  Monitor.Alike (fun log trace => peerLines log = Monitor.told (some onMonitorEvent) [] trace)
    a.monitor m

theorem monitors_start (nodeId : UInt8) (depth : Nat) (cfg : JointConfig) :
    (start nodeId depth cfg).Monitors (Monitor.run peerTimeoutMs []) := by
  refine ⟨rfl, rfl, fun ev p log trace h => ?_, rfl⟩
  cases ev with
  | none => exact h
  | some ev =>
    have hlines := peerLines_onMonitorEvent ev p log
    rw [h] at hlines
    simpa [Monitor.run, Monitor.init, start, Monitor.notify, Monitor.record, Monitor.told]
      using hlines

theorem monitors_log {m : Monitor Monitor.Trace} (h : a.Monitors m) (node : UInt8) (code : UInt16)
    (detail : UInt32) : (a.log (.emergency node code detail)).Monitors m := by
  refine ⟨h.peers, h.timeoutMs, h.keeps, ?_⟩
  have huser := h.user
  simpa [log, peerLines] using huser

theorem monitors_frame {m : Monitor Monitor.Trace} (h : a.Monitors m) (f : CanFrame)
    (millis : UInt32) :
    (a.handleFrame f millis).Monitors
      ((monitorOp? (.frame f millis)).toList.foldl Monitor.act m) := by
  unfold handleFrame
  rw [monitorOp?, acceptedHeartbeat]
  dsimp only
  by_cases hbeat : idType f.id = MsgType.heartbeat.code
  · rw [if_pos hbeat, if_pos hbeat]
    rcases decodeHeartbeat (some f) (some default) with ⟨r, hb⟩
    cases r with
    | ok =>
      cases hb with
      | none => exact h
      | some hb =>
        have hwrap : WrapClock.wrap millis.toNat = millis := by simp [WrapClock.wrap]
        have hbeats := (Monitor.alike_onHeartbeat h (idNode f.id) hb millis).2
        simpa [Monitor.act, hwrap, Monitors] using hbeats
    | _ => exact h
  · rw [if_neg hbeat, if_neg hbeat]
    split
    · split
      · exact h
      · split <;> exact h
    · split
      · split
        · exact monitors_log h _ _ _
        · exact h
      · exact h

theorem monitors_act {m : Monitor Monitor.Trace} (h : a.Monitors m) (ev : AppEvent) :
    (a.act ev).Monitors ((monitorOp? ev).toList.foldl Monitor.act m) := by
  cases ev with
  | frame f millis => exact monitors_frame h f millis
  | poll millis =>
    have hwrap : WrapClock.wrap millis.toNat = millis := by simp [WrapClock.wrap]
    have hpoll := Monitor.alike_poll h millis
    simpa [act, monitorOp?, Monitor.act, hwrap, Monitors] using hpoll
  | receive => unfold act receiveCommand; dsimp only; split <;> exact h
  | lose i => exact h
  | step dtMs => exact h

/-- The monitor of a node is the monitor of the heartbeats it decodes and its polls; its lines in
the log are what that one reports. -/
theorem monitor_run (nodeId : UInt8) (depth : Nat) (cfg : JointConfig) (events : List AppEvent) :
    ((start nodeId depth cfg).run events).Monitors
      (Monitor.run peerTimeoutMs (monitorOps events)) := by
  induction events using List.reverseRecOn with
  | nil => exact monitors_start nodeId depth cfg
  | append_singleton events ev ih =>
    have hops : Monitor.run peerTimeoutMs (monitorOps (events ++ [ev])) =
        (monitorOp? ev).toList.foldl Monitor.act (Monitor.run peerTimeoutMs (monitorOps events)) := by
      rw [monitorOps, List.filterMap_append, Monitor.run, List.foldl_append]
      cases h : monitorOp? ev <;> simp [h, Monitor.run, monitorOps]
    rw [run, List.foldl_append, ← run, hops]
    exact monitors_act ih ev

end Monitor

/-- **Only its own traffic reaches a node.** Take any two sequences of frames, polls, steps and
queue operations. If they agree in the accepted commands and in what the control task does, then
wherever both have got equally far in these, the queue and the joint are the same. If they agree in
the decoded heartbeats, their times and the polls, the same holds of the peers and of what is
logged about them. -/
theorem traffic_isolated (nodeId : UInt8) (depth : Nat) (cfg : JointConfig)
    (events events' : List AppEvent) :
    (controlEvents nodeId events = controlEvents nodeId events' → ∀ before, before <+: events →
      (∃ before', before' <+: events' ∧
        controlEvents nodeId before = controlEvents nodeId before') ∧
      ∀ before', before' <+: events' →
        (controlEvents nodeId before).length = (controlEvents nodeId before').length →
        ((start nodeId depth cfg).run before).cmdQueue =
            ((start nodeId depth cfg).run before').cmdQueue ∧
          ((start nodeId depth cfg).run before).joint =
            ((start nodeId depth cfg).run before').joint) ∧
    (monitorOps events = monitorOps events' → ∀ before, before <+: events →
      (∃ before', before' <+: events' ∧ monitorOps before = monitorOps before') ∧
      ∀ before', before' <+: events' → (monitorOps before).length = (monitorOps before').length →
        ((start nodeId depth cfg).run before).monitor.peers =
            ((start nodeId depth cfg).run before').monitor.peers ∧
          peerLines ((start nodeId depth cfg).run before).monitor.user =
            peerLines ((start nodeId depth cfg).run before').monitor.user) := by
  constructor
  · intro h before hb
    refine ⟨History.exists_prefix_filterMap h hb, fun before' hb' hlen => ?_⟩
    have hsame : controlEvents nodeId before = controlEvents nodeId before' :=
      History.prefix_filterMap_eq h hb hb' hlen
    have hcontrol : ((start nodeId depth cfg).run before).control =
        ((start nodeId depth cfg).run before').control := by
      rw [control_run, control_run]
      show (controlEvents nodeId before).foldl _ _ = (controlEvents nodeId before').foldl _ _
      rw [hsame]
    exact ⟨congrArg Control.cmdQueue hcontrol, congrArg Control.joint hcontrol⟩
  · intro h before hb
    refine ⟨History.exists_prefix_filterMap h hb, fun before' hb' hlen => ?_⟩
    have hsame : monitorOps before = monitorOps before' :=
      History.prefix_filterMap_eq h hb hb' hlen
    have hrun := monitor_run nodeId depth cfg before
    have hrun' := monitor_run nodeId depth cfg before'
    rw [← hsame] at hrun'
    exact ⟨hrun.peers.trans hrun'.peers.symm, hrun.user.trans hrun'.user.symm⟩

end App
end Rjs
