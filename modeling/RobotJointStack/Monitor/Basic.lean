import RobotJointStack.Lib.Table
import RobotJointStack.Protocol.Types

/-!
# Monitor.Basic

The node monitor of `node_monitor.c`. The table is the list of its first `count` entries. The
callback is a function on the caller's state (`user`), so a monitor is generic in that state; it
cannot reach the monitor itself.

A monitor here is never NULL; a heartbeat may be.
-/

namespace Rjs

/-- `rjs_peer_status_t`. -/
inductive PeerStatus where
  | unknown
  | alive
  | lost
deriving DecidableEq, Repr

def PeerStatus.code : PeerStatus → UInt8
  | unknown => 0
  | alive => 1
  | lost => 2

/-- `rjs_monitor_event_t`. -/
inductive MonitorEvent where
  | none
  | nodeJoined
  | nodeLost
  | nodeRebooted
deriving DecidableEq, Repr

/-- `rjs_peer_t`. -/
structure Peer where
  node : UInt8
  status : PeerStatus
  lastSeenMs : UInt32
  last : Heartbeat
  heartbeats : UInt32
deriving DecidableEq, Repr

def monitorMaxNodes : Nat := 16

/-- `rjs_monitor_cb_t`. -/
abbrev MonitorCb (σ : Type) := MonitorEvent → Peer → σ → σ

/-- `rjs_monitor_t`. -/
structure Monitor (σ : Type) where
  peers : List Peer
  timeoutMs : UInt32
  cb : Option (MonitorCb σ)
  user : σ

/-- A cleared table entry that has been given its node. -/
def Peer.new (node : UInt8) : Peer := ⟨node, .unknown, 0, ⟨0, 0, 0, 0, 0, 0⟩, 0⟩

namespace Monitor

variable {σ : Type}

def init (timeoutMs : UInt32) (cb : Option (MonitorCb σ)) (user : σ) : Monitor σ where
  peers := []
  timeoutMs := timeoutMs
  cb := cb
  user := user

def emit (m : Monitor σ) (ev : MonitorEvent) (p : Peer) : Monitor σ :=
  match m.cb with
  | some cb => { m with user := cb ev p m.user }
  | none => m

/-- The position of a node's entry: the pointer that `find_mut` returns. -/
def findMut (m : Monitor σ) (node : UInt8) : Option Nat := Table.index? Peer.node m.peers node

/-- The second half of `rjs_monitor_on_heartbeat`, on the entry at `i`. -/
def refresh (m : Monitor σ) (i : Nat) (hb : Heartbeat) (nowMs : UInt32) : Monitor σ :=
  match m.peers[i]? with
  | none => m
  | some p =>
    let before := p.status
    let rebooted := before = .alive ∧ hb.uptimeMs < p.last.uptimeMs
    let p := { p with last := hb
                      lastSeenMs := nowMs
                      status := .alive
                      heartbeats := p.heartbeats + 1 }
    let m := { m with peers := m.peers.set i p }
    if before ≠ .alive then m.emit .nodeJoined p
    else if rebooted then m.emit .nodeRebooted p
    else m

def onHeartbeat (m : Monitor σ) (node : UInt8) (hb : Option Heartbeat) (nowMs : UInt32) :
    Bool × Monitor σ :=
  match hb with
  | none => (false, m)
  | some hb =>
    if node = nodeBroadcast ∨ node > nodeIdMax then (false, m)
    else
      match m.findMut node with
      | some i => (true, m.refresh i hb nowMs)
      | none =>
        if m.peers.length ≥ monitorMaxNodes then (false, m)
        else
          let i := m.peers.length
          (true, { m with peers := m.peers ++ [Peer.new node] }.refresh i hb nowMs)

/-- The loop of `rjs_monitor_poll` over the entries that remain. -/
def pollPeers (timeoutMs : UInt32) (cb : Option (MonitorCb σ)) (nowMs : UInt32) :
    List Peer → σ → List Peer × σ
  | [], user => ([], user)
  | p :: ps, user =>
    if p.status = .alive ∧ nowMs - p.lastSeenMs > timeoutMs then
      let p := { p with status := .lost }
      let user := match cb with
        | some cb => cb .nodeLost p user
        | none => user
      let (ps, user) := pollPeers timeoutMs cb nowMs ps user
      (p :: ps, user)
    else
      let (ps, user) := pollPeers timeoutMs cb nowMs ps user
      (p :: ps, user)

def poll (m : Monitor σ) (nowMs : UInt32) : Monitor σ :=
  let (peers, user) := pollPeers m.timeoutMs m.cb nowMs m.peers m.user
  { m with peers := peers, user := user }

def find (m : Monitor σ) (node : UInt8) : Option Peer := Table.lookup Peer.node m.peers node

def aliveCount (m : Monitor σ) : UInt8 :=
  m.peers.foldl (fun n p => if p.status = .alive then n + 1 else n) 0

end Monitor

end Rjs
