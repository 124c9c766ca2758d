import RobotJointStack.App.Isolation
import RobotJointStack.App.Newest
import RobotJointStack.Monitor.LifeCycle
import RobotJointStack.Ui.StatusScreen

/-!
# App.View

What the display is told of the peers. An iteration of `can_rx_task` ends with a snapshot of the
first four entries of the peer table, alive or not, and `app_get_view` hands the snapshot on; the
number of live peers, which the task also knows, goes elsewhere.

* `toNat_peerCount`: what `peer_count` counts.
* `showsAlive_iff`: when that is the number of live peers.
-/

namespace Rjs

/-- A node with the statics in which `can_rx_task` publishes its peers. -/
structure Station where
  node : Node
  alivePeers : UInt8
  peerView : Vector PeerView viewPeers
  peerViewCount : UInt8

/-- The counters of `app_stats_t` that the display shows, `tx_busy` apart. -/
structure AppStats where
  txFrames : UInt32
  rxFrames : UInt32
  rxDropped : UInt32
  loopJitterMaxUs : UInt32
deriving DecidableEq, Repr, Inhabited

/-- What `app_get_view` reads of `rjs_can_status_t`. -/
structure BusStatus where
  txErrorCount : UInt8
  rxErrorCount : UInt8
  busOff : Bool
deriving DecidableEq, Repr, Inhabited

inductive StationEvent where
  | canRx (frame : Option CanFrame) (handled polled : UInt32)
  | node (ev : NodeEvent)

def Peer.view (p : Peer) : PeerView := ⟨p.node, p.status.code, p.last.state, p.last.errorFlags⟩

/-- The loop that fills `view` from the entries that remain, `n` of it being filled. -/
def fillView (n : Nat) : List Peer → List PeerView
  | [] => []
  | p :: ps => if n < viewPeers then p.view :: fillView (n + 1) ps else []

namespace Station

def start (nodeId : UInt8) (millis : UInt32) : Station where
  node := .start nodeId millis
  alivePeers := 0
  peerView := Vector.replicate viewPeers ⟨0, 0, 0, 0⟩
  peerViewCount := 0

/-- The critical section at the end of an iteration. -/
def publish (s : Station) (view : List PeerView) : Station :=
  { s with peerView := Vector.ofFn fun i => view[i.val]?.getD (s.peerView.get i)
           peerViewCount := UInt8.ofNat view.length }

/-- One iteration of `can_rx_task`. -/
def canRx (s : Station) (frame : Option CanFrame) (handled polled : UInt32) : Station :=
  let a := match frame with
    | some f => s.node.app.handleFrame f handled
    | none => s.node.app
  let a := a.act (.poll polled)
  let s := { s with node := { s.node with app := a }, alivePeers := a.monitor.aliveCount }
  s.publish (fillView 0 a.monitor.peers)

def act (s : Station) : StationEvent → Station
  | .canRx frame handled polled => s.canRx frame handled polled
  | .node ev => { s with node := s.node.act ev }

def run (s : Station) (events : List StationEvent) : Station := events.foldl act s

/-- `app_get_view` at the time `board_millis()`. -/
def appGetView (s : Station) (stats : AppStats) (cs : BusStatus) (millis : UInt32) : AppView where
  nodeId := s.node.app.nodeId
  controller := s.node.app.nodeId = controllerNodeId
  sweepEnabled := s.node.sweepEnabled
  uptimeMs := millis
  peerCount := s.peerViewCount
  peers := Vector.ofFn fun i =>
    if i.val < s.peerViewCount.toNat then s.peerView.get i else ⟨0, 0, 0, 0⟩
  joint := s.node.jointSnapshot
  jointFlags := s.node.jointFlags
  txFrames := stats.txFrames
  rxFrames := stats.rxFrames
  txBusy := s.node.txBusy
  rxDropped := stats.rxDropped
  txErrorCount := cs.txErrorCount
  rxErrorCount := cs.rxErrorCount
  busOff := cs.busOff
  loopJitterMaxUs := stats.loopJitterMaxUs

/-- The peer table. -/
def peers (s : Station) : List Peer := s.node.app.monitor.peers

/-- The heading of the peers on the display, with the number `n`. -/
def aliveHeading (n : UInt8) : ScreenOp :=
  StatusScreen.line 7 (StatusScreen.ascii "NODES ON BUS (" ++ StatusScreen.decimal n.toNat ++
    StatusScreen.ascii " alive)")

/-- A view tells the display the number of live peers, and the display says so. -/
structure ShowsAlive (s : Station) (v : AppView) : Prop where
  count : v.peerCount = s.node.app.monitor.aliveCount
  heading : aliveHeading s.node.app.monitor.aliveCount ∈ StatusScreen.render v

/-! ## The table -/

theorem monitor_drain (a : App) : a.drain.monitor = a.monitor := by
  induction a using App.drain.induct with
  | case1 a cmd q h ih => rw [App.drain, h]; exact ih
  | case2 a h => rw [App.drain, h]

/-- The application has the monitor of some run of heartbeats and polls. -/
def Monitored (a : App) : Prop := ∃ ops, a.Monitors (Monitor.run peerTimeoutMs ops)

theorem monitored_act {a : App} (h : Monitored a) (ev : AppEvent) : Monitored (a.act ev) := by
  obtain ⟨ops, hops⟩ := h
  refine ⟨ops ++ (monitorOp? ev).toList, ?_⟩
  rw [Monitor.run, List.foldl_append]
  exact App.monitors_act hops ev

theorem monitored_node {n : Node} (h : Monitored n.app) (ev : NodeEvent) :
    Monitored (n.act ev).app := by
  rw [Node.act_app]
  cases ev with
  | frame f millis => exact monitored_act h (.frame f millis)
  | poll millis => exact monitored_act h (.poll millis)
  | control sent =>
    obtain ⟨ops, hops⟩ := h
    refine ⟨ops, ?_⟩
    rw [App.Monitors] at hops ⊢
    dsimp only
    rw [monitor_drain]
    exact hops
  | _ => exact h

theorem monitored_canRx {s : Station} (h : Monitored s.node.app) (frame : Option CanFrame)
    (handled polled : UInt32) : Monitored (s.canRx frame handled polled).node.app := by
  cases frame with
  | none => exact monitored_act h (.poll polled)
  | some f => exact monitored_act (monitored_act h (.frame f handled)) (.poll polled)

theorem monitored_run (nodeId : UInt8) (millis : UInt32) (events : List StationEvent) :
    Monitored ((start nodeId millis).run events).node.app := by
  induction events using List.reverseRecOn with
  | nil => exact ⟨[], App.monitors_start nodeId cmdQueueDepth controlConfig⟩
  | append_singleton events ev ih =>
    rw [run, List.foldl_append]
    cases ev with
    | canRx frame handled polled => exact monitored_canRx ih frame handled polled
    | node ev => exact monitored_node ih ev

theorem length_peers {a : App} (h : Monitored a) : a.monitor.peers.length ≤ monitorMaxNodes := by
  obtain ⟨ops, hops⟩ := h
  rw [hops.peers]
  exact Monitor.run_length peerTimeoutMs ops

/-! ## The snapshot -/

theorem fillView_eq (n : Nat) (ps : List Peer) :
    fillView n ps = (ps.take (viewPeers - n)).map Peer.view := by
  induction ps generalizing n with
  | nil => simp [fillView]
  | cons p ps ih =>
    rw [fillView]
    split
    · rename_i h
      have hroom : viewPeers - n = (viewPeers - (n + 1)) + 1 := by omega
      rw [ih, hroom, List.take_succ_cons, List.map_cons]
    · rename_i h
      rw [Nat.sub_eq_zero_of_le (Nat.not_lt.mp h)]
      rfl

section Snapshot

variable (s : Station) (frame : Option CanFrame) (handled polled : UInt32) (stats : AppStats)
  (cs : BusStatus) (millis : UInt32)

/-- `peer_count` counts entries of the table, up to four. -/
theorem toNat_peerCount :
    (((s.canRx frame handled polled).appGetView stats cs millis).peerCount).toNat =
      min viewPeers (s.canRx frame handled polled).peers.length := by
  have hcount : ∀ ps : List Peer, (UInt8.ofNat (fillView 0 ps).length).toNat =
      min viewPeers ps.length := by
    intro ps
    rw [fillView_eq, List.length_map, List.length_take, Nat.sub_zero]
    exact UInt8.toNat_ofNat_of_lt' (Nat.lt_of_le_of_lt (Nat.min_le_left _ _) (by decide))
  exact hcount _

theorem heading_mem_render (v : AppView) : aliveHeading v.peerCount ∈ StatusScreen.render v := by
  have hpeers : aliveHeading v.peerCount ∈ StatusScreen.renderPeers v :=
    List.mem_append_left _ (List.mem_cons_of_mem _ (List.mem_singleton_self _))
  simp only [StatusScreen.render, List.mem_append]
  exact .inl (.inl (.inr hpeers))

end Snapshot

/-- How many of the first four entries, and how many live ones there are. -/
theorem min_eq_countP_iff {α : Type} (P : α → Bool) (l : List α) (k : Nat) :
    min k l.length = l.countP P ↔
      l.length ≤ k ∧ (∀ a ∈ l, P a = true) ∨ k < l.length ∧ l.countP P = k := by
  by_cases h : l.length ≤ k
  · rw [Nat.min_eq_right h, eq_comm, List.countP_eq_length]
    simp [h]
  · rw [Nat.min_eq_left (Nat.le_of_not_le h), eq_comm]
    simp [h, Nat.lt_of_not_le h]

/-- **When the display shows the number of live peers.** After every iteration of `can_rx_task` it
does exactly if all peers in the table are alive and there are at most four, or if there are more
and four of them are alive. -/
theorem showsAlive_iff (nodeId : UInt8) (millis : UInt32) (events : List StationEvent)
    (frame : Option CanFrame) (handled polled : UInt32) (stats : AppStats) (cs : BusStatus)
    (now : UInt32) :
    let s := ((start nodeId millis).run events).canRx frame handled polled
    ShowsAlive s (s.appGetView stats cs now) ↔
      s.peers.length ≤ 4 ∧ (∀ p ∈ s.peers, p.status = .alive) ∨
        4 < s.peers.length ∧ s.peers.countP (·.status = .alive) = 4 := by
  intro s
  have hlen : s.peers.length ≤ monitorMaxNodes :=
    length_peers (monitored_canRx (monitored_run nodeId millis events) frame handled polled)
  have halive : s.node.app.monitor.aliveCount.toNat = s.peers.countP (·.status = .alive) :=
    Monitor.aliveCount_eq _ hlen
  have hcount : (s.appGetView stats cs now).peerCount.toNat = min 4 s.peers.length :=
    toNat_peerCount _ frame handled polled stats cs now
  have hshows : ShowsAlive s (s.appGetView stats cs now) ↔
      (s.appGetView stats cs now).peerCount = s.node.app.monitor.aliveCount := by
    refine ⟨fun h => h.count, fun h => ⟨h, ?_⟩⟩
    rw [← h]
    exact heading_mem_render _
  rw [hshows, ← UInt8.toNat_inj, hcount, halive, min_eq_countP_iff]
  simp only [decide_eq_true_eq]

/-- The frame in which a node reports that it is operational. -/
def heartbeatFrame (node : UInt8) : CanFrame :=
  { frameStart .heartbeat node heartbeatLen with
    data := writeHeartbeat ⟨2, 0, 0, 0, 1, 0⟩ (frameStart .heartbeat node heartbeatLen).data }

/-- The only peer falls silent: "1 alive". -/
theorem not_showsAlive_lost :
    ¬ShowsAlive (((start 7 0).run [.canRx (some (heartbeatFrame 2)) 0 0]).canRx none 1000 1000)
      ((((start 7 0).run [.canRx (some (heartbeatFrame 2)) 0 0]).canRx none 1000 1000).appGetView
        default default 1000) := fun h =>
  absurd h.count (by decide +kernel)

end Station

end Rjs
