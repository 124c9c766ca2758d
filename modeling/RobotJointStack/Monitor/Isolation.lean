import Mathlib.Data.Finset.Card
import RobotJointStack.Monitor.Run

/-!
# Monitor.Isolation

Peers share a table and nothing else. As long as the table has room for every node that is heard,
what the monitor knows and reports about a node is a function of that node's heartbeats and the
polls.

* `view_run`: the monitor seen from one node is the machine `watch`.
* `peers_isolated`: so the heartbeats of other nodes can be deleted, or moved about.
-/

namespace Rjs
namespace Monitor

open WrapClock

/-- The valid nodes of the heartbeats of a run. -/
def heardNode? : MonitorOp → Option UInt8
  | .heartbeat node _ _ => if node ≠ nodeBroadcast ∧ node ≤ nodeIdMax then some node else none
  | .poll _ => none

def heardNodes (ops : List MonitorOp) : Finset UInt8 := (ops.filterMap heardNode?).toFinset

/-- The heartbeats of `n`, and all polls. -/
def concerns (n : UInt8) : MonitorOp → Bool
  | .heartbeat node _ _ => node = n
  | .poll _ => true

/-- The run without the heartbeats of nodes other than `n`. -/
def onlyNode (n : UInt8) (ops : List MonitorOp) : List MonitorOp := ops.filter (concerns n)

/-- What the monitor knows and has reported about `n`. -/
def view (n : UInt8) (m : Monitor Trace) : Option Peer × Trace :=
  (m.find n, reportsOf m.user n)

/-- A monitor of the node `n` alone. -/
def watch (timeoutMs : UInt32) (n : UInt8) : Option Peer × Trace → MonitorOp → Option Peer × Trace
  | (entry, reports), .heartbeat node hb t =>
    if node = n ∧ n ≠ nodeBroadcast ∧ n ≤ nodeIdMax then
      let p := entry.getD (Peer.new n)
      (some (p.hear hb (wrap t)),
        reports ++ (p.heardEvent hb).toList.map fun ev => (ev, p.hear hb (wrap t)))
    else (entry, reports)
  | (entry, reports), .poll t =>
    (entry.map (Peer.expire timeoutMs (wrap t)),
      reports ++ (entry.toList.filter (·.Expired timeoutMs (wrap t))).map fun p =>
        (.nodeLost, p.expire timeoutMs (wrap t)))

section View

variable {timeoutMs : UInt32} {m : Monitor Trace} {nodes : Finset UInt8}

/-- A table of some of 16 nodes accepts every heartbeat of these nodes that is valid. -/
theorem accepts_of_room (h : m.Traced timeoutMs) (hcard : nodes.card ≤ monitorMaxNodes)
    (hm : ∀ p ∈ m.peers, p.node ∈ nodes) {n : UInt8} (hn : n ∈ nodes)
    (hvalid : n ≠ nodeBroadcast ∧ n ≤ nodeIdMax) : m.Accepts n := by
  refine ⟨hvalid.1, hvalid.2, fun hnone => ?_⟩
  have hsub : (m.peers.map Peer.node).toFinset ⊆ nodes.erase n := by
    intro k hk
    obtain ⟨p, hp, rfl⟩ := List.mem_map.mp (List.mem_toFinset.mp hk)
    exact Finset.mem_erase.mpr ⟨Table.lookup_eq_none.mp hnone p hp, hm p hp⟩
  have hle := Finset.card_le_card hsub
  rw [List.toFinset_card_of_nodup h.distinct, List.length_map, Finset.card_erase_of_mem hn] at hle
  have hpos := Finset.card_pos.mpr ⟨n, hn⟩
  omega

/-- One step: the table has room, and each node sees its own machine move. -/
theorem view_act (h : m.Traced timeoutMs) (hcard : nodes.card ≤ monitorMaxNodes)
    (hm : ∀ p ∈ m.peers, p.node ∈ nodes) (op : MonitorOp) (hop : ∀ n ∈ heardNode? op, n ∈ nodes) :
    (∀ p ∈ (m.act op).peers, p.node ∈ nodes) ∧
      ∀ n, view n (m.act op) = watch timeoutMs n (view n m) op := by
  cases op with
  | heartbeat node hb t =>
    simp only [act]
    by_cases hvalid : node ≠ nodeBroadcast ∧ node ≤ nodeIdMax
    · have hnode : node ∈ nodes := hop node (by rw [heardNode?, if_pos hvalid]; rfl)
      have hacc := accepts_of_room h hcard hm hnode hvalid
      refine ⟨fun p hp => ?_, fun n => ?_⟩
      · rw [onHeartbeat_accepted hb (wrap t) hacc] at hp
        cases Table.mem_put hp with
        | inl hp => rw [hp, Peer.hear_node, entry_node]; exact hnode
        | inr hp => exact hm p hp
      · rw [view, find_onHeartbeat hb (wrap t) hacc, reportsOf_onHeartbeat h hb (wrap t) hacc,
          watch.eq_def, view]
        by_cases hn : node = n
        · subst hn
          simp only [if_true, true_and, if_pos hvalid]
          rfl
        · simp [hn]
    · have hacc : ¬m.Accepts node := fun hacc => hvalid ⟨hacc.1, hacc.2.1⟩
      rw [onHeartbeat_refused hb (wrap t) hacc]
      refine ⟨hm, fun n => ?_⟩
      have hn : ¬(node = n ∧ n ≠ nodeBroadcast ∧ n ≤ nodeIdMax) := fun hn => hvalid (hn.1 ▸ hn.2)
      rw [watch.eq_def, view]
      dsimp only
      rw [if_neg hn]
  | poll t =>
    simp only [act]
    refine ⟨fun p hp => ?_, fun n => ?_⟩
    · rw [poll_eq] at hp
      obtain ⟨q, hq, rfl⟩ := List.mem_map.mp hp
      rw [Peer.expire_node]
      exact hm q hq
    · rw [view, find_poll, reportsOf_poll h, h.timeout, watch.eq_def, view]

/-- After every run that the table has room for, the monitor seen from `n` is the machine that
watches `n` alone. -/
theorem view_run {ops : List MonitorOp} (hcard : (heardNodes ops).card ≤ monitorMaxNodes)
    (n : UInt8) : view n (run timeoutMs ops) = ops.foldl (watch timeoutMs n) (none, []) := by
  suffices h : ∀ before : List MonitorOp, (∀ op ∈ before, ∀ k ∈ heardNode? op, k ∈ heardNodes ops) →
      (∀ p ∈ (run timeoutMs before).peers, p.node ∈ heardNodes ops) ∧
        view n (run timeoutMs before) = before.foldl (watch timeoutMs n) (none, []) by
    refine (h ops fun op hop k hk => ?_).2
    exact List.mem_toFinset.mpr (List.mem_filterMap.mpr ⟨op, hop, hk⟩)
  intro before hbefore
  induction before using List.reverseRecOn with
  | nil => exact ⟨fun p hp => absurd hp List.not_mem_nil, rfl⟩
  | append_singleton before op ih =>
    obtain ⟨hm, hview⟩ := ih fun op hop => hbefore op (List.mem_append_left _ hop)
    obtain ⟨hm', hview'⟩ := view_act (traced_run timeoutMs before) hcard hm op
      (hbefore op (by simp))
    rw [run_snoc, List.foldl_append, ← hview]
    exact ⟨hm', hview' n⟩

end View

section Isolation

variable {timeoutMs : UInt32} {n : UInt8} {ops ops' : List MonitorOp}

/-- The machine of `n` does not move for other nodes. -/
theorem watch_onlyNode (s : Option Peer × Trace) (ops : List MonitorOp) :
    (onlyNode n ops).foldl (watch timeoutMs n) s = ops.foldl (watch timeoutMs n) s := by
  rw [onlyNode, List.foldl_filter]
  congr 1
  funext s op
  cases op with
  | heartbeat node hb t => by_cases hn : node = n <;> simp [concerns, watch, hn]
  | poll t => simp [concerns]

theorem mem_heardNodes : n ∈ heardNodes ops ↔ ∃ op ∈ onlyNode n ops, heardNode? op = some n := by
  rw [heardNodes, List.mem_toFinset, List.mem_filterMap]
  refine exists_congr fun op => ?_
  rw [onlyNode, List.mem_filter, and_assoc]
  refine and_congr_right fun _ => (and_iff_right_of_imp fun hop => ?_).symm
  cases op with
  | heartbeat node hb t =>
    rw [heardNode?] at hop
    split at hop
    · simpa [concerns] using hop
    · cases hop
  | poll t => rfl

theorem heardNodes_congr (h : ∀ k, onlyNode k ops = onlyNode k ops') :
    heardNodes ops = heardNodes ops' := by
  ext k
  rw [mem_heardNodes, mem_heardNodes, h]

theorem heardNodes_onlyNode_subset : heardNodes (onlyNode n ops) ⊆ heardNodes ops := by
  intro k hk
  rw [heardNodes, List.mem_toFinset, List.mem_filterMap] at hk ⊢
  obtain ⟨op, hop, hk⟩ := hk
  exact ⟨op, List.mem_of_mem_filter hop, hk⟩

theorem mem_peers_iff {m : Monitor Trace} (h : m.Traced timeoutMs) {p : Peer} :
    p ∈ m.peers ↔ m.find p.node = some p := by
  rw [find, ← Option.mem_toList, ← Table.filter_key h.distinct, List.mem_filter]
  simp

/-- Two runs that look alike from every node have the same table, up to its order. -/
theorem peers_perm (h : ∀ n, (run timeoutMs ops).find n = (run timeoutMs ops').find n) :
    (run timeoutMs ops).peers.Perm (run timeoutMs ops').peers := by
  have hnodup : ∀ ops, (run timeoutMs ops).peers.Nodup := fun ops =>
    (traced_run timeoutMs ops).distinct.of_map _
  rw [List.perm_ext_iff_of_nodup (hnodup ops) (hnodup ops')]
  intro p
  rw [mem_peers_iff (traced_run timeoutMs ops), mem_peers_iff (traced_run timeoutMs ops'), h]

/-- **Peers are isolated.** In a run with heartbeats of at most 16 valid nodes, the record of each
node and the reports about it are those of the run without the heartbeats of all other nodes. So
runs that differ only in the order of heartbeats of different nodes between polls end with the
same entries, up to their order, and the same reports about each node. -/
theorem peers_isolated (h : (heardNodes ops).card ≤ monitorMaxNodes) :
    (∀ n, (run timeoutMs ops).find n = (run timeoutMs (onlyNode n ops)).find n ∧
      reportsOf (run timeoutMs ops).user n = reportsOf (run timeoutMs (onlyNode n ops)).user n) ∧
    (∀ ops', (∀ n, onlyNode n ops = onlyNode n ops') →
      (run timeoutMs ops).peers.Perm (run timeoutMs ops').peers ∧
      ∀ n, reportsOf (run timeoutMs ops).user n = reportsOf (run timeoutMs ops').user n) := by
  refine ⟨fun n => ?_, fun ops' hsame => ?_⟩
  · have honly : (heardNodes (onlyNode n ops)).card ≤ monitorMaxNodes :=
      (Finset.card_le_card heardNodes_onlyNode_subset).trans h
    have hview : view n (run timeoutMs ops) = view n (run timeoutMs (onlyNode n ops)) := by
      rw [view_run h, view_run honly, watch_onlyNode]
    exact ⟨congrArg Prod.fst hview, congrArg Prod.snd hview⟩
  · have h' : (heardNodes ops').card ≤ monitorMaxNodes := by
      rwa [← heardNodes_congr hsame]
    have hview : ∀ n, view n (run timeoutMs ops) = view n (run timeoutMs ops') := by
      intro n
      rw [view_run h, view_run h', ← watch_onlyNode, hsame, watch_onlyNode]
    exact ⟨peers_perm fun n => congrArg Prod.fst (hview n), fun n => congrArg Prod.snd (hview n)⟩

end Isolation

/-- Without the heartbeat of node 9, the entry of node 7 and the reports about it are the same. -/
theorem peers_isolated_without :
    (run 350 [.heartbeat 7 ⟨2, 0, 100, 0, 1, 0⟩ 0, .heartbeat 9 ⟨2, 0, 5, 0, 1, 0⟩ 1, .poll 400]).find 7 =
        (run 350 [.heartbeat 7 ⟨2, 0, 100, 0, 1, 0⟩ 0, .poll 400]).find 7 ∧
    reportsOf (run 350 [.heartbeat 7 ⟨2, 0, 100, 0, 1, 0⟩ 0, .heartbeat 9 ⟨2, 0, 5, 0, 1, 0⟩ 1,
        .poll 400]).user 7 =
      reportsOf (run 350 [.heartbeat 7 ⟨2, 0, 100, 0, 1, 0⟩ 0, .poll 400]).user 7 :=
  (@peers_isolated 350 [.heartbeat 7 ⟨2, 0, 100, 0, 1, 0⟩ 0, .heartbeat 9 ⟨2, 0, 5, 0, 1, 0⟩ 1,
    .poll 400] (by decide)).1 7

end Monitor
end Rjs
