import Mathlib.Data.List.Induction
import RobotJointStack.Lib.WrapClock
import RobotJointStack.Monitor.Basic

/-!
# Monitor.Run

Runs of the monitor, node by node. To each node the monitor is a map entry and a stream of events:
a heartbeat of the node is `Peer.hear`, a poll is `Peer.expire`, and nothing else touches it.

* `find_onHeartbeat`, `find_poll`: the entry of a node after each operation.
* `eventsOf_onHeartbeat`, `eventsOf_poll`: the events each operation adds for a node.
* `traced_run`: every reachable table holds each node once, and no entry is unknown.

Times are true milliseconds, without bound; the monitor sees them wrapped to 32 bits.
-/

namespace Rjs

open WrapClock

/-! ## One entry -/

namespace Peer

/-- The entry after an accepted heartbeat. -/
def hear (p : Peer) (hb : Heartbeat) (nowMs : UInt32) : Peer :=
  { p with last := hb
           lastSeenMs := nowMs
           status := .alive
           heartbeats := p.heartbeats + 1 }

/-- The event an accepted heartbeat raises. -/
def heardEvent (p : Peer) (hb : Heartbeat) : Option MonitorEvent :=
  if p.status ≠ .alive then some .nodeJoined
  else if hb.uptimeMs < p.last.uptimeMs then some .nodeRebooted
  else none

def Expired (timeoutMs nowMs : UInt32) (p : Peer) : Prop :=
  p.status = .alive ∧ nowMs - p.lastSeenMs > timeoutMs

instance (timeoutMs nowMs : UInt32) (p : Peer) : Decidable (p.Expired timeoutMs nowMs) :=
  inferInstanceAs (Decidable (_ ∧ _))

/-- The entry after a poll. -/
def expire (timeoutMs nowMs : UInt32) (p : Peer) : Peer :=
  if p.Expired timeoutMs nowMs then { p with status := .lost } else p

@[simp] theorem hear_node (p : Peer) (hb : Heartbeat) (nowMs : UInt32) :
    (p.hear hb nowMs).node = p.node := rfl

@[simp] theorem expire_node (timeoutMs nowMs : UInt32) (p : Peer) :
    (p.expire timeoutMs nowMs).node = p.node := by
  unfold expire; split <;> rfl

end Peer

namespace Monitor

section Operations

variable {σ : Type} {m : Monitor σ} {node : UInt8} {hb : Heartbeat} {nowMs : UInt32}

/-- `rjs_monitor_on_heartbeat` accepts heartbeats of valid nodes that are known or still fit. -/
def Accepts (m : Monitor σ) (node : UInt8) : Prop :=
  node ≠ nodeBroadcast ∧ node ≤ nodeIdMax ∧
    (m.find node = none → m.peers.length < monitorMaxNodes)

instance (m : Monitor σ) (node : UInt8) : Decidable (m.Accepts node) :=
  inferInstanceAs (Decidable (_ ∧ _ ∧ (_ → _)))

/-- The entry a heartbeat of `node` finds or makes. -/
def entry (m : Monitor σ) (node : UInt8) : Peer := (m.find node).getD (Peer.new node)

theorem entry_node (m : Monitor σ) (node : UInt8) : (m.entry node).node = node := by
  unfold entry
  cases h : m.find node with
  | none => rfl
  | some p => exact Table.key_of_lookup h

/-- The callback, where there is an event and somebody to hear it. -/
def notify (cb : Option (MonitorCb σ)) (ev : Option MonitorEvent) (p : Peer) (user : σ) : σ :=
  match cb, ev with
  | some cb, some ev => cb ev p user
  | _, _ => user

theorem refresh_eq {i : Nat} {p : Peer} (h : m.peers[i]? = some p) :
    m.refresh i hb nowMs =
      { m with peers := m.peers.set i (p.hear hb nowMs)
               user := notify m.cb (p.heardEvent hb) (p.hear hb nowMs) m.user } := by
  by_cases hs : p.status = .alive
  · by_cases hu : hb.uptimeMs < p.last.uptimeMs <;> cases hc : m.cb <;>
      simp [refresh, h, hs, hu, hc, emit, notify, Peer.heardEvent, Peer.hear]
  · cases hc : m.cb <;> simp [refresh, h, hs, hc, emit, notify, Peer.heardEvent, Peer.hear]

variable (hb nowMs)

theorem onHeartbeat_refused (h : ¬m.Accepts node) :
    m.onHeartbeat node (some hb) nowMs = (false, m) := by
  simp only [onHeartbeat]
  split
  · rfl
  · rename_i hvalid
    rw [not_or, gt_iff_lt, UInt8.not_lt] at hvalid
    simp only [Accepts, not_and, Classical.not_imp] at h
    obtain ⟨hnone, hfull⟩ := h hvalid.1 hvalid.2
    rw [findMut, Table.index?_eq_none.mpr hnone]
    exact if_pos (not_lt.mp hfull)

/-- An accepted heartbeat puts the heard entry in place and reports its event. -/
theorem onHeartbeat_accepted (h : m.Accepts node) :
    m.onHeartbeat node (some hb) nowMs =
      (true, { m with peers := Table.put Peer.node ((m.entry node).hear hb nowMs) m.peers
                      user := notify m.cb ((m.entry node).heardEvent hb)
                        ((m.entry node).hear hb nowMs) m.user }) := by
  obtain ⟨hzero, hmax, hroom⟩ := h
  have hvalid : ¬(node = nodeBroadcast ∨ node > nodeIdMax) :=
    not_or.mpr ⟨hzero, UInt8.not_lt.mpr hmax⟩
  have hkey : ((m.entry node).hear hb nowMs).node = node := m.entry_node node
  simp only [onHeartbeat, if_neg hvalid]
  cases hidx : m.findMut node with
  | some i =>
    obtain ⟨p, hp, hfind⟩ := Table.getElem?_of_index? hidx
    have hentry : m.entry node = p := by rw [entry, find, hfind]; rfl
    rw [hentry] at hkey ⊢
    have hidx' : Table.index? Peer.node m.peers (p.hear hb nowMs).node = some i := hkey ▸ hidx
    dsimp only
    rw [refresh_eq hp, Table.set_eq_put hidx']
  | none =>
    have hnone : m.find node = none := Table.index?_eq_none.mp hidx
    have hentry : m.entry node = Peer.new node := by rw [entry, hnone]; rfl
    rw [hentry] at hkey ⊢
    have hlast : (m.peers ++ [Peer.new node])[m.peers.length]? = some (Peer.new node) := by simp
    have hset : (m.peers ++ [Peer.new node]).set m.peers.length ((Peer.new node).hear hb nowMs) =
        m.peers ++ [(Peer.new node).hear hb nowMs] := by simp
    have hnew : Table.lookup Peer.node m.peers ((Peer.new node).hear hb nowMs).node = none :=
      hkey ▸ hnone
    dsimp only
    rw [if_neg (not_le.mpr (hroom hnone)), refresh_eq hlast]
    dsimp only
    rw [hset, Table.append_eq_put hnew]

theorem find_onHeartbeat (h : m.Accepts node) (n : UInt8) :
    (m.onHeartbeat node (some hb) nowMs).2.find n =
      if node = n then some ((m.entry node).hear hb nowMs) else m.find n := by
  have hkey : ((m.entry node).hear hb nowMs).node = node := m.entry_node node
  rw [onHeartbeat_accepted hb nowMs h, find, Table.lookup_put, hkey]; rfl

/-- A new node goes to the end of the table. -/
theorem nodes_onHeartbeat (h : m.Accepts node) :
    (m.onHeartbeat node (some hb) nowMs).2.peers.map Peer.node =
      m.peers.map Peer.node ++ if m.find node = none then [node] else [] := by
  have hkey : ((m.entry node).hear hb nowMs).node = node := m.entry_node node
  rw [onHeartbeat_accepted hb nowMs h, Table.keys_put, hkey]; rfl

/-- The table never outgrows its array. -/
theorem length_onHeartbeat (h : m.Accepts node) (hl : m.peers.length ≤ monitorMaxNodes) :
    (m.onHeartbeat node (some hb) nowMs).2.peers.length ≤ monitorMaxNodes := by
  have hlen := congrArg List.length (nodes_onHeartbeat hb nowMs h)
  rw [List.length_map, List.length_append, List.length_map] at hlen
  rw [hlen]
  split
  · rename_i hnone
    exact h.2.2 hnone
  · exact hl

theorem pollPeers_eq (timeoutMs : UInt32) (cb : Option (MonitorCb σ)) (ps : List Peer) (user : σ) :
    pollPeers timeoutMs cb nowMs ps user =
      (ps.map (Peer.expire timeoutMs nowMs),
        (ps.filter (·.Expired timeoutMs nowMs)).foldl
          (fun user p => notify cb (some .nodeLost) (p.expire timeoutMs nowMs) user) user) := by
  induction ps generalizing user with
  | nil => rfl
  | cons p ps ih =>
    by_cases hp : p.Expired timeoutMs nowMs
    · have hlost : p.expire timeoutMs nowMs = { p with status := .lost } := if_pos hp
      have hp' : p.status = .alive ∧ nowMs - p.lastSeenMs > timeoutMs := hp
      rw [pollPeers, if_pos hp']
      simp only [ih, List.map_cons, List.filter_cons, hp, decide_true, if_true, List.foldl_cons,
        hlost]
      cases cb <;> rfl
    · have hkeep : p.expire timeoutMs nowMs = p := if_neg hp
      have hp' : ¬(p.status = .alive ∧ nowMs - p.lastSeenMs > timeoutMs) := hp
      rw [pollPeers, if_neg hp']
      simp only [ih, List.map_cons, List.filter_cons, hp, decide_false, Bool.false_eq_true,
        if_false, hkeep]

theorem poll_eq (m : Monitor σ) : m.poll nowMs =
    { m with peers := m.peers.map (Peer.expire m.timeoutMs nowMs)
             user := (m.peers.filter (·.Expired m.timeoutMs nowMs)).foldl
               (fun user p => notify m.cb (some .nodeLost) (p.expire m.timeoutMs nowMs) user)
               m.user } := by
  simp only [poll, pollPeers_eq]

theorem find_poll (m : Monitor σ) (n : UInt8) :
    (m.poll nowMs).find n = (m.find n).map (Peer.expire m.timeoutMs nowMs) := by
  rw [poll_eq]
  exact Table.lookup_map (fun p => p.expire_node m.timeoutMs nowMs) m.peers n

end Operations

/-! ## Traced monitors -/

/-- The events reported so far, oldest first, each with its entry. -/
abbrev Trace := List (MonitorEvent × Peer)

/-- The callback that writes down what it is told. -/
def record : MonitorCb Trace := fun ev p trace => trace ++ [(ev, p)]

def eventsOf (trace : Trace) (n : UInt8) : List MonitorEvent :=
  (trace.filter (·.2.node = n)).map (·.1)

/-- The reports about a node, with its entries. -/
def reportsOf (trace : Trace) (n : UInt8) : Trace := trace.filter (·.2.node = n)

theorem eventsOf_eq (trace : Trace) (n : UInt8) :
    eventsOf trace n = (reportsOf trace n).map (·.1) := rfl

/-- The reports of a poll, written down. -/
theorem record_lost (timeoutMs nowMs : UInt32) (ps : List Peer) (trace : Trace) :
    ps.foldl (fun user p => notify (some record) (some .nodeLost) (p.expire timeoutMs nowMs) user)
      trace = trace ++ ps.map fun p => (.nodeLost, p.expire timeoutMs nowMs) := by
  induction ps generalizing trace with
  | nil => simp
  | cons p ps ih => rw [List.foldl_cons, ih]; simp [notify, record]

inductive MonitorOp where
  | heartbeat (node : UInt8) (hb : Heartbeat) (time : Nat)
  | poll (time : Nat)

def act (m : Monitor Trace) : MonitorOp → Monitor Trace
  | .heartbeat node hb time => (m.onHeartbeat node (some hb) (wrap time)).2
  | .poll time => m.poll (wrap time)

def run (timeoutMs : UInt32) (ops : List MonitorOp) : Monitor Trace :=
  ops.foldl act (init timeoutMs (some record) [])

theorem run_snoc (timeoutMs : UInt32) (ops : List MonitorOp) (op : MonitorOp) :
    run timeoutMs (ops ++ [op]) = (run timeoutMs ops).act op := by
  rw [run, List.foldl_append]; rfl

/-- What every reachable monitor keeps: each node once, and no entry without a heartbeat. -/
structure Traced (timeoutMs : UInt32) (m : Monitor Trace) : Prop where
  timeout : m.timeoutMs = timeoutMs
  cb : m.cb = some record
  distinct : Table.Distinct Peer.node m.peers
  known : ∀ n p, m.find n = some p → p.node = n ∧ p.status ≠ .unknown
  valid : ∀ n p, m.find n = some p → n ≠ nodeBroadcast ∧ n ≤ nodeIdMax

section Traced

variable {timeoutMs : UInt32} {m : Monitor Trace} (h : m.Traced timeoutMs)

theorem traced_init (timeoutMs : UInt32) : (init timeoutMs (some record) []).Traced timeoutMs where
  timeout := rfl
  cb := rfl
  distinct := List.nodup_nil
  known := fun _ _ hp => nomatch hp
  valid := fun _ _ hp => nomatch hp

include h

theorem traced_act (op : MonitorOp) : (m.act op).Traced timeoutMs := by
  cases op with
  | heartbeat node hb time =>
    show (m.onHeartbeat node (some hb) (wrap time)).2.Traced timeoutMs
    by_cases hacc : m.Accepts node
    · have hfind := find_onHeartbeat hb (wrap time) hacc
      rw [onHeartbeat_accepted hb (wrap time) hacc] at hfind ⊢
      refine ⟨h.timeout, h.cb, Table.distinct_put h.distinct _, fun n p hp => ?_, fun n p hp => ?_⟩
      · rw [hfind] at hp
        split at hp
        · rename_i hn
          cases hp
          exact ⟨(m.entry_node node).trans hn, nofun⟩
        · exact h.known n p hp
      · rw [hfind] at hp
        split at hp
        · rename_i hn
          exact hn ▸ ⟨hacc.1, hacc.2.1⟩
        · exact h.valid n p hp
    · rw [onHeartbeat_refused hb (wrap time) hacc]; exact h
  | poll time =>
    show (m.poll (wrap time)).Traced timeoutMs
    have hfind := find_poll (wrap time) m
    rw [poll_eq] at hfind ⊢
    refine ⟨h.timeout, h.cb, Table.distinct_map (fun p => p.expire_node _ _) h.distinct,
      fun n p hp => ?_, fun n p hp => ?_⟩ <;> rw [hfind, Option.map_eq_some_iff] at hp <;>
      obtain ⟨q, hq, rfl⟩ := hp
    · obtain ⟨hn, hs⟩ := h.known n q hq
      refine ⟨(q.expire_node _ _).trans hn, ?_⟩
      unfold Peer.expire
      split
      · exact nofun
      · exact hs
    · exact h.valid n q hq

theorem accepts_of_find {n : UInt8} {p : Peer} (hp : m.find n = some p) : m.Accepts n :=
  ⟨(h.valid n p hp).1, (h.valid n p hp).2, fun hnone => by rw [hp] at hnone; cases hnone⟩

/-- The report of a heartbeat is about its own node. -/
theorem reportsOf_onHeartbeat {node : UInt8} (hb : Heartbeat) (nowMs : UInt32)
    (hacc : m.Accepts node) (n : UInt8) :
    reportsOf (m.onHeartbeat node (some hb) nowMs).2.user n = reportsOf m.user n ++
      if node = n then
        ((m.entry node).heardEvent hb).toList.map fun ev => (ev, (m.entry node).hear hb nowMs)
      else [] := by
  rw [onHeartbeat_accepted hb nowMs hacc, h.cb]
  cases hev : (m.entry node).heardEvent hb with
  | none => simp [notify]
  | some ev =>
    by_cases hn : node = n <;>
      simp [notify, record, reportsOf, List.filter_append, entry_node, hn]

/-- A poll reports a node lost once, when its entry expires. -/
theorem reportsOf_poll (nowMs : UInt32) (n : UInt8) :
    reportsOf (m.poll nowMs).user n = reportsOf m.user n ++
      ((m.find n).toList.filter (·.Expired timeoutMs nowMs)).map fun p =>
        (.nodeLost, p.expire timeoutMs nowMs) := by
  have hentry : (m.peers.filter fun p => decide (p.node = n) && decide (p.Expired timeoutMs nowMs)) =
      (m.find n).toList.filter (·.Expired timeoutMs nowMs) := by
    rw [find, ← Table.filter_key h.distinct, List.filter_filter]
    congr 1
    funext p
    exact Bool.and_comm _ _
  rw [poll_eq, h.cb, h.timeout, record_lost, reportsOf, List.filter_append, ← reportsOf,
    List.filter_map]
  simp only [Function.comp_def, Peer.expire_node, List.filter_filter, hentry]

theorem eventsOf_onHeartbeat {node : UInt8} (hb : Heartbeat) (nowMs : UInt32)
    (hacc : m.Accepts node) (n : UInt8) :
    eventsOf (m.onHeartbeat node (some hb) nowMs).2.user n = eventsOf m.user n ++
      if node = n then ((m.entry node).heardEvent hb).toList else [] := by
  rw [eventsOf_eq, eventsOf_eq, reportsOf_onHeartbeat h hb nowMs hacc, List.map_append]
  split <;> simp [Function.comp_def]

theorem eventsOf_poll (nowMs : UInt32) (n : UInt8) :
    eventsOf (m.poll nowMs).user n = eventsOf m.user n ++
      ((m.find n).toList.filter (·.Expired timeoutMs nowMs)).map fun _ => .nodeLost := by
  rw [eventsOf_eq, eventsOf_eq, reportsOf_poll h nowMs, List.map_append, List.map_map]
  rfl

/-- What one operation does to a node: nothing, or its entry hears a heartbeat, or expires. -/
theorem act_cases (op : MonitorOp) (n : UInt8) :
    ((m.act op).find n = m.find n ∧ eventsOf (m.act op).user n = eventsOf m.user n) ∨
    (∃ hb t, op = .heartbeat n hb t ∧ m.Accepts n ∧
      (m.act op).find n = some ((m.entry n).hear hb (wrap t)) ∧
      eventsOf (m.act op).user n = eventsOf m.user n ++ ((m.entry n).heardEvent hb).toList) ∨
    (∃ t p, op = .poll t ∧ m.find n = some p ∧ p.Expired timeoutMs (wrap t) ∧
      (m.act op).find n = some { p with status := .lost } ∧
      eventsOf (m.act op).user n = eventsOf m.user n ++ [.nodeLost]) := by
  cases op with
  | heartbeat node hb t =>
    simp only [act]
    by_cases hacc : m.Accepts node
    · have hfind := find_onHeartbeat hb (wrap t) hacc n
      have hevents := eventsOf_onHeartbeat h hb (wrap t) hacc n
      by_cases hn : node = n
      · subst hn
        rw [if_pos rfl] at hfind hevents
        exact .inr (.inl ⟨hb, t, rfl, hacc, hfind, hevents⟩)
      · rw [if_neg hn] at hfind hevents
        rw [List.append_nil] at hevents
        exact .inl ⟨hfind, hevents⟩
    · rw [onHeartbeat_refused hb (wrap t) hacc]
      exact .inl ⟨rfl, rfl⟩
  | poll t =>
    simp only [act]
    have hfind := find_poll (wrap t) m n
    have hevents := eventsOf_poll h (wrap t) n
    rw [h.timeout] at hfind
    cases hp : m.find n with
    | none => left; simpa [hp] using And.intro hfind hevents
    | some p =>
      simp only [hp, Option.map_some, Option.toList_some] at hfind hevents
      by_cases hexp : p.Expired timeoutMs (wrap t)
      · have hlost : p.expire timeoutMs (wrap t) = { p with status := .lost } := if_pos hexp
        rw [hlost] at hfind
        exact .inr (.inr ⟨t, p, rfl, rfl, hexp, hfind, by simpa [hexp] using hevents⟩)
      · have hkeep : p.expire timeoutMs (wrap t) = p := if_neg hexp
        rw [hkeep] at hfind
        exact .inl ⟨hfind, by simpa [hexp] using hevents⟩

end Traced

theorem act_length {m : Monitor Trace} (hl : m.peers.length ≤ monitorMaxNodes) (op : MonitorOp) :
    (m.act op).peers.length ≤ monitorMaxNodes := by
  cases op with
  | heartbeat node hb t =>
    simp only [act]
    by_cases hacc : m.Accepts node
    · exact length_onHeartbeat hb (wrap t) hacc hl
    · rw [onHeartbeat_refused hb (wrap t) hacc]; exact hl
  | poll t =>
    simp only [act, poll_eq, List.length_map]
    exact hl

theorem traced_run (timeoutMs : UInt32) (ops : List MonitorOp) :
    (run timeoutMs ops).Traced timeoutMs := by
  induction ops using List.reverseRecOn with
  | nil => exact traced_init timeoutMs
  | append_singleton ops op ih => rw [run_snoc]; exact traced_act ih op

theorem run_length (timeoutMs : UInt32) (ops : List MonitorOp) :
    (run timeoutMs ops).peers.length ≤ monitorMaxNodes := by
  induction ops using List.reverseRecOn with
  | nil => exact Nat.zero_le _
  | append_singleton ops op ih => rw [run_snoc]; exact act_length ih op

end Monitor

end Rjs
