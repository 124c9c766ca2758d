import RobotJointStack.Lib.Cycle
import RobotJointStack.Lib.History
import RobotJointStack.Monitor.Callback

/-!
# Monitor.LifeCycle

What the monitor reports about a node and what it stores about it tell the same story.

* `lifeCycled_run`: after every run, the reports of a node that is alive end in the middle of a
  turn of its life cycle, and those of any other node between two turns.
* `accounted_run`: the nodes alive are the nodes joined less the nodes lost.
* `reports_follow_lifeCycle`: both, for a monitor with any callback.
-/

namespace Rjs
namespace Monitor

open Cycle History WrapClock

/-- `(JOINED REBOOTED* LOST)*`. -/
def lifeCycle : Language MonitorEvent := turns .nodeJoined .nodeRebooted .nodeLost

/-- The event, where it says that a node has come or gone. -/
def change? : MonitorEvent → Option MonitorEvent
  | .nodeJoined => some .nodeJoined
  | .nodeLost => some .nodeLost
  | _ => none

/-- The reports of a node agree with the status in the table. -/
structure LifeCycled (m : Monitor Trace) (n : UInt8) : Prop where
  alive : (m.find n).map (·.status) = some .alive →
    eventsOf m.user n ∈ inside .nodeJoined .nodeRebooted .nodeLost ∧
      last? change? (eventsOf m.user n) = some .nodeJoined
  silent : (m.find n).map (·.status) ≠ some .alive →
    eventsOf m.user n ∈ lifeCycle ∧ last? change? (eventsOf m.user n) ≠ some .nodeJoined

section LifeCycled

variable {timeoutMs : UInt32} {m : Monitor Trace}

theorem lifeCycled_act (h : m.Traced timeoutMs) {n : UInt8} (hm : m.LifeCycled n)
    (op : MonitorOp) : (m.act op).LifeCycled n := by
  obtain ⟨hfind, hevents⟩ | ⟨hb, t, -, -, hfind, hevents⟩ | ⟨t, p, -, hp, hexp, hfind, hevents⟩ :=
    act_cases h op n
  · exact ⟨by rw [hfind, hevents]; exact hm.alive, by rw [hfind, hevents]; exact hm.silent⟩
  · refine ⟨fun _ => ?_, fun hs => absurd (by rw [hfind]; rfl) hs⟩
    rw [hevents, Peer.heardEvent]
    by_cases hs : (m.find n).map (·.status) = some .alive
    · have hentry : (m.entry n).status = .alive := by
        obtain ⟨p, hp, hpa⟩ := Option.map_eq_some_iff.mp hs
        rw [entry, hp]; exact hpa
      obtain ⟨hin, hlast⟩ := hm.alive hs
      rw [if_neg (not_not.mpr hentry)]
      split
      · exact ⟨stay hin, by rw [Option.toList_some, last?_snoc]; exact hlast⟩
      · rw [Option.toList_none, List.append_nil]
        exact ⟨hin, hlast⟩
    · have hentry : (m.entry n).status ≠ .alive := by
        rw [entry]
        cases hp : m.find n with
        | none => simp [Peer.new]
        | some p => simpa [hp] using hs
      rw [if_pos hentry]
      exact ⟨enter (hm.silent hs).1, by rw [Option.toList_some, last?_snoc]; rfl⟩
  · have halive : (m.find n).map (·.status) = some .alive := by rw [hp, Option.map_some, hexp.1]
    refine ⟨fun hs => ?_, fun _ => ?_⟩
    · rw [hfind] at hs
      simp at hs
    · rw [hevents]
      refine ⟨leave (hm.alive halive).1, ?_⟩
      rw [last?_snoc]
      simp [change?]

theorem lifeCycled_run (timeoutMs : UInt32) (ops : List MonitorOp) (n : UInt8) :
    (run timeoutMs ops).LifeCycled n := by
  induction ops using List.reverseRecOn with
  | nil => exact ⟨nofun, fun _ => ⟨nil_mem_turns, nofun⟩⟩
  | append_singleton ops op ih => rw [run_snoc]; exact lifeCycled_act (traced_run timeoutMs ops) ih op

end LifeCycled

/-! ## The nodes alive -/

section AliveCount

variable {σ : Type} {timeoutMs : UInt32} {m : Monitor Trace}

/-- The counter of `rjs_monitor_alive_count` does not wrap over a table of 16. -/
theorem aliveCount_eq (m : Monitor σ) (hl : m.peers.length ≤ monitorMaxNodes) :
    m.aliveCount.toNat = m.peers.countP (·.status = .alive) := by
  have hloop : ∀ (ps : List Peer) (n : UInt8), n.toNat + ps.length < 256 →
      (ps.foldl (fun n p => if p.status = .alive then n + 1 else n) n).toNat =
        n.toNat + ps.countP (·.status = .alive) := by
    intro ps
    induction ps with
    | nil => simp
    | cons p ps ih =>
      intro n hn
      rw [List.length_cons] at hn
      rw [List.foldl_cons, List.countP_cons]
      by_cases hp : p.status = .alive
      · have hstep : (n + 1).toNat = n.toNat + 1 := by
          rw [UInt8.toNat_add]
          exact Nat.mod_eq_of_lt (by simp; omega)
        rw [if_pos hp, ih _ (by omega), hstep]
        simp [hp]
        omega
      · rw [if_neg hp, ih _ (by omega)]
        simp [hp]
  have h16 : m.peers.length ≤ 16 := hl
  rw [aliveCount, hloop m.peers 0 (by simp; omega)]
  simp

/-- How often an event has been reported, of any node. -/
def reported (ev : MonitorEvent) (trace : Trace) : Nat := trace.countP (·.1 = ev)

/-- The nodes alive and the nodes lost make up the nodes joined. -/
def Accounted (m : Monitor Trace) : Prop :=
  m.peers.countP (·.status = .alive) + reported .nodeLost m.user = reported .nodeJoined m.user

/-- A poll loses the nodes it stops counting. -/
theorem countP_expire (timeoutMs nowMs : UInt32) (ps : List Peer) :
    (ps.map (Peer.expire timeoutMs nowMs)).countP (·.status = .alive) +
      (ps.filter (·.Expired timeoutMs nowMs)).length = ps.countP (·.status = .alive) := by
  induction ps with
  | nil => rfl
  | cons p ps ih =>
    rw [List.map_cons, List.countP_cons, List.countP_cons, List.filter_cons, ← ih, Peer.expire]
    by_cases hexp : p.Expired timeoutMs nowMs
    · have halive : p.status = .alive := hexp.1
      simp [hexp, halive]
      omega
    · simp [hexp]
      omega

theorem accounted_act (h : m.Traced timeoutMs) (hm : m.Accounted) (op : MonitorOp) :
    (m.act op).Accounted := by
  unfold Accounted at hm ⊢
  cases op with
  | heartbeat node hb t =>
    simp only [act]
    by_cases hacc : m.Accepts node
    · rw [onHeartbeat_accepted hb (wrap t) hacc, h.cb]
      dsimp only
      have hput := @Table.countP_put _ _ _ Peer.node (fun p => decide (p.status = .alive))
        m.peers ((m.entry node).hear hb (wrap t))
      have hkey : ((m.entry node).hear hb (wrap t)).node = node := m.entry_node node
      have halive : decide (((m.entry node).hear hb (wrap t)).status = .alive) = true := rfl
      rw [hkey, ← find, halive, if_pos rfl] at hput
      -- the node was counted before iff its entry is alive, and else it joins now
      have hbefore : (m.find node).toList.countP (fun p => decide (p.status = .alive)) =
          if (m.entry node).status = .alive then 1 else 0 := by
        rw [entry]
        cases m.find node with
        | none => simp [Peer.new]
        | some p => simp [List.countP_cons]
      rw [hbefore] at hput
      unfold Peer.heardEvent reported at *
      by_cases hs : (m.entry node).status = .alive
      · rw [if_pos hs] at hput
        rw [if_neg (not_not.mpr hs)]
        split <;> simp [notify, record] <;> omega
      · rw [if_neg hs] at hput
        rw [if_pos hs]
        simp [notify, record]
        omega
    · rw [onHeartbeat_refused hb (wrap t) hacc]
      exact hm
  | poll t =>
    have hexp := countP_expire timeoutMs (wrap t) m.peers
    simp only [act, poll_eq, h.cb, h.timeout, record_lost, reported, List.countP_append,
      List.countP_map] at hm ⊢
    simp [Function.comp_def] at hexp hm ⊢
    omega

theorem accounted_run (timeoutMs : UInt32) (ops : List MonitorOp) :
    (run timeoutMs ops).Accounted := by
  induction ops using List.reverseRecOn with
  | nil => rfl
  | append_singleton ops op ih => rw [run_snoc]; exact accounted_act (traced_run timeoutMs ops) ih op

end AliveCount

/-- **Reports follow the life cycle.** In every run, whatever the times and the callback, which is
told the reports and nothing else: the events of a node are a prefix of a word of
`(JOINED REBOOTED* LOST)*`, the node is alive iff the last of them about its coming or going is
JOINED, and the alive count is the number of JOINED less the number of LOST. -/
theorem reports_follow_lifeCycle {σ : Type} (timeoutMs : UInt32) (cb : Option (MonitorCb σ))
    (user : σ) (ops : List MonitorOp) :
    (runWith timeoutMs cb user ops).user = told cb user (run timeoutMs ops).user ∧
    (∀ n, ∃ w ∈ lifeCycle, eventsOf (run timeoutMs ops).user n <+: w) ∧
    (∀ n, ((runWith timeoutMs cb user ops).find n).map (·.status) = some .alive ↔
      last? change? (eventsOf (run timeoutMs ops).user n) = some .nodeJoined) ∧
    ((runWith timeoutMs cb user ops).aliveCount.toNat : Int) =
      reported .nodeJoined (run timeoutMs ops).user -
        reported .nodeLost (run timeoutMs ops).user := by
  obtain ⟨hpeers, huser⟩ := runWith_eq timeoutMs cb user ops
  refine ⟨huser, fun n => ?_, fun n => ?_, ?_⟩
  · have hn := lifeCycled_run timeoutMs ops n
    by_cases hs : ((run timeoutMs ops).find n).map (·.status) = some .alive
    · exact prefix_of_inside (hn.alive hs).1
    · exact prefix_of_turns (hn.silent hs).1
  · have hn := lifeCycled_run timeoutMs ops n
    rw [find, hpeers, ← find]
    exact ⟨fun hs => (hn.alive hs).2, fun hlast => by_contra fun hs => (hn.silent hs).2 hlast⟩
  · have hcount := accounted_run timeoutMs ops
    unfold Accounted at hcount
    rw [aliveCount_eq _ (by rw [hpeers]; exact run_length timeoutMs ops), hpeers]
    omega

end Monitor
end Rjs
