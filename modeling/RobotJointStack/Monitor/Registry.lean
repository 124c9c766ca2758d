import Mathlib.Data.Finset.Card
import RobotJointStack.Monitor.Callback

/-!
# Monitor.Registry

The table as a finite map from nodes to what they last said. The map is the one that the accepted
heartbeats of the run spell out, and the table lists its nodes in the order they first came.

* `registers_run`: the table after every run, as that map and that order.
* `onHeartbeat_iff`: which heartbeats are accepted.
* `table_is_finite_map`: the rules of the table.
-/

namespace Rjs
namespace Monitor

open WrapClock

/-- A heartbeat as the monitor receives it. -/
structure Beat where
  node : UInt8
  hb : Heartbeat
  time : Nat
deriving DecidableEq

variable {σ : Type}

/-- The heartbeat of an operation, where the monitor accepts it. -/
def acceptedBeat? (m : Monitor σ) : MonitorOp → Option Beat
  | .heartbeat node hb time =>
    if (m.onHeartbeat node (some hb) (wrap time)).1 then some ⟨node, hb, time⟩ else none
  | .poll _ => none

/-- The heartbeats accepted on the way through `ops`. -/
def acceptedBeats (m : Monitor σ) : List MonitorOp → List Beat
  | [] => []
  | op :: ops => (acceptedBeat? m op).toList ++ acceptedBeats (m.actWith op) ops

theorem acceptedBeats_snoc (m : Monitor σ) (ops : List MonitorOp) (op : MonitorOp) :
    acceptedBeats m (ops ++ [op]) =
      acceptedBeats m ops ++ (acceptedBeat? (ops.foldl actWith m) op).toList := by
  induction ops generalizing m with
  | nil => simp [acceptedBeats]
  | cons first ops ih => simp [acceptedBeats, ih]

def beatsOf (n : UInt8) (beats : List Beat) : List Beat := beats.filter (·.node = n)

/-- What a table entry says besides its status. -/
def contents (p : Peer) : UInt8 × Heartbeat × UInt32 × UInt32 :=
  (p.node, p.last, p.lastSeenMs, p.heartbeats)

/-- What the heartbeats of a node come to. -/
def summary (beats : List Beat) : Option (UInt8 × Heartbeat × UInt32 × UInt32) :=
  beats.getLast?.map fun b => (b.node, b.hb, wrap b.time, UInt32.ofNat beats.length)

/-- The table is the map that the accepted heartbeats spell out. -/
structure Registers (m : Monitor σ) (beats : List Beat) : Prop where
  nodes : m.peers.map Peer.node = (beats.map Beat.node).eraseDups
  fits : m.peers.length ≤ monitorMaxNodes
  valid : ∀ b ∈ beats, b.node ≠ nodeBroadcast ∧ b.node ≤ nodeIdMax
  known : ∀ p ∈ m.peers, p.status ≠ .unknown
  entries : ∀ n, (m.find n).map contents = summary (beatsOf n beats)

section Registers

variable {m : Monitor σ} {beats : List Beat}

theorem registers_init (timeoutMs : UInt32) (cb : Option (MonitorCb σ)) (user : σ) :
    Registers (init timeoutMs cb user) [] where
  nodes := rfl
  fits := Nat.zero_le _
  valid := fun _ hb => absurd hb List.not_mem_nil
  known := fun _ hp => absurd hp List.not_mem_nil
  entries := fun _ => rfl

theorem Registers.find_eq_none (h : m.Registers beats) {n : UInt8} :
    m.find n = none ↔ n ∉ beats.map Beat.node := by
  rw [← List.mem_eraseDups, ← h.nodes, find, Table.lookup_eq_none]
  simp

theorem onHeartbeat_iff (node : UInt8) (hb : Heartbeat) (nowMs : UInt32) :
    (m.onHeartbeat node (some hb) nowMs).1 = true ↔ m.Accepts node := by
  by_cases hacc : m.Accepts node
  · rw [onHeartbeat_accepted hb nowMs hacc]; exact iff_of_true rfl hacc
  · rw [onHeartbeat_refused hb nowMs hacc]; exact iff_of_false Bool.false_ne_true hacc

/-- A node that is heard goes to its old place, or to the end if it is new. -/
theorem eraseDups_snoc (l : List UInt8) (n : UInt8) :
    (l ++ [n]).eraseDups = l.eraseDups ++ if n ∈ l then [] else [n] := by
  rw [List.eraseDups_append]
  by_cases hn : n ∈ l <;> simp [List.removeAll, List.eraseDups_cons, hn]

theorem nodup_eraseDups (l : List UInt8) : l.eraseDups.Nodup := by
  induction l using List.reverseRecOn with
  | nil => exact List.nodup_nil
  | append_singleton l n ih =>
    rw [eraseDups_snoc, List.nodup_append]
    refine ⟨ih, by split <;> simp, fun a ha b hb => ?_⟩
    split at hb
    · exact absurd hb List.not_mem_nil
    · rename_i hn
      rw [List.mem_singleton.mp hb]
      exact fun hab => hn (hab ▸ List.mem_eraseDups.mp ha)

theorem registers_heard (h : m.Registers beats) {node : UInt8} (hb : Heartbeat) (t : Nat)
    (hacc : m.Accepts node) :
    (m.onHeartbeat node (some hb) (wrap t)).2.Registers (beats ++ [⟨node, hb, t⟩]) := by
  have hfind := find_onHeartbeat hb (wrap t) hacc
  have hnodes := nodes_onHeartbeat hb (wrap t) hacc
  have hlength := length_onHeartbeat hb (wrap t) hacc h.fits
  rw [onHeartbeat_accepted hb (wrap t) hacc] at hfind hnodes hlength ⊢
  refine ⟨?_, hlength, fun b hb => ?_, fun p hp => ?_, fun n => ?_⟩
  · rw [hnodes, h.nodes, List.map_append, List.map_singleton, eraseDups_snoc]
    by_cases hnone : m.find node = none
    · rw [if_pos hnone, if_neg (h.find_eq_none.mp hnone)]
    · rw [if_neg hnone, if_pos (not_not.mp (mt h.find_eq_none.mpr hnone))]
  · cases List.mem_append.mp hb with
    | inl hb => exact h.valid b hb
    | inr hb =>
      rw [List.mem_singleton.mp hb]
      exact ⟨hacc.1, hacc.2.1⟩
  · cases Table.mem_put hp with
    | inl hp => rw [hp]; exact nofun
    | inr hp => exact h.known p hp
  · rw [hfind]
    by_cases hn : node = n
    · subst hn
      have hentry := h.entries node
      have hcount : (m.entry node).heartbeats = UInt32.ofNat (beatsOf node beats).length := by
        rw [entry]
        cases hp : m.find node with
        | none =>
          rw [hp, summary, Option.map_none, eq_comm, Option.map_eq_none_iff,
            List.getLast?_eq_none_iff] at hentry
          rw [hentry]; rfl
        | some p =>
          rw [hp, summary, Option.map_some, eq_comm, Option.map_eq_some_iff] at hentry
          obtain ⟨b, -, hb⟩ := hentry
          exact (congrArg (·.2.2.2) hb).symm
      rw [if_pos rfl, beatsOf, List.filter_append, ← beatsOf]
      simp [summary, contents, Peer.hear, hcount, m.entry_node node]
    · rw [if_neg hn, h.entries, beatsOf, beatsOf, List.filter_append]
      simp [hn]

theorem registers_polled (h : m.Registers beats) (nowMs : UInt32) :
    (m.poll nowMs).Registers beats := by
  have hfind := find_poll nowMs m
  rw [poll_eq] at hfind ⊢
  refine ⟨?_, ?_, h.valid, fun p hp => ?_, fun n => ?_⟩
  · rw [← h.nodes, List.map_map]
    exact List.map_congr_left fun p _ => p.expire_node m.timeoutMs nowMs
  · rw [List.length_map]; exact h.fits
  · obtain ⟨q, hq, rfl⟩ := List.mem_map.mp hp
    have hs := h.known q hq
    unfold Peer.expire
    split
    · exact nofun
    · exact hs
  · have hkeep : contents ∘ Peer.expire m.timeoutMs nowMs = contents := by
      funext p
      rw [Function.comp_apply, Peer.expire]
      split <;> rfl
    rw [hfind, Option.map_map, hkeep, h.entries]

theorem registers_run (timeoutMs : UInt32) (cb : Option (MonitorCb σ)) (user : σ)
    (ops : List MonitorOp) :
    (runWith timeoutMs cb user ops).Registers (acceptedBeats (init timeoutMs cb user) ops) := by
  induction ops using List.reverseRecOn with
  | nil => exact registers_init timeoutMs cb user
  | append_singleton ops op ih =>
    rw [runWith_snoc, acceptedBeats_snoc, ← runWith]
    cases op with
    | heartbeat node hb t =>
      by_cases hacc : (runWith timeoutMs cb user ops).Accepts node
      · rw [acceptedBeat?, if_pos ((onHeartbeat_iff node hb (wrap t)).mpr hacc)]
        exact registers_heard ih hb t hacc
      · rw [acceptedBeat?, if_neg (mt (onHeartbeat_iff node hb (wrap t)).mp hacc), actWith,
          onHeartbeat_refused hb (wrap t) hacc]
        simpa using ih
    | poll t =>
      rw [acceptedBeat?, Option.toList_none, List.append_nil]
      exact registers_polled ih (wrap t)

end Registers

/-- What the table says, and what it accepts next, after the heartbeats `beats`. -/
structure FiniteMap (m : Monitor σ) (beats : List Beat) : Prop where
  fits : m.peers.length ≤ monitorMaxNodes
  distinct : (m.peers.map Peer.node).Nodup
  valid : ∀ p ∈ m.peers, 1 ≤ p.node ∧ p.node ≤ 127 ∧ p.status ≠ .unknown
  /-- A heartbeat is accepted iff its node is valid, and known or one of the first 16. -/
  accepts : ∀ node hb nowMs, (m.onHeartbeat node (some hb) nowMs).1 = true ↔
    1 ≤ node ∧ node ≤ 127 ∧
      ((∃ p, m.find node = some p) ∨ (beats.map Beat.node).toFinset.card < monitorMaxNodes)
  finds : ∀ n, (∃ p, m.find n = some p) ↔ ∃ b ∈ beats, b.node = n
  /-- An entry holds the last heartbeat, its time and how many there were. -/
  entry : ∀ n p, m.find n = some p → p.node = n ∧
    ∃ b, (beatsOf n beats).getLast? = some b ∧ p.last = b.hb ∧ p.lastSeenMs = wrap b.time ∧
      p.heartbeats = UInt32.ofNat (beatsOf n beats).length

theorem one_le_iff {n : UInt8} : 1 ≤ n ↔ n ≠ nodeBroadcast := by
  rw [UInt8.le_iff_toNat_le, Ne, ← UInt8.toNat_inj]
  simp [nodeBroadcast]
  omega

theorem Registers.finiteMap {m : Monitor σ} {beats : List Beat} (h : m.Registers beats) :
    m.FiniteMap beats := by
  have hsome : ∀ n, (∃ p, m.find n = some p) ↔ ∃ b ∈ beats, b.node = n := by
    intro n
    rw [← List.mem_map, ← not_iff_not, ← h.find_eq_none, Option.eq_none_iff_forall_ne_some]
    simp
  refine ⟨h.fits, ?_, fun p hp => ?_, fun node hb nowMs => ?_, hsome, fun n p hp => ?_⟩
  · rw [h.nodes]; exact nodup_eraseDups _
  · have hnode : p.node ∈ (beats.map Beat.node).eraseDups := by
      rw [← h.nodes]; exact List.mem_map_of_mem hp
    obtain ⟨b, hb, hbn⟩ := List.mem_map.mp (List.mem_eraseDups.mp hnode)
    have hvalid := h.valid b hb
    rw [hbn] at hvalid
    exact ⟨one_le_iff.mpr hvalid.1, hvalid.2, h.known p hp⟩
  · have hcard : (beats.map Beat.node).toFinset.card = m.peers.length := by
      rw [← List.length_map Peer.node, h.nodes,
        ← List.toFinset_card_of_nodup (nodup_eraseDups _)]
      congr 1
      ext n
      simp
    rw [onHeartbeat_iff, Accepts, hcard, ← one_le_iff]
    refine and_congr_right fun _ => and_congr_right fun _ => ?_
    cases hp : m.find node <;> simp
  · have hentry := h.entries n
    rw [hp, summary, Option.map_some, eq_comm, Option.map_eq_some_iff] at hentry
    obtain ⟨b, hb, hcontents⟩ := hentry
    simp only [contents, Prod.mk.injEq] at hcontents
    obtain ⟨-, hlast, hseen, hcount⟩ := hcontents
    exact ⟨Table.key_of_lookup hp, b, hb, hlast.symm, hseen.symm, hcount.symm⟩

/-- A refused heartbeat, also one that is missing, changes nothing and reports nothing. -/
theorem onHeartbeat_unchanged (m : Monitor σ) (node : UInt8) (hb : Option Heartbeat)
    (nowMs : UInt32) (h : (m.onHeartbeat node hb nowMs).1 = false) :
    (m.onHeartbeat node hb nowMs).2 = m := by
  cases hb with
  | none => rfl
  | some hb =>
    have hacc : ¬m.Accepts node := by
      rw [← onHeartbeat_iff node hb nowMs, h]; exact Bool.false_ne_true
    rw [onHeartbeat_refused hb nowMs hacc]

/-- **The table is a finite map.** After every run from `rjs_monitor_init`, whatever the callback:
the table is the map of the heartbeats it has accepted, it only grows at its end, and a refused
heartbeat changes nothing. -/
theorem table_is_finite_map (timeoutMs : UInt32) (cb : Option (MonitorCb σ)) (user : σ)
    (ops : List MonitorOp) :
    (runWith timeoutMs cb user ops).FiniteMap (acceptedBeats (init timeoutMs cb user) ops) ∧
    (∀ more, (runWith timeoutMs cb user ops).peers.map Peer.node <+:
      (runWith timeoutMs cb user (ops ++ more)).peers.map Peer.node) ∧
    (∀ node hb nowMs, ((runWith timeoutMs cb user ops).onHeartbeat node hb nowMs).1 = false →
      ((runWith timeoutMs cb user ops).onHeartbeat node hb nowMs).2 =
        runWith timeoutMs cb user ops) := by
  refine ⟨(registers_run timeoutMs cb user ops).finiteMap, fun more => ?_,
    onHeartbeat_unchanged (runWith timeoutMs cb user ops)⟩
  induction more using List.reverseRecOn with
  | nil => rw [List.append_nil]
  | append_singleton more op ih =>
    refine ih.trans ?_
    rw [(registers_run timeoutMs cb user (ops ++ more)).nodes, ← List.append_assoc,
      (registers_run timeoutMs cb user (ops ++ more ++ [op])).nodes, acceptedBeats_snoc,
      List.map_append, List.eraseDups_append]
    exact List.prefix_append _ _

end Monitor
end Rjs
