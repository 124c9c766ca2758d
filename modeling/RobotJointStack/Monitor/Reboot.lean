import RobotJointStack.Lib.History
import RobotJointStack.Monitor.Run

/-!
# Monitor.Reboot

Reboot detection for a node that never restarts. Its uptimes only grow, but they arrive wrapped to
32 bits and the monitor compares them, so the node is reported when its counter wraps.

* `rebooted_iff`: a heartbeat is taken for a reboot iff the counter has wrapped since the last one
  and the node is still alive.
* `never_rebooted_iff`: so a run reports no reboot iff no wrap falls between two such heartbeats.
-/

namespace Rjs
namespace Monitor

open History WrapClock

def MonitorOp.isBeat (n : UInt8) : MonitorOp → Bool
  | .heartbeat node _ _ => node = n
  | .poll _ => false

/-- How many heartbeats of `n` there are. -/
def beats (n : UInt8) (ops : List MonitorOp) : Nat := ops.countP (MonitorOp.isBeat n)

/-- The heartbeats of `n` carry the true uptimes `uptime 0`, `uptime 1`, ... of a node that never
restarts, wrapped to 32 bits. -/
structure KeepsRunning (n : UInt8) (uptime : Nat → Nat) (ops : List MonitorOp) : Prop where
  carries : AtEach (fun before op => ∀ hb t, op = .heartbeat n hb t →
    hb.uptimeMs = wrap (uptime (beats n before))) ops
  grows : ∀ i, uptime i ≤ uptime (i + 1)
  close : ∀ i, uptime (i + 1) < uptime i + 2 ^ 31

/-- The table lists node `n` as alive. -/
def IsAlive (m : Monitor Trace) (n : UInt8) : Prop := (m.find n).map (·.status) = some .alive

instance (m : Monitor Trace) (n : UInt8) : Decidable (m.IsAlive n) :=
  inferInstanceAs (Decidable (_ = _))

/-- No heartbeat of `n` that finds it alive comes from the other side of a wrap of its counter. -/
def NoWrapWhileAlive (timeoutMs : UInt32) (n : UInt8) (uptime : Nat → Nat)
    (ops : List MonitorOp) : Prop :=
  AtEach (fun before op => ∀ i, op.isBeat n = true → beats n before = i + 1 →
    (run timeoutMs before).IsAlive n → uptime i / 2 ^ 32 = uptime (i + 1) / 2 ^ 32) ops

section Reboot

variable {timeoutMs : UInt32} {n : UInt8} {uptime : Nat → Nat} {ops : List MonitorOp}

theorem beats_snoc (op : MonitorOp) :
    beats n (ops ++ [op]) = beats n ops + if op.isBeat n then 1 else 0 := by
  rw [beats, List.countP_append, List.countP_singleton, ← beats]

theorem KeepsRunning.init {op : MonitorOp} (h : KeepsRunning n uptime (ops ++ [op])) :
    KeepsRunning n uptime ops := ⟨(atEach_snoc.mp h.carries).1, h.grows, h.close⟩

/-- The entry of `n` holds the uptime of its latest heartbeat. -/
theorem last_uptime (h : KeepsRunning n uptime ops) {p : Peer}
    (hp : (run timeoutMs ops).find n = some p) :
    ∃ i, beats n ops = i + 1 ∧ p.last.uptimeMs = wrap (uptime i) := by
  induction ops using List.reverseRecOn generalizing p with
  | nil => cases hp
  | append_singleton ops op ih =>
    have hcarry := (atEach_snoc.mp h.carries).2
    have htraced := traced_run timeoutMs ops
    rw [run_snoc, act.eq_def] at hp
    rw [beats_snoc]
    cases op with
    | heartbeat node hb t =>
      dsimp only at hp
      by_cases hn : node = n
      · subst hn
        have hbeat : (MonitorOp.heartbeat node hb t).isBeat node = true := by
          simp [MonitorOp.isBeat]
        by_cases hacc : (run timeoutMs ops).Accepts node
        · rw [find_onHeartbeat hb (wrap t) hacc, if_pos rfl] at hp
          cases hp
          exact ⟨beats node ops, by rw [hbeat]; rfl, hcarry hb t rfl⟩
        · rw [onHeartbeat_refused hb (wrap t) hacc] at hp
          exact absurd (accepts_of_find htraced hp) hacc
      · have hbeat : (MonitorOp.heartbeat node hb t).isBeat n = false := by
          simp [MonitorOp.isBeat, hn]
        have hsame : (run timeoutMs ops).find n = some p := by
          by_cases hacc : (run timeoutMs ops).Accepts node
          · rwa [find_onHeartbeat hb (wrap t) hacc, if_neg hn] at hp
          · rwa [onHeartbeat_refused hb (wrap t) hacc] at hp
        rw [hbeat]
        exact ih h.init hsame
    | poll t =>
      dsimp only at hp
      rw [find_poll, Option.map_eq_some_iff] at hp
      obtain ⟨q, hq, rfl⟩ := hp
      obtain ⟨i, hi, hup⟩ := ih h.init hq
      refine ⟨i, hi, ?_⟩
      rw [← hup]
      unfold Peer.expire
      split <;> rfl

theorem heardEvent_rebooted {p : Peer} {hb : Heartbeat} :
    p.heardEvent hb = some .nodeRebooted ↔ p.status = .alive ∧ hb.uptimeMs < p.last.uptimeMs := by
  unfold Peer.heardEvent
  split
  · rename_i hs
    exact iff_of_false nofun fun h => hs h.1
  · rename_i hs
    rw [not_not] at hs
    split <;> simp_all

/-- A heartbeat of `n` is taken for a reboot iff `n` is alive and its counter has wrapped. -/
theorem rebooted_iff {hb : Heartbeat} {t : Nat}
    (h : KeepsRunning n uptime (ops ++ [.heartbeat n hb t])) :
    ((run timeoutMs ops).entry n).heardEvent hb = some .nodeRebooted ↔
      (run timeoutMs ops).IsAlive n ∧
        ∃ i, beats n ops = i + 1 ∧ uptime i / 2 ^ 32 ≠ uptime (i + 1) / 2 ^ 32 := by
  rw [heardEvent_rebooted, IsAlive, entry]
  cases hp : (run timeoutMs ops).find n with
  | none => simp [Peer.new]
  | some p =>
    obtain ⟨i, hi, hup⟩ := last_uptime h.init hp
    have hcarry := (atEach_snoc.mp h.carries).2 hb t rfl
    have hclose := h.close i
    rw [hi] at hcarry
    simp only [Option.getD_some, Option.map_some, Option.some.injEq, hcarry, hup, hi,
      Nat.add_right_cancel_iff, exists_eq_left']
    rw [wrap_lt_wrap_iff (h.grows i) (by omega)]

/-- What one operation adds to the reports of a reboot. -/
theorem rebooted_snoc {op : MonitorOp} (h : KeepsRunning n uptime (ops ++ [op])) :
    .nodeRebooted ∈ eventsOf (run timeoutMs (ops ++ [op])).user n ↔
      .nodeRebooted ∈ eventsOf (run timeoutMs ops).user n ∨
        (op.isBeat n = true ∧ (run timeoutMs ops).IsAlive n ∧
          ∃ i, beats n ops = i + 1 ∧ uptime i / 2 ^ 32 ≠ uptime (i + 1) / 2 ^ 32) := by
  have htraced := traced_run timeoutMs ops
  rw [run_snoc, act.eq_def]
  cases op with
  | poll t =>
    dsimp only
    rw [eventsOf_poll htraced, List.mem_append]
    refine or_congr_right (iff_of_false (fun hm => ?_) fun hb => ?_)
    · obtain ⟨p, -, hp⟩ := List.mem_map.mp hm
      cases hp
    · cases hb.1
  | heartbeat node hb t =>
    dsimp only
    by_cases hacc : (run timeoutMs ops).Accepts node
    · rw [eventsOf_onHeartbeat htraced hb (wrap t) hacc, List.mem_append]
      refine or_congr_right ?_
      by_cases hn : node = n
      · subst hn
        rw [if_pos rfl, Option.mem_toList, rebooted_iff h]
        simp [MonitorOp.isBeat]
      · simp [MonitorOp.isBeat, hn]
    · rw [onHeartbeat_refused hb (wrap t) hacc]
      refine (or_iff_left ?_).symm
      rintro ⟨hbeat, halive, -⟩
      obtain rfl : node = n := by simpa [MonitorOp.isBeat] using hbeat
      obtain ⟨p, hp, -⟩ := Option.map_eq_some_iff.mp halive
      exact hacc (accepts_of_find htraced hp)

theorem noWrapWhileAlive_snoc {op : MonitorOp} :
    NoWrapWhileAlive timeoutMs n uptime (ops ++ [op]) ↔
      NoWrapWhileAlive timeoutMs n uptime ops ∧
        ∀ i, op.isBeat n = true → beats n ops = i + 1 → (run timeoutMs ops).IsAlive n →
          uptime i / 2 ^ 32 = uptime (i + 1) / 2 ^ 32 := atEach_snoc

/-- **False reboot reports.** A run reports no reboot of a node that never restarts exactly when
no wrap of its uptime counter falls between two heartbeats the second of which finds it alive. -/
theorem never_rebooted_iff (h : KeepsRunning n uptime ops) :
    .nodeRebooted ∉ eventsOf (run timeoutMs ops).user n ↔
      NoWrapWhileAlive timeoutMs n uptime ops := by
  induction ops using List.reverseRecOn with
  | nil => exact iff_of_true List.not_mem_nil (atEach_nil _)
  | append_singleton ops op ih =>
    rw [rebooted_snoc h, not_or, ih h.init, noWrapWhileAlive_snoc]
    refine and_congr_right fun _ => ?_
    constructor
    · intro hno i hbeat hi halive
      by_contra hne
      exact hno ⟨hbeat, halive, i, hi, hne⟩
    · rintro hall ⟨hbeat, halive, i, hi, hne⟩
      exact hne (hall i hbeat hi halive)

end Reboot

/-- Two heartbeats of a node that never restarts. -/
theorem keepsRunning_pair {n : UInt8} {uptime : Nat → Nat} {hb₁ hb₂ : Heartbeat} {s t : Nat}
    (h₁ : hb₁.uptimeMs = wrap (uptime 0)) (h₂ : hb₂.uptimeMs = wrap (uptime 1))
    (hgrows : ∀ i, uptime i ≤ uptime (i + 1)) (hclose : ∀ i, uptime (i + 1) < uptime i + 2 ^ 31) :
    KeepsRunning n uptime [.heartbeat n hb₁ s, .heartbeat n hb₂ t] where
  carries := by
    show AtEach _ (([] ++ [_]) ++ [_])
    refine atEach_snoc.mpr ⟨atEach_snoc.mpr ⟨atEach_nil _, fun hb t h => ?_⟩, fun hb t h => ?_⟩
    · cases h; exact h₁
    · cases h; simpa [beats, MonitorOp.isBeat] using h₂
  grows := hgrows
  close := hclose

theorem never_rebooted_slow :
    .nodeRebooted ∉ eventsOf (run 350 [.heartbeat 7 ⟨2, 0, 100, 0, 1, 0⟩ 0,
      .heartbeat 7 ⟨2, 0, 200, 0, 1, 0⟩ 100]).user 7 :=
  (@never_rebooted_iff 350 7 (fun i => min (100 * (i + 1)) 4000) _
    (keepsRunning_pair rfl rfl (fun i => by omega)
      (fun i => by omega))).mpr
    (fun _ _ _ _ _ _ _ _ =>
      (Nat.div_eq_of_lt ((min_le_right _ _).trans_lt (by decide))).trans
        (Nat.div_eq_of_lt ((min_le_right _ _).trans_lt (by decide))).symm)

/-- The wrap of an uptime counter is reported as a reboot. -/
theorem rebooted_by_wrap :
    ¬∀ (timeoutMs : UInt32) (n : UInt8) (uptime : Nat → Nat) (ops : List MonitorOp),
      KeepsRunning n uptime ops → .nodeRebooted ∉ eventsOf (run timeoutMs ops).user n := by
  intro h
  have hno := h 350 7 (fun i => 4294967295 + i) [.heartbeat 7 ⟨2, 0, 4294967295, 0, 1, 0⟩ 0,
    .heartbeat 7 ⟨2, 0, 0, 0, 1, 0⟩ 1] (keepsRunning_pair rfl rfl (fun i => by omega)
      (fun i => by omega))
  exact hno (by decide)

end Monitor
end Rjs
