import RobotJointStack.App.Bus
import RobotJointStack.Lib.WrapClock

/-!
# App.Loop

The loop of `control_task` in time: the period it measures with the cycle counter, and the frames it
sends. Cycle counter and `ticks` are 32 bits wide and wrap.

* `measures_iterate`: what one iteration adds to the statistics.
* `loop_timing`: the jitter is that of the worst iteration measured, and what an overrun is.
* `state_cadence`: a state frame goes out with one in ten iterations, also when `ticks` wraps.
-/

namespace Rjs

open WrapClock

/-- The locals of the loop that the measurement needs, and its statistics. -/
structure LoopTiming where
  lastCycles : UInt32
  ticks : UInt32
  jitterMaxUs : UInt32
  overruns : UInt32
  loopCount : UInt32

namespace LoopTiming

def start (cycles : UInt32) : LoopTiming := ⟨cycles, 0, 0, 0, 0⟩

/-- The deviation of a period from 1000 us. -/
def deviation (periodUs : UInt32) : UInt32 :=
  if periodUs > 1000 then periodUs - 1000 else 1000 - periodUs

/-- One iteration, from what `board_cycles` says at its start. -/
def iterate (cycPerUs : UInt32) (s : LoopTiming) (now : UInt32) : LoopTiming :=
  let periodUs := (now - s.lastCycles) / cycPerUs
  let s := { s with lastCycles := now }
  -- skip start-up
  let s :=
    if s.ticks > 10 then
      let dev := deviation periodUs
      let s := if dev > s.jitterMaxUs then { s with jitterMaxUs := dev } else s
      if periodUs > 2000 then { s with overruns := s.overruns + 1 } else s
    else s
  { s with ticks := s.ticks + 1, loopCount := s.loopCount + 1 }

/-- The first iterations of a loop that starts at the time `t 0`, each of them at a time of its own,
in cycles. -/
def run (cycPerUs : UInt32) (t : Nat → Nat) (n : Nat) : LoopTiming :=
  ((List.range n).map fun k => wrap (t (k + 1))).foldl (iterate cycPerUs) (start (wrap (t 0)))

/-- The iterations that are measured: not the first eleven, nor those after a wrap of `ticks`. -/
def Measured (k : Nat) : Prop := 10 < k % 2 ^ 32

instance : DecidablePred Measured := fun _ => inferInstanceAs (Decidable (_ < _))

/-- The period before iteration `k`, in whole microseconds. -/
def period (cycPerUs : UInt32) (t : Nat → Nat) (k : Nat) : Nat :=
  (t (k + 1) - t k) / cycPerUs.toNat

structure Measures (cycPerUs : UInt32) (t : Nat → Nat) (n : Nat) (s : LoopTiming) : Prop where
  lastCycles : s.lastCycles = wrap (t n)
  ticks : s.ticks = UInt32.ofNat n
  loopCount : s.loopCount = UInt32.ofNat n
  le : ∀ k < n, Measured k → (deviation (wrap (period cycPerUs t k))).toNat ≤ s.jitterMaxUs.toNat
  attained : s.jitterMaxUs = 0 ∨
    ∃ k < n, Measured k ∧ s.jitterMaxUs = deviation (wrap (period cycPerUs t k))
  overruns : s.overruns = UInt32.ofNat
    ((List.range n).countP fun k => Measured k ∧ 2000 < period cycPerUs t k)

section Run

variable {cycPerUs : UInt32} {t : Nat → Nat} {n : Nat} {s : LoopTiming}

theorem measures_start : Measures cycPerUs t 0 (start (wrap (t 0))) where
  lastCycles := rfl
  ticks := rfl
  loopCount := rfl
  le := nofun
  attained := .inl rfl
  overruns := rfl

/-- The period is measured right, also when the cycle counter wraps. -/
theorem periodUs_eq (h : Measures cycPerUs t n s) (hmono : t n ≤ t (n + 1))
    (hlt : t (n + 1) - t n < 2 ^ 32) :
    (wrap (t (n + 1)) - s.lastCycles) / cycPerUs = wrap (period cycPerUs t n) := by
  apply UInt32.toNat_inj.mp
  rw [h.lastCycles, UInt32.toNat_div, toNat_wrap_sub hmono hlt, toNat_wrap]
  exact (Nat.mod_eq_of_lt (Nat.lt_of_le_of_lt (Nat.div_le_self _ _) hlt)).symm

theorem ticks_gt_iff (h : s.ticks = UInt32.ofNat n) : s.ticks > 10 ↔ Measured n := by
  rw [h, gt_iff_lt, UInt32.lt_iff_toNat_lt, UInt32.toNat_ofNat']
  exact Iff.rfl

theorem iterate_jitter (s : LoopTiming) (cycPerUs now : UInt32) :
    (s.iterate cycPerUs now).jitterMaxUs =
      let dev := deviation ((now - s.lastCycles) / cycPerUs)
      if s.ticks > 10 ∧ dev > s.jitterMaxUs then dev else s.jitterMaxUs := by
  dsimp only [iterate]
  split_ifs <;> first | rfl | tauto

theorem iterate_overruns (s : LoopTiming) (cycPerUs now : UInt32) :
    (s.iterate cycPerUs now).overruns =
      if s.ticks > 10 ∧ (now - s.lastCycles) / cycPerUs > 2000 then s.overruns + 1
      else s.overruns := by
  dsimp only [iterate]
  split_ifs <;> first | rfl | tauto

theorem iterate_rest (s : LoopTiming) (cycPerUs now : UInt32) :
    (s.iterate cycPerUs now).lastCycles = now ∧ (s.iterate cycPerUs now).ticks = s.ticks + 1 ∧
      (s.iterate cycPerUs now).loopCount = s.loopCount + 1 := by
  dsimp only [iterate]
  split_ifs <;> exact ⟨rfl, rfl, rfl⟩

theorem measures_iterate (h : Measures cycPerUs t n s) (hmono : t n ≤ t (n + 1))
    (hlt : t (n + 1) - t n < 2 ^ 32) :
    Measures cycPerUs t (n + 1) (s.iterate cycPerUs (wrap (t (n + 1)))) := by
  have hticks := ticks_gt_iff h.ticks
  have hjitter := iterate_jitter s cycPerUs (wrap (t (n + 1)))
  have hoverruns := iterate_overruns s cycPerUs (wrap (t (n + 1)))
  obtain ⟨hlast, hnext, hcount⟩ := iterate_rest s cycPerUs (wrap (t (n + 1)))
  simp only [periodUs_eq h hmono hlt, hticks] at hjitter hoverruns
  refine ⟨hlast, by rw [hnext, h.ticks]; exact (UInt32.ofNat_add n 1).symm,
    by rw [hcount, h.loopCount]; exact (UInt32.ofNat_add n 1).symm, ?_, ?_, ?_⟩
  · intro k hk hm
    rw [hjitter]
    rcases Nat.lt_succ_iff_lt_or_eq.mp hk with hk | rfl
    · have hle := h.le k hk hm
      split
      · rename_i hgreater
        exact hle.trans (Nat.le_of_lt (UInt32.lt_iff_toNat_lt.mp hgreater.2))
      · exact hle
    · split
      · exact le_rfl
      · rename_i hgreater
        exact UInt32.le_iff_toNat_le.mp (UInt32.not_lt.mp fun hlt => hgreater ⟨hm, hlt⟩)
  · rw [hjitter]
    split
    · rename_i hgreater
      exact .inr ⟨n, n.lt_succ_self, hgreater.1, rfl⟩
    · exact h.attained.imp_right fun ⟨k, hk, hm, he⟩ => ⟨k, Nat.lt_succ_of_lt hk, hm, he⟩
  · have hlate : wrap (period cycPerUs t n) > 2000 ↔ 2000 < period cycPerUs t n := by
      have hsmall : period cycPerUs t n < 2 ^ 32 := Nat.lt_of_le_of_lt (Nat.div_le_self _ _) hlt
      rw [gt_iff_lt, UInt32.lt_iff_toNat_lt, toNat_wrap, Nat.mod_eq_of_lt hsmall]
      exact Iff.rfl
    simp only [hlate, h.overruns] at hoverruns
    rw [hoverruns, List.range_succ, List.countP_append, List.countP_singleton, UInt32.ofNat_add]
    by_cases hover : Measured n ∧ 2000 < period cycPerUs t n
    · rw [if_pos hover, if_pos (decide_eq_true hover)]
      rfl
    · rw [if_neg hover, if_neg fun hd => hover (of_decide_eq_true hd)]
      exact (UInt32.add_zero _).symm

theorem measures_run (hmono : ∀ k < n, t k ≤ t (k + 1))
    (hlt : ∀ k < n, t (k + 1) - t k < 2 ^ 32) : Measures cycPerUs t n (run cycPerUs t n) := by
  induction n with
  | zero => exact measures_start
  | succ n ih =>
    have hn := ih (fun k hk => hmono k (Nat.lt_succ_of_lt hk)) fun k hk => hlt k (Nat.lt_succ_of_lt hk)
    have hstep := measures_iterate hn (hmono n n.lt_succ_self) (hlt n n.lt_succ_self)
    rw [run, List.range_succ, List.map_append, List.foldl_append]
    exact hstep

theorem toNat_deviation {q : Nat} (hq : q < 2 ^ 32) :
    (deviation (wrap q)).toNat = if 1000 < q then q - 1000 else 1000 - q := by
  have hval : (wrap q).toNat = q := (toNat_wrap q).trans (Nat.mod_eq_of_lt hq)
  have hgt : wrap q > 1000 ↔ 1000 < q := by
    rw [gt_iff_lt, UInt32.lt_iff_toNat_lt, hval]
    exact Iff.rfl
  unfold deviation
  by_cases h : 1000 < q
  · rw [if_pos (hgt.mpr h), if_pos h, UInt32.toNat_sub_of_le _ _ (UInt32.le_of_lt (hgt.mpr h)), hval]
    rfl
  · have hle : wrap q ≤ 1000 := UInt32.not_lt.mp fun hlt => h (hgt.mp hlt)
    rw [if_neg fun hlt => h (hgt.mp hlt), if_neg h, UInt32.toNat_sub_of_le _ _ hle, hval]
    rfl

/-- A bound on the deviation, in cycles. -/
theorem deviation_le_iff {c p : Nat} (hc : 0 < c) (hp : p < 2 ^ 32) (j : Nat) :
    (deviation (wrap (p / c))).toNat ≤ j ↔ p < (1001 + j) * c ∧ 1000 * c ≤ p + j * c := by
  rw [toNat_deviation (Nat.lt_of_le_of_lt (Nat.div_le_self _ _) hp)]
  have hhigh : p / c < 1001 + j ↔ p < (1001 + j) * c := Nat.div_lt_iff_lt_mul hc
  have hlow : 1000 - j ≤ p / c ↔ (1000 - j) * c ≤ p := Nat.le_div_iff_mul_le hc
  have hmul : (1000 - j) * c = 1000 * c - j * c := Nat.sub_mul ..
  rw [hmul] at hlow
  generalize p / c = q at hhigh hlow
  split <;> omega

/-- A deviation that is reached, in cycles. -/
theorem deviation_eq {c p : Nat} (hc : 0 < c) (hp : p < 2 ^ 32) {j : Nat}
    (h : (deviation (wrap (p / c))).toNat = j) :
    (1000 + j) * c ≤ p ∨ p + j * c < 1001 * c := by
  rw [toNat_deviation (Nat.lt_of_le_of_lt (Nat.div_le_self _ _) hp)] at h
  have hhigh : 1000 + j ≤ p / c ↔ (1000 + j) * c ≤ p := Nat.le_div_iff_mul_le hc
  have hlow : p / c < 1001 - j ↔ p < (1001 - j) * c := Nat.div_lt_iff_lt_mul hc
  have hmul : (1001 - j) * c = 1001 * c - j * c := Nat.sub_mul ..
  rw [hmul] at hlow
  generalize p / c = q at hhigh hlow h
  split at h <;> omega

end Run

/-- **The statistics of the loop.** Let its iterations start at the times `t 1`, `t 2`, … in cycles,
less than a wrap of the cycle counter apart. Then `loop_overruns` counts the measured ones among the
first `n` that have come 2001 us or more after the one before; none of these has been off its time by
a microsecond more than the jitter, and one of them has by that much but for a fraction of one. -/
theorem loop_timing (cycPerUs : UInt32) (hc : 0 < cycPerUs) (t : Nat → Nat)
    (hmono : ∀ k, t k ≤ t (k + 1)) (hlt : ∀ k, t (k + 1) - t k < 2 ^ 32) (n : Nat) :
    (LoopTiming.run cycPerUs t n).loopCount = UInt32.ofNat n ∧
    (LoopTiming.run cycPerUs t n).overruns = UInt32.ofNat
      ((List.range n).countP fun k => Measured k ∧ 2001 * cycPerUs.toNat ≤ t (k + 1) - t k) ∧
    let c := cycPerUs.toNat
    let j := (run cycPerUs t n).jitterMaxUs.toNat
    (∀ k < n, Measured k →
      t (k + 1) - t k < (1001 + j) * c ∧ 1000 * c ≤ t (k + 1) - t k + j * c) ∧
    (j = 0 ∨ ∃ k < n, Measured k ∧
      ((1000 + j) * c ≤ t (k + 1) - t k ∨ t (k + 1) - t k + j * c < 1001 * c)) := by
  have h : Measures cycPerUs t n (run cycPerUs t n) :=
    measures_run (fun k _ => hmono k) fun k _ => hlt k
  have hc' : 0 < cycPerUs.toNat := UInt32.lt_iff_toNat_lt.mp hc
  refine ⟨h.loopCount, ?_, fun k hk hm => (deviation_le_iff hc' (hlt k) _).mp (h.le k hk hm), ?_⟩
  · rw [h.overruns]
    refine congrArg UInt32.ofNat (List.countP_congr fun k _ => ?_)
    simp only [decide_eq_true_eq]
    exact and_congr_right fun _ => Nat.le_div_iff_mul_le hc'
  · refine h.attained.imp (congrArg UInt32.toNat) ?_
    rintro ⟨k, hk, hm, he⟩
    exact ⟨k, hk, hm, deviation_eq hc' (hlt k) (congrArg UInt32.toNat he).symm⟩

/-- A loop at 600 MHz whose iteration 15 comes 1.5 ms late. -/
def lateOnce (k : Nat) : Nat := 600000 * k + if 15 < k then 900000 else 0

theorem loop_timing_late : (run 600 lateOnce 20).overruns = 1 := by
  have hmono : ∀ k, lateOnce k ≤ lateOnce (k + 1) := by
    intro k
    unfold lateOnce
    split <;> split <;> omega
  have hlt : ∀ k, lateOnce (k + 1) - lateOnce k < 2 ^ 32 := by
    intro k
    unfold lateOnce
    split <;> split <;> omega
  exact (loop_timing 600 (by decide) lateOnce hmono hlt 20).2.1.trans (by decide)

end LoopTiming

/-! ## State frames -/

namespace Node

/-- The iteration with this number, from 0, is one that sends. -/
def Due (k : Nat) : Prop := (k + 1) % 2 ^ 32 % 10 = 0

instance : DecidablePred Due := fun _ => inferInstanceAs (Decidable (_ = _))

theorem canSend_ticks (n : Node) (sent : CanResult) : (n.canSend sent).ticks = n.ticks := by
  unfold canSend; split <;> rfl

theorem sweep_ticks (n : Node) (millis flip : UInt32) : (n.sweep millis flip).ticks = n.ticks := by
  unfold sweep; split <;> rfl

theorem act_ticks (n : Node) (ev : NodeEvent) :
    (n.act ev).ticks = if ev.isControl then n.ticks + 1 else n.ticks := by
  cases ev with
  | control sent =>
    simp only [act, control, NodeEvent.isControl]
    split
    · split
      · rw [canSend_ticks]
        rfl
      · rfl
    · rfl
  | heartbeat cs millis sent =>
    simp only [act, NodeEvent.isControl]
    split
    · simp only [sendHeartbeat]
      split
      · rw [canSend_ticks]
        rfl
      · rfl
    · rfl
  | command down millis flip sent =>
    simp only [act, NodeEvent.isControl]
    split
    · simp only [controllerCommand]
      split
      · split
        · rw [canSend_ticks, sweep_ticks]
          rfl
        · exact sweep_ticks ..
      · rfl
    · rfl
  | readSnapshot =>
    simp only [act, NodeEvent.isControl]
    split <;> rfl
  | frame f millis => rfl
  | poll millis => rfl

theorem ticks_run (nodeId : UInt8) (millis : UInt32) (events : List NodeEvent) :
    ((start nodeId millis).run events).ticks = UInt32.ofNat (events.countP (·.isControl)) := by
  induction events using List.reverseRecOn with
  | nil => rfl
  | append_singleton events ev ih =>
    rw [run, List.foldl_concat, ← run, act_ticks, ih, List.countP_append, List.countP_singleton]
    split
    · exact (UInt32.ofNat_add _ 1).symm
    · rfl

theorem nodeId_run (nodeId : UInt8) (millis : UInt32) (events : List NodeEvent) :
    ((start nodeId millis).run events).app.nodeId = nodeId := by
  induction events using List.reverseRecOn with
  | nil => rfl
  | append_singleton events ev ih => rw [run, List.foldl_concat, ← run, act_nodeId, ih]

theorem due_iff (k : Nat) : (UInt32.ofNat k + 1) % jointStatePeriodMs = 0 ↔ Due k := by
  rw [show UInt32.ofNat k + 1 = UInt32.ofNat (k + 1) from (UInt32.ofNat_add k 1).symm,
    ← UInt32.toNat_inj, UInt32.toNat_mod, UInt32.toNat_ofNat']
  exact Iff.rfl

theorem snapshot_control (n : Node) (sent : CanResult) :
    (n.act (.control sent)).jointSnapshot = (n.app.drain.joint.step controlPeriodMs).getState := by
  simp only [act, control]
  split
  · split
    · rw [canSend_jointSnapshot]
    · rfl
  · rfl

/-- Within ten iterations there is one that sends: before the wrap of `ticks`, or at it. -/
theorem due_within (k : Nat) : ∃ j, k ≤ j ∧ j < k + 10 ∧ Due j := by
  obtain ⟨d, hd, hten⟩ : ∃ d < 10, ((k + 1) % 2 ^ 32 + d) % 10 = 0 :=
    ⟨(10 - (k + 1) % 2 ^ 32 % 10) % 10, Nat.mod_lt _ (by decide), by omega⟩
  by_cases hwrap : (k + 1) % 2 ^ 32 + d < 2 ^ 32
  · refine ⟨k + d, by omega, by omega, ?_⟩
    have hmod : (k + d + 1) % 2 ^ 32 = (k + 1) % 2 ^ 32 + d := by omega
    rw [Due, hmod, hten]
  · refine ⟨k + (2 ^ 32 - (k + 1) % 2 ^ 32), by omega, by omega, ?_⟩
    have hmod : (k + (2 ^ 32 - (k + 1) % 2 ^ 32) + 1) % 2 ^ 32 = 0 := by omega
    rw [Due, hmod]

/-- Across the wrap of `ticks` six iterations are enough, as `2 ^ 32` is 6 more than a multiple of
ten. -/
theorem due_apart {i j : Nat} (hi : Due i) (hj : Due j) (hij : i < j) : 6 ≤ j - i := by
  unfold Due at hi hj
  by_contra hlt
  have hwrap : (j + 1) / 2 ^ 32 = (i + 1) / 2 ^ 32 ∨ (j + 1) / 2 ^ 32 = (i + 1) / 2 ^ 32 + 1 := by
    omega
  rcases hwrap with h | h <;> omega

/-- **The state frames of a node.** In every run, the iteration of `control_task` after `k` others
hands `can_send` a frame with the state it has just published if it is due, and nothing otherwise;
of ten iterations in a row at least one is due, and two that are due are six or more apart, also
where `ticks` wraps. -/
theorem state_cadence (nodeId : UInt8) (hid : nodeValid nodeId = true) (millis : UInt32) :
    (∀ events sent,
      let n := (start nodeId millis).run events
      ∃ f, encodeJointState nodeId (some (n.act (.control sent)).jointSnapshot) (some default) =
          (.ok, some f) ∧
        n.transmits (.control sent) =
          if Due (events.countP (·.isControl)) then [(f, sent)] else []) ∧
    (∀ k, ∃ j, k ≤ j ∧ j < k + 10 ∧ Due j) ∧
    ∀ i j, Due i → Due j → i < j → 6 ≤ j - i := by
  refine ⟨fun events sent => ?_, due_within, fun i j => due_apart⟩
  dsimp only
  rw [snapshot_control]
  generalize hn : (start nodeId millis).run events = n
  have hticks : n.ticks = UInt32.ofNat (events.countP (·.isControl)) :=
    hn ▸ ticks_run nodeId millis events
  have hnode : n.app.nodeId = nodeId := hn ▸ nodeId_run nodeId millis events
  have henc : ∀ st, encodeJointState nodeId (some st) (some default) = (.ok, some _) :=
    fun st => encode_eq_ok.mpr ⟨hid, rfl⟩
  refine ⟨_, henc _, ?_⟩
  simp only [transmits, hticks, hnode, henc, due_iff]
  rfl

/-- The tenth iteration of a node sends. -/
theorem state_cadence_tenth :
    ((start 7 0).run (List.replicate 9 (.control .ok))).transmits (.control .ok) ≠ [] := by
  obtain ⟨f, -, h⟩ := (state_cadence 7 (by decide) 0).1 (List.replicate 9 (.control .ok)) .ok
  rw [h, if_pos (by decide)]
  exact List.cons_ne_nil _ _

end Node

end Rjs
