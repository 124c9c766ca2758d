import Mathlib.Data.List.Chain
import RobotJointStack.Monitor.Run

/-!
# Monitor.Supervision

Heartbeat supervision against true time. The monitor compares 32-bit times by difference, which is
exact as long as no entry stays alive for a whole wrap: the regular polls see to that.

* `inTime_run`: after every run, an entry is alive iff its last accepted heartbeat is at most
  the timeout before the last poll.
* `supervision_exact`: what a poll decides and reports, and how often a silence is reported.
-/

namespace Rjs
namespace Monitor

open WrapClock

/-! ## Timed runs -/

namespace MonitorOp

def time : MonitorOp → Nat
  | .heartbeat _ _ time => time
  | .poll time => time

def pollTime? : MonitorOp → Option Nat
  | .heartbeat _ _ _ => none
  | .poll time => some time

end MonitorOp

def pollTimes (ops : List MonitorOp) : List Nat := ops.filterMap MonitorOp.pollTime?

/-- The time of the last operation, or the start of the run. -/
def now (start : Nat) (ops : List MonitorOp) : Nat := (ops.map MonitorOp.time).getLastD start

/-- The time of the last poll, or the start of the run. -/
def lastPoll (start : Nat) (ops : List MonitorOp) : Nat :=
  (pollTimes ops).getLastD start

/-- Operations come in the order of their times, and polls at most `gap` apart. -/
structure WellTimed (gap start : Nat) (ops : List MonitorOp) : Prop where
  ordered : (start :: ops.map MonitorOp.time).IsChain (· ≤ ·)
  polled : (start :: pollTimes ops).IsChain fun a b => b ≤ a + gap

section Timed

variable {gap start : Nat} {ops : List MonitorOp}

theorem isChain_cons_snoc {R : Nat → Nat → Prop} {a b : Nat} {l : List Nat} :
    (a :: (l ++ [b])).IsChain R ↔ (a :: l).IsChain R ∧ R (l.getLastD a) b := by
  rw [← List.cons_append, List.isChain_append]
  simp [List.getLast?_cons]

@[simp] theorem now_snoc (op : MonitorOp) : now start (ops ++ [op]) = op.time := by
  simp [now]

theorem pollTimes_snoc_poll (ops : List MonitorOp) (t : Nat) :
    pollTimes (ops ++ [.poll t]) = pollTimes ops ++ [t] := by
  simp [pollTimes, MonitorOp.pollTime?]

theorem pollTimes_snoc_heartbeat (ops : List MonitorOp) (node : UInt8) (hb : Heartbeat) (t : Nat) :
    pollTimes (ops ++ [.heartbeat node hb t]) = pollTimes ops := by
  simp [pollTimes, MonitorOp.pollTime?]

@[simp] theorem lastPoll_snoc_poll (t : Nat) : lastPoll start (ops ++ [.poll t]) = t := by
  simp [lastPoll, pollTimes_snoc_poll]

@[simp] theorem lastPoll_snoc_heartbeat (node : UInt8) (hb : Heartbeat) (t : Nat) :
    lastPoll start (ops ++ [.heartbeat node hb t]) = lastPoll start ops := by
  rw [lastPoll, pollTimes_snoc_heartbeat, lastPoll]

theorem WellTimed.init {op : MonitorOp} (h : WellTimed gap start (ops ++ [op])) :
    WellTimed gap start ops ∧ now start ops ≤ op.time := by
  obtain ⟨ho, hp⟩ := h
  rw [List.map_append, List.map_singleton, isChain_cons_snoc] at ho
  refine ⟨⟨ho.1, ?_⟩, ho.2⟩
  rw [pollTimes, List.filterMap_append, ← List.cons_append, List.isChain_append] at hp
  exact hp.1

theorem WellTimed.poll_le {t : Nat} (h : WellTimed gap start (ops ++ [.poll t])) :
    t ≤ lastPoll start ops + gap := by
  have hp := h.polled
  rw [pollTimes_snoc_poll] at hp
  exact (isChain_cons_snoc.mp hp).2

theorem WellTimed.take {before after : List MonitorOp} (h : WellTimed gap start (before ++ after)) :
    WellTimed gap start before := by
  induction after using List.reverseRecOn with
  | nil => rwa [List.append_nil] at h
  | append_singleton after op ih =>
    rw [← List.append_assoc] at h
    exact ih h.init.1

/-- Polls come no later than the last one, which comes no later than now. -/
theorem WellTimed.polls (h : WellTimed gap start ops) :
    start ≤ lastPoll start ops ∧ lastPoll start ops ≤ now start ops ∧
      (∀ t ∈ pollTimes ops, t ≤ lastPoll start ops) ∧
      (lastPoll start ops = start ∨
        lastPoll start ops ∈ pollTimes ops) := by
  induction ops using List.reverseRecOn with
  | nil => exact ⟨le_rfl, le_rfl, fun t ht => (List.not_mem_nil ht).elim, .inl rfl⟩
  | append_singleton ops op ih =>
    obtain ⟨hops, hnow⟩ := h.init
    obtain ⟨hstart, hlast, hle, hmem⟩ := ih hops
    cases op with
    | heartbeat node hb time =>
      rw [lastPoll_snoc_heartbeat, now_snoc, pollTimes_snoc_heartbeat]
      exact ⟨hstart, hlast.trans hnow, hle, hmem⟩
    | poll time =>
      rw [lastPoll_snoc_poll, now_snoc, pollTimes_snoc_poll]
      refine ⟨hstart.trans (hlast.trans hnow), le_rfl, fun t ht => ?_, .inr (by simp)⟩
      cases List.mem_append.mp ht with
      | inl ht => exact (hle t ht).trans (hlast.trans hnow)
      | inr ht =>
        cases List.mem_singleton.mp ht; exact le_rfl

end Timed

/-! ## Accepted heartbeats -/

/-- The monitor and the time of the last heartbeat of `n` that it accepted. -/
def hears (n : UInt8) (s : Monitor Trace × Option Nat) (op : MonitorOp) :
    Monitor Trace × Option Nat :=
  (s.1.act op, match op with
    | .heartbeat node hb time =>
      if node = n ∧ (s.1.onHeartbeat node (some hb) (wrap time)).1 then some time else s.2
    | .poll _ => s.2)

def lastHeard (timeoutMs : UInt32) (n : UInt8) (ops : List MonitorOp) : Option Nat :=
  (ops.foldl (hears n) (init timeoutMs (some record) [], none)).2

section Heard

variable {timeoutMs : UInt32} {n : UInt8} {ops : List MonitorOp}

theorem hears_run : (ops.foldl (hears n) (init timeoutMs (some record) [], none)).1 =
    run timeoutMs ops := by
  induction ops using List.reverseRecOn with
  | nil => rfl
  | append_singleton ops op ih => rw [List.foldl_concat, run_snoc, ← ih]; rfl

theorem lastHeard_poll (t : Nat) :
    lastHeard timeoutMs n (ops ++ [.poll t]) = lastHeard timeoutMs n ops := by
  rw [lastHeard, List.foldl_concat]; rfl

theorem lastHeard_heartbeat (node : UInt8) (hb : Heartbeat) (t : Nat) :
    lastHeard timeoutMs n (ops ++ [.heartbeat node hb t]) =
      if node = n ∧ (run timeoutMs ops).Accepts node then some t
      else lastHeard timeoutMs n ops := by
  have hacc : ((run timeoutMs ops).onHeartbeat node (some hb) (wrap t)).1 = true ↔
      (run timeoutMs ops).Accepts node := by
    by_cases h : (run timeoutMs ops).Accepts node
    · rw [onHeartbeat_accepted hb (wrap t) h]; exact iff_of_true rfl h
    · rw [onHeartbeat_refused hb (wrap t) h]; exact iff_of_false nofun h
  rw [lastHeard, List.foldl_concat]
  simp only [hears, hears_run, hacc]
  rfl

end Heard

/-! ## Supervision -/

/-- The status of a node last heard at `last`, at a poll at time `t`. -/
def statusAt (timeoutMs : UInt32) (last t : Nat) : PeerStatus :=
  if t ≤ last + timeoutMs.toNat then .alive else .lost

/-- The entry of a node last heard at `last`, when the last poll was at `polled`. -/
structure Supervised (timeoutMs : UInt32) (start polled now last : Nat) (p : Peer) : Prop where
  seen : p.lastSeenMs = wrap last
  started : start ≤ last
  past : last ≤ now
  status : p.status = statusAt timeoutMs last polled

/-- In a monitor that has run in true time, heard nodes and entries are the same, and every entry
is supervised. -/
def InTime (timeoutMs : UInt32) (start : Nat) (ops : List MonitorOp) : Prop :=
  ∀ n, ((run timeoutMs ops).find n = none ∧ lastHeard timeoutMs n ops = none) ∨
    ∃ p last, (run timeoutMs ops).find n = some p ∧ lastHeard timeoutMs n ops = some last ∧
      Supervised timeoutMs start (lastPoll start ops) (now start ops) last p

section Supervised

variable {timeoutMs : UInt32} {gap start : Nat} {ops : List MonitorOp}

/-- Less than a wrap after the last heartbeat, an entry expires exactly when the silence exceeds
the timeout. -/
theorem expired_iff {p : Peer} {polled last t : Nat} {now : Nat}
    (h : Supervised timeoutMs start polled now last p) (hpast : last ≤ t)
    (hgap : t ≤ polled + gap) (hwrap : gap + timeoutMs.toNat < 2 ^ 32) :
    p.Expired timeoutMs (wrap t) ↔
      polled ≤ last + timeoutMs.toNat ∧ last + timeoutMs.toNat < t := by
  have halive : p.status = .alive ↔ polled ≤ last + timeoutMs.toNat := by
    rw [h.status, statusAt]; split <;> simp_all
  rw [Peer.Expired, halive, h.seen, gt_iff_lt, UInt32.lt_iff_toNat_lt]
  refine and_congr_right fun hpolled => ?_
  rw [toNat_wrap_sub hpast (by omega)]
  omega

theorem statusAt_expire {p : Peer} {polled last t now : Nat}
    (h : Supervised timeoutMs start polled now last p) (hpast : last ≤ t) (hpolled : polled ≤ t)
    (hgap : t ≤ polled + gap) (hwrap : gap + timeoutMs.toNat < 2 ^ 32) :
    (p.expire timeoutMs (wrap t)).status = statusAt timeoutMs last t := by
  have hiff := expired_iff h hpast hgap hwrap
  unfold Peer.expire statusAt
  by_cases he : p.Expired timeoutMs (wrap t)
  · rw [if_pos he, if_neg (not_le.mpr (hiff.mp he).2)]
  · rw [if_neg he, h.status, statusAt]
    rw [hiff, not_and_or, not_le, not_lt] at he
    by_cases hp : polled ≤ last + timeoutMs.toNat
    · rw [if_pos hp, if_pos (he.resolve_left (not_lt.mpr hp))]
    · rw [if_neg hp, if_neg (by omega)]

theorem inTime_nil (timeoutMs : UInt32) (start : Nat) : InTime timeoutMs start [] :=
  fun _ => .inl ⟨rfl, rfl⟩

theorem inTime_heartbeat (h : InTime timeoutMs start ops) {node : UInt8} {hb : Heartbeat} {t : Nat}
    (hw : WellTimed gap start (ops ++ [.heartbeat node hb t])) :
    InTime timeoutMs start (ops ++ [.heartbeat node hb t]) := by
  obtain ⟨hops, hnow⟩ := hw.init
  obtain ⟨hstart, hlast, -, -⟩ := hops.polls
  have hnow' : now start ops ≤ t := hnow
  intro n
  rw [run_snoc, lastHeard_heartbeat, lastPoll_snoc_heartbeat, now_snoc]
  show ((((run timeoutMs ops).onHeartbeat node (some hb) (wrap t)).2.find n = none ∧ _) ∨ _)
  by_cases hacc : (run timeoutMs ops).Accepts node
  · rw [act, find_onHeartbeat hb (wrap t) hacc]
    by_cases hn : node = n
    · simp only [hn, hn ▸ hacc, if_true, and_self]
      refine .inr ⟨_, t, rfl, rfl, rfl, hstart.trans (hlast.trans hnow'), le_rfl, ?_⟩
      rw [statusAt, if_pos (by omega)]; rfl
    · simp only [hn, false_and, if_false]
      refine (h n).imp_right ?_
      rintro ⟨p, last, hp, hl, hs⟩
      exact ⟨p, last, hp, hl, hs.seen, hs.started, hs.past.trans hnow', hs.status⟩
  · rw [act, onHeartbeat_refused hb (wrap t) hacc]
    simp only [hacc, and_false, if_false]
    refine (h n).imp_right ?_
    rintro ⟨p, last, hp, hl, hs⟩
    exact ⟨p, last, hp, hl, hs.seen, hs.started, hs.past.trans hnow', hs.status⟩

theorem inTime_poll (h : InTime timeoutMs start ops) {t : Nat}
    (hw : WellTimed gap start (ops ++ [.poll t])) (hwrap : gap + timeoutMs.toNat < 2 ^ 32) :
    InTime timeoutMs start (ops ++ [.poll t]) := by
  obtain ⟨hops, hnow⟩ := hw.init
  obtain ⟨-, hlast, -, -⟩ := hops.polls
  have hnow' : now start ops ≤ t := hnow
  intro n
  rw [run_snoc, lastHeard_poll, lastPoll_snoc_poll, now_snoc, act, find_poll,
    (traced_run timeoutMs ops).timeout]
  rcases h n with ⟨hp, hl⟩ | ⟨p, last, hp, hl, hs⟩
  · exact .inl ⟨by rw [hp]; rfl, hl⟩
  · refine .inr ⟨_, last, by rw [hp]; rfl, hl, ?_, hs.started, hs.past.trans hnow', ?_⟩
    · rw [← hs.seen]; unfold Peer.expire; split <;> rfl
    · exact statusAt_expire hs (hs.past.trans hnow') (hlast.trans hnow') hw.poll_le hwrap

theorem inTime_run (hw : WellTimed gap start ops) (hwrap : gap + timeoutMs.toNat < 2 ^ 32) :
    InTime timeoutMs start ops := by
  induction ops using List.reverseRecOn with
  | nil => exact inTime_nil timeoutMs start
  | append_singleton ops op ih =>
    cases op with
    | heartbeat node hb t => exact inTime_heartbeat (ih hw.init.1) hw
    | poll t => exact inTime_poll (ih hw.init.1) hw hwrap

/-! ## Reports -/

/-- How often node `n` has been reported lost. -/
def lostCount (timeoutMs : UInt32) (n : UInt8) (ops : List MonitorOp) : Nat :=
  (eventsOf (run timeoutMs ops).user n).count .nodeLost

/-- A poll at time `t` is the first one more than the timeout after the last heartbeat of `n`. -/
def FirstLate (timeoutMs : UInt32) (n : UInt8) (before : List MonitorOp) (t : Nat) : Prop :=
  ∃ last ∈ lastHeard timeoutMs n before, last + timeoutMs.toNat < t ∧
    ∀ t' ∈ pollTimes before, t' ≤ last + timeoutMs.toNat

instance (timeoutMs : UInt32) (n : UInt8) (before : List MonitorOp) (t : Nat) :
    Decidable (FirstLate timeoutMs n before t) := by
  unfold FirstLate; infer_instance

/-- A poll reports a node lost exactly if it is the first late one. -/
theorem lostCount_poll {t : Nat} (hw : WellTimed gap start (ops ++ [.poll t]))
    (hwrap : gap + timeoutMs.toNat < 2 ^ 32) (n : UInt8) :
    lostCount timeoutMs n (ops ++ [.poll t]) = lostCount timeoutMs n ops +
      if FirstLate timeoutMs n ops t then 1 else 0 := by
  obtain ⟨hops, (hnow : now start ops ≤ t)⟩ := hw.init
  obtain ⟨-, -, hpolls, hmem⟩ := hops.polls
  rw [lostCount, run_snoc, act, eventsOf_poll (traced_run timeoutMs ops), List.count_append,
    ← lostCount, Nat.add_left_cancel_iff]
  rcases inTime_run hops hwrap n with ⟨hp, hl⟩ | ⟨p, last, hp, hl, hs⟩
  · have hnot : ¬FirstLate timeoutMs n ops t := by
      rintro ⟨last, hlast, -⟩
      rw [hl] at hlast
      cases hlast
    simp [hp, hnot]
  · have hiff : p.Expired timeoutMs (wrap t) ↔ FirstLate timeoutMs n ops t := by
      rw [expired_iff hs (hs.past.trans hnow) hw.poll_le hwrap]
      constructor
      · rintro ⟨hpolled, hlate⟩
        exact ⟨last, hl, hlate, fun t' ht' => (hpolls t' ht').trans hpolled⟩
      · rintro ⟨last', hl', hlate, hearlier⟩
        obtain rfl : last = last' := Option.some.inj (hl.symm.trans hl')
        refine ⟨?_, hlate⟩
        -- the last poll is one of the earlier ones, or the start of the run
        cases hmem with
        | inl h0 =>
          have := hs.started; omega
        | inr hin => exact hearlier _ hin
    by_cases he : p.Expired timeoutMs (wrap t)
    · simp [hp, he, hiff.mp he]
    · simp [hp, he, hiff.not.mp he]

theorem lostCount_heartbeat (ops : List MonitorOp) (node : UInt8) (hb : Heartbeat) (t : Nat)
    (n : UInt8) : lostCount timeoutMs n (ops ++ [.heartbeat node hb t]) =
      lostCount timeoutMs n ops := by
  rw [lostCount, run_snoc, act]
  by_cases hacc : (run timeoutMs ops).Accepts node
  · rw [eventsOf_onHeartbeat (traced_run timeoutMs ops) hb (wrap t) hacc, List.count_append,
      ← lostCount, Nat.add_eq_left, List.count_eq_zero]
    split
    · unfold Peer.heardEvent
      split
      · simp
      · split <;> simp
    · exact List.not_mem_nil
  · rw [onHeartbeat_refused hb (wrap t) hacc, ← lostCount]

theorem lastHeard_quiet {n : UInt8} {last : Nat} {quiet : List MonitorOp}
    (hl : lastHeard timeoutMs n ops = some last) (hq : ∀ hb t, .heartbeat n hb t ∉ quiet) :
    lastHeard timeoutMs n (ops ++ quiet) = some last := by
  induction quiet using List.reverseRecOn with
  | nil => rwa [List.append_nil]
  | append_singleton quiet op ih =>
    have hrest := ih fun hb t hm => hq hb t (List.mem_append_left _ hm)
    rw [← List.append_assoc]
    cases op with
    | heartbeat node hb t =>
      have hne : node ≠ n := by
        rintro rfl
        exact hq hb t (by simp)
      rw [lastHeard_heartbeat, if_neg (fun h => hne h.1), hrest]
    | poll t => rw [lastHeard_poll, hrest]

/-- In a silence of `n` after its heartbeat at `last`, the node is reported lost once, as soon as
some poll is late. -/
theorem lostCount_quiet {n : UInt8} {last : Nat} {quiet : List MonitorOp}
    (hw : WellTimed gap start (ops ++ quiet)) (hwrap : gap + timeoutMs.toNat < 2 ^ 32)
    (hl : lastHeard timeoutMs n ops = some last) (hp : ∀ t ∈ pollTimes ops, t ≤ last)
    (hq : ∀ hb t, .heartbeat n hb t ∉ quiet) :
    lostCount timeoutMs n (ops ++ quiet) = lostCount timeoutMs n ops +
      if ∃ t ∈ pollTimes quiet, last + timeoutMs.toNat < t then 1 else 0 := by
  induction quiet using List.reverseRecOn with
  | nil => simp [pollTimes]
  | append_singleton quiet op ih =>
    have hq' : ∀ hb t, .heartbeat n hb t ∉ quiet :=
      fun hb t hm => hq hb t (List.mem_append_left _ hm)
    rw [← List.append_assoc] at hw ⊢
    have hrest := ih hw.init.1 hq'
    cases op with
    | heartbeat node hb t => rw [lostCount_heartbeat, hrest, pollTimes_snoc_heartbeat]
    | poll t =>
      rw [lostCount_poll hw hwrap, hrest, pollTimes_snoc_poll, Nat.add_assoc]
      -- the poll is the first late one iff it is late and no earlier one of the silence was
      have hfirst : FirstLate timeoutMs n (ops ++ quiet) t ↔
          last + timeoutMs.toNat < t ∧ ∀ t' ∈ pollTimes quiet, t' ≤ last + timeoutMs.toNat := by
        have hpolls : pollTimes (ops ++ quiet) = pollTimes ops ++ pollTimes quiet :=
          List.filterMap_append
        simp only [FirstLate, lastHeard_quiet hl hq', Option.mem_some_iff, exists_eq_left', hpolls,
          List.mem_append]
        refine and_congr_right fun _ => ⟨fun h t' ht' => h t' (.inr ht'), fun h t' ht' => ?_⟩
        exact ht'.elim (fun ht' => (hp t' ht').trans (Nat.le_add_right _ _)) (h t')
      by_cases hearly : ∃ t' ∈ pollTimes quiet, last + timeoutMs.toNat < t'
      · obtain ⟨t', ht', hlate⟩ := hearly
        have hnot : ¬FirstLate timeoutMs n (ops ++ quiet) t := by
          rw [hfirst]
          exact fun h => absurd (h.2 t' ht') (not_le.mpr hlate)
        rw [if_pos ⟨t', ht', hlate⟩, if_neg hnot,
          if_pos ⟨t', List.mem_append_left _ ht', hlate⟩]
      · have hall : ∀ t' ∈ pollTimes quiet, t' ≤ last + timeoutMs.toNat := fun t' ht' =>
          not_lt.mp fun hlate => hearly ⟨t', ht', hlate⟩
        have hor : (∃ t' ∈ pollTimes quiet ++ [t], last + timeoutMs.toNat < t') ↔
            last + timeoutMs.toNat < t := by
          constructor
          · rintro ⟨t', ht', hlate⟩
            cases List.mem_append.mp ht' with
            | inl ht' => exact absurd (hall t' ht') (not_le.mpr hlate)
            | inr ht' => rwa [← List.mem_singleton.mp ht']
          · exact fun hlate => ⟨t, by simp, hlate⟩
        simp only [if_neg hearly, Nat.zero_add, hfirst, hor, and_iff_left hall]

/-- The rules for a poll at time `t` after the run `before`. -/
structure PollRules (timeoutMs : UInt32) (before : List MonitorOp) (t : Nat) : Prop where
  /-- The known nodes are the heard ones, alive until the silence exceeds the timeout. -/
  status : ∀ n, ((run timeoutMs (before ++ [.poll t])).find n).map (·.status) =
    (lastHeard timeoutMs n before).map (statusAt timeoutMs · t)
  lost : ∀ n, lostCount timeoutMs n (before ++ [.poll t]) =
    lostCount timeoutMs n before + if FirstLate timeoutMs n before t then 1 else 0

/-- **Supervision is exact.** In every run in true time, with polls at most `gap` apart and
`gap + timeout` below a wrap of the 32-bit clock: every poll leaves exactly the nodes alive that
were heard within the timeout, a node is reported lost at the first late poll and by nothing else,
and so exactly once in a silence that some poll finds too long. -/
theorem supervision_exact {timeoutMs : UInt32} {gap start : Nat} {ops : List MonitorOp}
    (hwrap : gap + timeoutMs.toNat < 2 ^ 32) (hw : WellTimed gap start ops) :
    (∀ before t after, ops = before ++ .poll t :: after → PollRules timeoutMs before t) ∧
    (∀ before node hb t after, ops = before ++ .heartbeat node hb t :: after →
      ∀ n, lostCount timeoutMs n (before ++ [.heartbeat node hb t]) =
        lostCount timeoutMs n before) ∧
    (∀ before n hb last quiet after, ops = before ++ .heartbeat n hb last :: quiet ++ after →
      ((run timeoutMs before).onHeartbeat n (some hb) (wrap last)).1 = true →
      (∀ hb' t, .heartbeat n hb' t ∉ quiet) →
      lostCount timeoutMs n (before ++ .heartbeat n hb last :: quiet) =
        lostCount timeoutMs n (before ++ [.heartbeat n hb last]) +
          if ∃ t ∈ pollTimes quiet, last + timeoutMs.toNat < t then 1 else 0) := by
  refine ⟨?_, fun before node hb t _ _ n => lostCount_heartbeat before node hb t n, ?_⟩
  · rintro before t after rfl
    have hsplit : before ++ .poll t :: after = (before ++ [.poll t]) ++ after := by simp
    rw [hsplit] at hw
    refine ⟨fun n => ?_, lostCount_poll hw.take hwrap⟩
    have hlast : lastHeard timeoutMs n (before ++ [.poll t]) = lastHeard timeoutMs n before :=
      lastHeard_poll t
    have htime := inTime_run hw.take hwrap n
    rw [hlast, lastPoll_snoc_poll] at htime
    rcases htime with ⟨hp, hl⟩ | ⟨p, last, hp, hl, hs⟩
    · rw [hp, hl]; rfl
    · rw [hp, hl]; exact congrArg some hs.status
  · rintro before n hb last quiet after rfl hacc hq
    have hsplit : before ++ .heartbeat n hb last :: quiet =
        (before ++ [.heartbeat n hb last]) ++ quiet := by simp
    rw [hsplit] at hw ⊢
    obtain ⟨hbefore, (hnow : now start before ≤ last)⟩ := hw.take.take.init
    obtain ⟨-, hle, hpolls, -⟩ := hbefore.polls
    have hacc' : (run timeoutMs before).Accepts n := by
      by_contra hno
      rw [onHeartbeat_refused hb (wrap last) hno] at hacc
      cases hacc
    refine lostCount_quiet hw.take hwrap ?_ (fun t ht => ?_) hq
    · rw [lastHeard_heartbeat, if_pos ⟨rfl, hacc'⟩]
    · rw [pollTimes_snoc_heartbeat] at ht
      exact (hpolls t ht).trans (hle.trans hnow)

end Supervised

/-- A node last heard 10 ms before the clock wraps, and lost at a poll after it. -/
theorem supervision_exact_wrap :
    PollRules 50 [.heartbeat 7 ⟨2, 0, 900, 0, 1, 0⟩ 4294967286, .poll 4294967296] 4294967346 :=
  (@supervision_exact 50 100 4294967280 [.heartbeat 7 ⟨2, 0, 900, 0, 1, 0⟩ 4294967286,
    .poll 4294967296, .poll 4294967346] (by decide)
    ⟨by decide, by decide⟩).1 _ _ [] rfl

end Monitor
end Rjs
