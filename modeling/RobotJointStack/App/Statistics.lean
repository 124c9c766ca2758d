import RobotJointStack.App.Transmit

/-!
# App.Statistics

`tx_frames` and `tx_busy`, which the tasks count behind the mutex, with nothing to keep them apart.

* `tight_act`: a statistic stays exact while no two tasks are in the middle of counting in it.
* `short_act`, `short_of_not_apart`: once two have been, it falls short for good.
* `transmit_counts`: so it is exact if and only if that never happened.
-/

namespace Rjs

open Machine

namespace TxPath

variable {ι : Type} [DecidableEq ι] {s t : TxPath ι} {i : ι} {e : TxEvent ι}

/-- No task begins to count in a statistic in which another is in the middle of counting. -/
def Apart (s : TxPath ι) (e : TxEvent ι) (_ : TxPath ι) : Prop :=
  match e with
  | .step i => ∀ ok, (s.pc i).loads = some ok → ∀ j, (s.pc j).counts ≠ some ok
  | _ => True

instance [Fintype ι] (s : TxPath ι) (e : TxEvent ι) (t : TxPath ι) : Decidable (s.Apart e t) := by
  cases e <;> unfold Apart <;> infer_instance

/-- A statistic that is exact, with one task at most in the middle of counting. -/
def Tight (s : TxPath ι) (ok : Bool) : Prop :=
  (s.stat ok).Exact (s.added ok) ∧
    ∀ i j, (s.pc i).counts = some ok → (s.pc j).counts = some ok → i = j

theorem Sound.between (h : s.Sound) {ok : Bool} {v : UInt32} (hv : (s.stat ok).held i = some v) :
    (s.pc i).counts = some ok := by
  have hi := h.stat ok i
  rw [hv] at hi
  exact of_decide_eq_true hi.symm

theorem Sound.held (h : s.Sound) {ok : Bool} (hi : (s.pc i).counts = some ok) :
    ∃ v, (s.stat ok).held i = some v := (h.stat ok).held (decide_eq_true hi)

theorem tight_act (h : s.Sound) {ok : Bool} (htight : s.Tight ok) (hact : s.act e = some t)
    (hapart : s.Apart e t) : t.Tight ok := by
  have ht := sound_act h hact
  obtain ⟨hexact, hone⟩ := htight
  have hst := moves_of_act hact
  obtain ⟨-, ⟨hstat, hadded⟩ | ⟨i, he, hi, hstat, hadded⟩ | ⟨i, v, hv, hstat, hadded⟩⟩ :=
    stat_moves h hst ok
  · refine ⟨by rw [hstat, hadded]; exact hexact, fun j k hj hk => ?_⟩
    obtain ⟨v, hv⟩ := ht.held hj
    obtain ⟨w, hw⟩ := ht.held hk
    rw [hstat] at hv hw
    exact hone j k (h.between hv) (h.between hw)
  · subst he
    have hnone : ∀ j, (s.stat ok).held j = none := by
      intro j
      by_contra hj
      obtain ⟨v, hv⟩ := Option.ne_none_iff_exists'.mp hj
      exact hapart ok hi j (h.between hv)
    refine ⟨by rw [hstat, hadded]; exact hexact.load, ?_⟩
    have hself : ∀ j, (t.pc j).counts = some ok → j = i := by
      intro j hj
      by_contra hji
      obtain ⟨v, hv⟩ := ht.held hj
      rw [hstat, SharedCounter.held_load_of_ne _ hji, hnone j] at hv
      cases hv
    exact fun j k hj hk => (hself j hj).trans (hself k hk).symm
  · have halone : ∀ j, j ≠ i → (s.stat ok).held j = none := by
      intro j hji
      by_contra hj
      obtain ⟨w, hw⟩ := Option.ne_none_iff_exists'.mp hj
      exact hji (hone j i (h.between hw) (h.between hv))
    refine ⟨by rw [hstat, hadded]; exact hexact.store hv halone, fun j k hj hk => ?_⟩
    obtain ⟨w, hw⟩ := ht.held hj
    by_cases hji : j = i
    · subst hji
      rw [hstat, SharedCounter.held_store hv] at hw
      cases hw
    · rw [hstat, SharedCounter.held_store_of_ne hv hji, halone j hji] at hw
      cases hw

theorem short_act (h : s.Sound) {ok : Bool} (hshort : (s.stat ok).Short (s.added ok))
    (hact : s.act e = some t) : (t.stat ok).Short (t.added ok) := by
  obtain ⟨n, hcounts⟩ := h.statCounts ok
  obtain ⟨-, ⟨hstat, hadded⟩ | ⟨i, -, hi, hstat, hadded⟩ | ⟨i, v, hv, hstat, hadded⟩⟩ :=
    stat_moves h (moves_of_act hact) ok
  all_goals rw [hstat, hadded]
  · exact hshort
  · refine hshort.load ((h.stat ok).none (decide_eq_false ?_))
    intro hc
    cases hpc : s.pc i <;> rw [hpc] at hi hc <;> cases hi
    cases hc
  · exact hshort.store hcounts hv

omit [DecidableEq ι] in
theorem given_of_loads {ok : Bool} (hi : (s.pc i).loads = some ok) :
    ∃ r, s.pc i = .given r ∧ ok = (r = .ok : Bool) := by
  cases hpc : s.pc i with
  | given r =>
    rw [hpc] at hi
    exact ⟨r, rfl, (Option.some.inj hi).symm⟩
  | _ =>
    rw [hpc] at hi
    cases hi

theorem stat_of_loads {ok : Bool} (hi : (s.pc i).loads = some ok) (hstep : s.step i = some t) :
    t.stat ok = (s.stat ok).load i := by
  obtain ⟨r, hpc, rfl⟩ := given_of_loads hi
  simp only [step, hpc] at hstep
  split at hstep
  · rename_i hr
    cases hstep
    rw [decide_eq_true hr]
    rfl
  · rename_i hr
    cases hstep
    rw [decide_eq_false hr]
    rfl

/-- Who begins beside another makes the statistic fall short. -/
theorem short_of_not_apart (h : s.Sound) (hact : s.act e = some t) (hapart : ¬s.Apart e t) :
    ∃ ok, (t.stat ok).Short (t.added ok) := by
  cases e with
  | call i f => exact absurd trivial hapart
  | transmit => exact absurd trivial hapart
  | step i =>
    simp only [Apart, not_forall, not_not] at hapart
    obtain ⟨ok, hi, j, hj⟩ := hapart
    obtain ⟨r, hpc, -⟩ := given_of_loads hi
    have hij : i ≠ j := by
      rintro rfl
      rw [hpc] at hj
      cases hj
    obtain ⟨v, hv⟩ := h.held hj
    refine ⟨ok, ?_⟩
    rw [stat_of_loads hi hact]
    exact .overlap hij (SharedCounter.held_load _ i)
      ((SharedCounter.held_load_of_ne _ hij.symm).trans hv)

theorem short_run {events : List (TxEvent ι)} (h : s.Sound) {ok : Bool}
    (hshort : (s.stat ok).Short (s.added ok)) (hrun : run act s events = some t) :
    (t.stat ok).Short (t.added ok) := by
  induction events generalizing s with
  | nil =>
    cases hrun
    exact hshort
  | cons e events ih =>
    obtain ⟨u, hact, hrest⟩ := Option.bind_eq_some_iff.mp hrun
    exact ih (sound_act h hact) (short_act h hshort hact) hrest

theorem tight_run {events : List (TxEvent ι)} (h : s.Sound) {ok : Bool} (htight : s.Tight ok)
    (hrun : run act s events = some t) (hapart : Throughout act Apart s events) : t.Tight ok := by
  induction events generalizing s with
  | nil =>
    cases hrun
    exact htight
  | cons e events ih =>
    obtain ⟨u, hact, hrest⟩ := Option.bind_eq_some_iff.mp hrun
    obtain ⟨he, htail⟩ := hapart u hact
    exact ih (sound_act h hact) (tight_act h htight hact he) hrest htail

theorem short_of_not_throughout {events : List (TxEvent ι)} (h : s.Sound)
    (hrun : run act s events = some t) (hapart : ¬Throughout act Apart s events) :
    ∃ ok, (t.stat ok).Short (t.added ok) := by
  induction events generalizing s with
  | nil => exact absurd trivial hapart
  | cons e events ih =>
    obtain ⟨u, hact, hrest⟩ := Option.bind_eq_some_iff.mp hrun
    have hu := sound_act h hact
    by_cases he : s.Apart e u
    · refine ih hu hrest fun htail => hapart fun u' hu' => ?_
      cases hact.symm.trans hu'
      exact ⟨he, htail⟩
    · obtain ⟨ok, hshort⟩ := short_of_not_apart h hact he
      exact ⟨ok, short_run hu hshort hrest⟩

/-- **What the statistics say.** When all tasks are outside `can_send`, and have counted fewer than
`2 ^ 32` results, `tx_frames` and `tx_busy` are exact if and only if no task ever began to count in
one while another was in the middle of it. -/
theorem transmit_counts (events : List (TxEvent ι)) {s : TxPath ι}
    (h : run act start events = some s) (hout : ∀ i, s.pc i = .outside)
    (hlt : s.counted.length < 2 ^ 32) :
    (∀ ok, (s.stat ok).value = UInt32.ofNat (s.added ok)) ↔ Throughout act Apart start events := by
  have hs := sound_run sound_start h
  constructor
  · intro hexact
    by_contra hapart
    obtain ⟨ok, hshort⟩ := short_of_not_throughout sound_start h hapart
    refine hshort.value_ne (fun i => (hs.stat ok).none ?_) ?_ (hexact ok)
    · rw [hout i]
      rfl
    · exact Nat.lt_of_le_of_lt List.countP_le_length hlt
  · intro hapart ok
    have htight : (start : TxPath ι).Tight ok := by
      cases ok <;> exact ⟨SharedCounter.exact_zero, fun _ _ hi => nomatch hi⟩
    exact (tight_run sound_start htight h hapart).1.value

/-- One of the two frames is not counted. -/
theorem transmit_counts_overtaken : ∃ s : TxPath Bool, run act start overtaken = some s ∧
    ¬∀ ok, (s.stat ok).value = UInt32.ofNat (s.added ok) :=
  ⟨_, rfl, fun hexact =>
    absurd ((transmit_counts overtaken rfl (by decide) (by decide)).mp hexact) (by decide)⟩

end TxPath

end Rjs
