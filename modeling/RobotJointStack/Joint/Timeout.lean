import Mathlib.Data.List.Induction
import RobotJointStack.Joint.Run
import RobotJointStack.Lib.Flags
import RobotJointStack.Lib.History

/-!
# Joint.Timeout

The command timeout and the error flags, told from the history of a run. The history says which
command came last and how many milliseconds have been stepped since (`silence`); the joint only
has a 32-bit timer that counts in position mode.

* `timesOut_iff`, `step_of_timesOut`, `step_of_not_timesOut`: one step, from the timer.
* `remembers_run`: in every run the joint's timer, flags and sequence number are the history's.
* `timeout_exact`: which steps of a run time out, and what each flag means.
-/

namespace Rjs

open Flags History

/-! ## Histories -/

namespace JointAction

def isCommand : JointAction → Bool
  | .command _ => true
  | .step _ => false

def command? : JointAction → Option Command
  | .command cmd => some cmd.1
  | .step _ => none

def positionCommand? : JointAction → Option Command
  | .command cmd => if cmd.1.mode = JointMode.position.code then some cmd.1 else none
  | .step _ => none

end JointAction

def lastCommand (acts : List JointAction) : Option Command := last? JointAction.command? acts

def lastPositionCommand (acts : List JointAction) : Option Command :=
  last? JointAction.positionCommand? acts

/-- The milliseconds stepped since the last command. -/
def silence (acts : List JointAction) : Nat :=
  ((since JointAction.isCommand acts).map JointAction.dtMs).sum

theorem silence_command (acts : List JointAction) (cmd : AcceptedCommand) :
    silence (acts ++ [.command cmd]) = 0 := by
  rw [silence, since_snoc_mark acts rfl]; rfl

theorem silence_step (acts : List JointAction) (dt : UInt32) :
    silence (acts ++ [.step dt]) = silence acts + dt.toNat := by
  rw [silence, since_snoc_other acts rfl, List.map_append, List.sum_append]; rfl

namespace Joint

/-! ## One step -/

/-- The step of `dt` milliseconds is a command timeout. -/
def TimesOut (j : Joint) (dt : UInt32) : Prop :=
  j.mode = JointMode.position.code ∧ (j.step dt).mode = JointMode.disabled.code

instance (j : Joint) (dt : UInt32) : Decidable (j.TimesOut dt) :=
  inferInstanceAs (Decidable (_ ∧ _))

section Step

variable {j : Joint} {dt : UInt32}

theorem step_of_timesOut (h : j.TimesOut dt) :
    (j.step dt).errorFlags = j.errorFlags ||| errPeerLost ∧
      (j.step dt).timeouts = j.timeouts + 1 := by
  obtain ⟨hm, hd⟩ := h
  have h0 : dt ≠ 0 := by
    rintro rfl
    rw [step_zero, hm] at hd
    exact position_ne_disabled hd
  obtain ⟨hmode, -, hflags, hcount⟩ := j.step_control dt h0
  rw [hmode] at hd
  rw [hflags, hcount]
  obtain ⟨e, -⟩ | ⟨-, -, -, e⟩ | ⟨-, -, -, e⟩ := j.checkTimeout_cases dt
  · rw [e, hm] at hd; exact absurd hd position_ne_disabled
  · rw [e] at hd; exact absurd (hm.symm.trans hd) position_ne_disabled
  · rw [e]; exact ⟨rfl, rfl⟩

theorem step_of_not_timesOut (h : ¬j.TimesOut dt) :
    (j.step dt).mode = j.mode ∧ (j.step dt).errorFlags = j.errorFlags ∧
      (j.step dt).timeouts = j.timeouts ∧
      (j.step dt).sinceCommandMs =
        if j.mode = JointMode.position.code ∧ j.cfg.commandTimeoutMs ≠ 0 then j.sinceCommandMs + dt
        else j.sinceCommandMs := by
  by_cases h0 : dt = 0
  · subst h0; rw [step_zero]; simp
  obtain ⟨hmode, hsince, hflags, hcount⟩ := j.step_control dt h0
  rw [hmode, hsince, hflags, hcount]
  obtain ⟨e, hoff⟩ | ⟨hm, ht, -, e⟩ | ⟨hm, -, -, e⟩ := j.checkTimeout_cases dt
  · rw [e, if_neg (by rintro ⟨hm, ht⟩; exact hoff.elim (absurd hm) ht)]
    exact ⟨rfl, rfl, rfl, rfl⟩
  · rw [e, if_pos ⟨hm, ht⟩]; exact ⟨rfl, rfl, rfl, rfl⟩
  · exact absurd ⟨hm, by rw [hmode, e]⟩ h

/-- With no overflow in the timer, a step times out exactly when the timer passes the limit. -/
theorem timesOut_iff (hdt : j.cfg.commandTimeoutMs.toNat + dt.toNat < 2 ^ 32)
    (hsince : j.mode = JointMode.position.code → j.cfg.commandTimeoutMs ≠ 0 →
      j.sinceCommandMs ≤ j.cfg.commandTimeoutMs) :
    j.TimesOut dt ↔ j.mode = JointMode.position.code ∧ j.cfg.commandTimeoutMs ≠ 0 ∧
      j.cfg.commandTimeoutMs.toNat < j.sinceCommandMs.toNat + dt.toNat := by
  simp only [UInt32.le_iff_toNat_le] at hsince
  have hadd (hm : j.mode = JointMode.position.code) (ht : j.cfg.commandTimeoutMs ≠ 0) :
      (j.sinceCommandMs + dt).toNat = j.sinceCommandMs.toNat + dt.toNat := by
    have := hsince hm ht
    rw [UInt32.toNat_add, Nat.mod_eq_of_lt (by omega)]
  by_cases h0 : dt = 0
  · subst h0
    simp only [TimesOut, step_zero, UInt32.toNat_zero]
    constructor
    · rintro ⟨hm, hd⟩; rw [hm] at hd; exact absurd hd position_ne_disabled
    · rintro ⟨hm, ht, hlt⟩; have := hsince hm ht; omega
  rw [TimesOut, (j.step_control dt h0).1]
  obtain ⟨e, hoff⟩ | ⟨hm, ht, hle, e⟩ | ⟨hm, ht, hlt, e⟩ := j.checkTimeout_cases dt
  · constructor
    · rintro ⟨hm, hd⟩; rw [e, hm] at hd; exact absurd hd position_ne_disabled
    · rintro ⟨hm, ht, -⟩; exact hoff.elim (absurd hm) (absurd · ht)
  · rw [UInt32.le_iff_toNat_le, hadd hm ht] at hle
    constructor
    · rintro ⟨-, hd⟩; rw [e] at hd; exact absurd (hm.symm.trans hd) position_ne_disabled
    · rintro ⟨-, -, hlt⟩; omega
  · rw [UInt32.lt_iff_toNat_lt, hadd hm ht] at hlt
    rw [e]
    exact ⟨fun _ => ⟨hm, ht, hlt⟩, fun _ => ⟨hm, rfl⟩⟩

end Step

/-! ## Runs -/

/-- In the run from `init cfg`, a step has timed out since the last command. -/
def TimedOut (cfg : JointConfig) (acts : List JointAction) : Prop :=
  OccursSince JointAction.isCommand
    (fun before a => ∃ dt, a = .step dt ∧ ((init cfg).run before).TimesOut dt) acts

/-- Joint `j` remembers of the history `acts` what its registers are for. -/
structure Remembers (cfg : JointConfig) (acts : List JointAction) (j : Joint) : Prop where
  minMdeg : j.cfg.minMdeg = cfg.minMdeg
  maxMdeg : j.cfg.maxMdeg = cfg.maxMdeg
  timeout : j.cfg.commandTimeoutMs = cfg.commandTimeoutMs
  lastSeq : j.lastSeq = (lastCommand acts).elim 0 (·.sequence)
  limitReached : HasFlag j.errorFlags errLimitReached ↔
    ∃ cmd, lastPositionCommand acts = some cmd ∧
      (cmd.targetMdeg < cfg.minMdeg ∨ cfg.maxMdeg < cmd.targetMdeg)
  peerLost : HasFlag j.errorFlags errPeerLost ↔ TimedOut cfg acts
  /-- A joint still in position mode has not timed out. -/
  position : j.mode = JointMode.position.code → ¬TimedOut cfg acts
  timer : j.mode = JointMode.position.code → cfg.commandTimeoutMs ≠ 0 →
    j.sinceCommandMs.toNat = silence acts ∧ silence acts ≤ cfg.commandTimeoutMs.toNat

section Runs

variable {cfg : JointConfig} {acts : List JointAction} {j : Joint}

theorem remembers_init (cfg : JointConfig) : Remembers cfg [] (init cfg) where
  minMdeg := rfl
  maxMdeg := rfl
  timeout := rfl
  lastSeq := rfl
  limitReached := by
    simp [init, hasFlag_zero, lastPositionCommand]
  peerLost := iff_of_false hasFlag_zero (not_occursSince_nil _ _)
  position := fun hm => absurd hm.symm position_ne_disabled
  timer := fun hm => absurd hm.symm position_ne_disabled

theorem remembers_command (h : Remembers cfg acts j) (cmd : AcceptedCommand) :
    Remembers cfg (acts ++ [.command cmd]) (j.command cmd.1) where
  minMdeg := by rw [command_cfg, h.minMdeg]
  maxMdeg := by rw [command_cfg, h.maxMdeg]
  timeout := by rw [command_cfg, h.timeout]
  lastSeq := by
    rw [lastCommand, last?_snoc]
    unfold command; split <;> rfl
  limitReached := by
    rw [lastPositionCommand, last?_snoc, ← lastPositionCommand]
    unfold command
    by_cases hm : cmd.1.mode = JointMode.position.code
    · have hlast : JointAction.positionCommand? (.command cmd) = some cmd.1 := if_pos hm
      simp only [hm, ne_eq, not_true_eq_false, if_false, hlast, Option.some_or, Option.some.injEq,
        exists_eq_left', h.minMdeg, h.maxMdeg, gt_iff_lt]
      split
      · rename_i hout
        exact iff_of_true (hasFlag_set (by decide)) hout
      · rename_i hin
        exact iff_of_false not_hasFlag_clear hin
    · have hlast : JointAction.positionCommand? (.command cmd) = none := if_neg hm
      simp only [ne_eq, hm, not_false_eq_true, if_true, hlast, Option.none_or]
      rw [hasFlag_clear_other (by decide), h.limitReached]
  peerLost := by
    refine iff_of_false ?_ (not_occursSince_snoc_mark _ _ rfl)
    unfold command
    dsimp only
    split
    · exact not_hasFlag_clear
    · dsimp only
      split
      · rw [hasFlag_set_other (by decide)]; exact not_hasFlag_clear
      · rw [hasFlag_clear_other (by decide)]; exact not_hasFlag_clear
  position := fun _ => not_occursSince_snoc_mark _ _ rfl
  timer := fun _ _ => by
    rw [silence_command]
    refine ⟨?_, Nat.zero_le _⟩
    unfold command; split <;> rfl

/-- The timer of a joint in position mode has counted the silence of the history. -/
theorem Remembers.timesOut_iff (h : Remembers cfg acts j) {dt : UInt32}
    (hdt : cfg.commandTimeoutMs.toNat + dt.toNat < 2 ^ 32) :
    j.TimesOut dt ↔ j.mode = JointMode.position.code ∧ cfg.commandTimeoutMs ≠ 0 ∧
      silence acts ≤ cfg.commandTimeoutMs.toNat ∧
      cfg.commandTimeoutMs.toNat < silence acts + dt.toNat := by
  rw [Joint.timesOut_iff (by rw [h.timeout]; exact hdt), h.timeout]
  · constructor
    · rintro ⟨hm, ht, hlt⟩
      obtain ⟨hsince, hle⟩ := h.timer hm ht
      exact ⟨hm, ht, hle, hsince ▸ hlt⟩
    · rintro ⟨hm, ht, -, hlt⟩
      exact ⟨hm, ht, (h.timer hm ht).1.symm ▸ hlt⟩
  · rw [h.timeout]
    intro hm ht
    obtain ⟨hsince, hle⟩ := h.timer hm ht
    rw [UInt32.le_iff_toNat_le, hsince]; exact hle

theorem timedOut_step (hj : (init cfg).run acts = j) (dt : UInt32) :
    TimedOut cfg (acts ++ [.step dt]) ↔ TimedOut cfg acts ∨ j.TimesOut dt := by
  subst hj
  rw [TimedOut, occursSince_snoc_other rfl, ← TimedOut]
  refine or_congr_right ⟨?_, fun h => ⟨dt, rfl, h⟩⟩
  rintro ⟨dt', hdt, h⟩
  cases hdt
  exact h

theorem remembers_step (h : Remembers cfg acts j) (hj : (init cfg).run acts = j) {dt : UInt32}
    (hdt : cfg.commandTimeoutMs.toNat + dt.toNat < 2 ^ 32) :
    Remembers cfg (acts ++ [.step dt]) (j.step dt) where
  minMdeg := by rw [step_cfg, h.minMdeg]
  maxMdeg := by rw [step_cfg, h.maxMdeg]
  timeout := by rw [step_cfg, h.timeout]
  lastSeq := by rw [step_lastSeq, h.lastSeq, lastCommand, lastCommand, last?_snoc]; rfl
  limitReached := by
    have hlast : lastPositionCommand (acts ++ [.step dt]) = lastPositionCommand acts := by
      rw [lastPositionCommand, last?_snoc]; rfl
    rw [hlast, ← h.limitReached]
    by_cases ho : j.TimesOut dt
    · rw [(step_of_timesOut ho).1, hasFlag_set_other (by decide)]
    · rw [(step_of_not_timesOut ho).2.1]
  peerLost := by
    rw [timedOut_step hj, ← h.peerLost]
    by_cases ho : j.TimesOut dt
    · rw [(step_of_timesOut ho).1]
      exact iff_of_true (hasFlag_set (by decide)) (.inr ho)
    · rw [(step_of_not_timesOut ho).2.1]
      exact (or_iff_left ho).symm
  position := by
    intro hm
    rw [timedOut_step hj]
    rintro (ht | ⟨-, hd⟩)
    · cases j.step_mode dt with
      | inl e => exact h.position (e ▸ hm) ht
      | inr e => exact position_ne_disabled (hm.symm.trans e)
    · exact position_ne_disabled (hm.symm.trans hd)
  timer := by
    intro hm ht
    by_cases ho : j.TimesOut dt
    · exact absurd (hm.symm.trans ho.2) position_ne_disabled
    obtain ⟨hmode, -, -, hsince⟩ := step_of_not_timesOut ho
    rw [hmode] at hm
    obtain ⟨htimer, hle⟩ := h.timer hm ht
    have hstay : silence acts + dt.toNat ≤ cfg.commandTimeoutMs.toNat := by
      by_contra hlt
      exact ho ((h.timesOut_iff hdt).mpr ⟨hm, ht, hle, not_le.mp hlt⟩)
    rw [silence_step, hsince, if_pos ⟨hm, h.timeout ▸ ht⟩, UInt32.toNat_add, htimer,
      Nat.mod_eq_of_lt (by omega)]
    exact ⟨rfl, hstay⟩

theorem remembers_run (cfg : JointConfig) {acts : List JointAction}
    (hdt : ∀ dt, .step dt ∈ acts → cfg.commandTimeoutMs.toNat + dt.toNat < 2 ^ 32) :
    Remembers cfg acts ((init cfg).run acts) := by
  induction acts using List.reverseRecOn with
  | nil => exact remembers_init cfg
  | append_singleton acts a ih =>
    have h := ih fun dt hm => hdt dt (List.mem_append_left [a] hm)
    rw [run_snoc]
    cases a with
    | command cmd => exact remembers_command h cmd
    | step dt => exact remembers_step h rfl (hdt dt (List.mem_append_right acts List.mem_cons_self))

end Runs

/-! ## The timeout rules -/

/-- The rules for one step of `dt` milliseconds after the history `before`. -/
structure StepRules (cfg : JointConfig) (before : List JointAction) (dt : UInt32) : Prop where
  /-- A timeout is the step in position mode that brings the silence past the limit. -/
  timesOut : ((init cfg).run before).TimesOut dt ↔
    ((init cfg).run before).mode = JointMode.position.code ∧ cfg.commandTimeoutMs ≠ 0 ∧
      silence before ≤ cfg.commandTimeoutMs.toNat ∧
      cfg.commandTimeoutMs.toNat < silence before + dt.toNat
  mode : ¬((init cfg).run before).TimesOut dt →
    (((init cfg).run before).step dt).mode = ((init cfg).run before).mode
  timeouts : (((init cfg).run before).step dt).timeouts =
    if ((init cfg).run before).TimesOut dt then ((init cfg).run before).timeouts + 1
    else ((init cfg).run before).timeouts
  /-- Without a limit there are no timeouts. -/
  unlimited : cfg.commandTimeoutMs = 0 → ¬((init cfg).run before).TimesOut dt

/-- What the state `j` after the history `acts` shows of it. -/
structure StateRules (cfg : JointConfig) (acts : List JointAction) (j : Joint) : Prop where
  lastSeq : j.lastSeq = (lastCommand acts).elim 0 (·.sequence)
  peerLost : HasFlag j.errorFlags errPeerLost ↔ TimedOut cfg acts
  notInPosition : j.mode = JointMode.position.code → ¬HasFlag j.errorFlags errPeerLost
  limitReached : HasFlag j.errorFlags errLimitReached ↔
    ∃ cmd, lastPositionCommand acts = some cmd ∧
      (cmd.targetMdeg < cfg.minMdeg ∨ cfg.maxMdeg < cmd.targetMdeg)

/-- **Timeouts and flags are exact.** At every point of every run of accepted commands and steps
whose timer sums fit 32 bits, the step rules hold of the next step, commands leave the count of
timeouts alone, and the state rules hold. -/
theorem timeout_exact (cfg : JointConfig) {acts : List JointAction}
    (hdt : ∀ dt, .step dt ∈ acts → cfg.commandTimeoutMs.toNat + dt.toNat < 2 ^ 32) :
    (∀ before dt after, acts = before ++ .step dt :: after → StepRules cfg before dt) ∧
    (∀ before cmd after, acts = before ++ .command cmd :: after →
      (((init cfg).run before).command cmd.1).timeouts = ((init cfg).run before).timeouts) ∧
    (∀ before after, acts = before ++ after → StateRules cfg before ((init cfg).run before)) := by
  refine ⟨?_, ?_, ?_⟩
  · rintro before dt after rfl
    have h := remembers_run cfg fun d hm => hdt d (List.mem_append_left _ hm)
    have hiff := h.timesOut_iff (hdt dt (List.mem_append_right before List.mem_cons_self))
    refine ⟨hiff, fun ho => (step_of_not_timesOut ho).1, ?_, fun ht ho => (hiff.mp ho).2.1 ht⟩
    split
    · rename_i ho
      exact (step_of_timesOut ho).2
    · rename_i ho
      exact (step_of_not_timesOut ho).2.2.1
  · intro before cmd after _
    unfold command; split <;> rfl
  · rintro before after rfl
    have h := remembers_run cfg fun d hm => hdt d (List.mem_append_left _ hm)
    exact ⟨h.lastSeq, h.peerLost, fun hm hp => h.position hm (h.peerLost.mp hp), h.limitReached⟩

/-- A joint with a 500 ms limit, stepped past it after one command. -/
theorem timeout_exact_late :
    StateRules ⟨-170000, 170000, 360000, 500⟩
      [.command ⟨⟨1, 90000, 90000, 7⟩, decoderAccepts_iff.mpr (by decide)⟩, .step 500, .step 1]
      ((init ⟨-170000, 170000, 360000, 500⟩).run
        [.command ⟨⟨1, 90000, 90000, 7⟩, decoderAccepts_iff.mpr (by decide)⟩, .step 500,
          .step 1]) :=
  (timeout_exact ⟨-170000, 170000, 360000, 500⟩ (by
    intro dt hm
    cases List.mem_cons.mp hm with
    | inl h => cases h
    | inr hm =>
      cases List.mem_cons.mp hm with
      | inl h =>
        cases h; decide
      | inr hm =>
        cases List.mem_singleton.mp hm; decide)).2.2 _ [] (List.append_nil _).symm

end Joint

end Rjs
