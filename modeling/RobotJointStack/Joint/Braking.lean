import Mathlib.Algebra.Order.BigOperators.Group.List
import RobotJointStack.Joint.Run

/-!
# Joint.Braking

A joint that is not being commanded. Its speed only falls and its position follows the velocity,
but whether it comes to rest depends on the step length: the source rounds the speed it takes off
down, so a step with `accel * dt < 1000` takes off nothing.

* `Plant.abs_brakeRun_vel`: a run of braking steps takes the sum of their `dv` off the speed.
* `comesToStandstill_iff`: the joint rests after `|v|` steps iff these steps take `|v|` off.
-/

namespace Rjs

namespace Plant

variable {p : Plant} {m : Motion}

def brakeRun (p : Plant) (dts : List Nat) (m : Motion) : Motion :=
  dts.foldl (fun m dt => p.brake dt m) m

theorem abs_brakeRun_vel (dts : List Nat) :
    |(p.brakeRun dts m).vel| = max 0 (|m.vel| - (dts.map p.dv).sum) := by
  induction dts generalizing m with
  | nil => simp [brakeRun]
  | cons dt dts ih =>
    have hsum : 0 ≤ (dts.map p.dv).sum :=
      List.sum_nonneg fun x hx => by
        obtain ⟨dt, -, rfl⟩ := List.mem_map.mp hx
        exact p.dv_nonneg dt
    have hstep := p.abs_brake_vel dt m
    have hrun : p.brakeRun (dt :: dts) m = p.brakeRun dts (p.brake dt m) := rfl
    rw [hrun, ih, hstep, List.map_cons, List.sum_cons]
    omega

theorem brakeRun_rest (dts : List Nat) (h : p.Holds m.pos) (hv : m.vel = 0) :
    p.brakeRun dts m = m := by
  induction dts with
  | nil => rfl
  | cons dt dts ih =>
    have hrun : p.brakeRun (dt :: dts) m = p.brakeRun dts (p.brake dt m) := rfl
    rw [hrun, brake_rest dt h hv, ih]

end Plant

namespace Joint

variable {p : Plant} {j : Joint}

theorem step_disabled (h : j.Safe p) (hd : j.mode = JointMode.disabled.code) {dt : UInt32}
    (h0 : dt ≠ 0) : (j.step dt).mode = JointMode.disabled.code ∧
      (j.step dt).motion = p.brake dt.toNat j.motion := by
  obtain ⟨-, hbrake⟩ | ⟨-, hm, -, -⟩ := motion_step h h0
  · exact hbrake
  · rw [hd] at hm; exact absurd hm (by decide)

theorem steps_disabled (h : j.Safe p) (hd : j.mode = JointMode.disabled.code) {dts : List UInt32}
    (h0 : ∀ dt ∈ dts, dt ≠ 0) : (j.steps dts).mode = JointMode.disabled.code ∧
      (j.steps dts).motion = p.brakeRun (dts.map (·.toNat)) j.motion := by
  induction dts generalizing j with
  | nil => exact ⟨hd, rfl⟩
  | cons dt dts ih =>
    obtain ⟨hd', hm⟩ := step_disabled h hd (h0 dt List.mem_cons_self)
    have := ih (safe_step h dt) hd' fun d hm => h0 d (List.mem_cons_of_mem dt hm)
    rw [hm] at this
    exact this

/-! ## Coming to a standstill -/

/-- One step of a joint that is left alone: no faster, no turning round, and the position moves
only along the velocity. -/
structure Coasts (j j' : Joint) : Prop where
  slower : |j'.velocityMdegS.toInt| ≤ |j.velocityMdegS.toInt|
  nonneg : 0 ≤ j.velocityMdegS.toInt → 0 ≤ j'.velocityMdegS.toInt
  nonpos : j.velocityMdegS.toInt ≤ 0 → j'.velocityMdegS.toInt ≤ 0
  forward : j.positionMdeg.toInt < j'.positionMdeg.toInt → 0 < j'.velocityMdegS.toInt
  backward : j'.positionMdeg.toInt < j.positionMdeg.toInt → j'.velocityMdegS.toInt < 0

/-- A run without commands brakes `j` to rest within `|velocity|` steps, for good. -/
structure ComesToStandstill (j : Joint) (dts : List UInt32) : Prop where
  coasts : ∀ k < dts.length, Coasts (j.steps (dts.take k)) (j.steps (dts.take (k + 1)))
  stops : ∀ k ≤ dts.length, j.velocityMdegS.toInt.natAbs ≤ k →
    (j.steps (dts.take k)).velocityMdegS = 0
  stays : ∀ k ≤ dts.length, j.velocityMdegS.toInt.natAbs ≤ k →
    (j.steps (dts.take k)).positionMdeg = (j.steps dts).positionMdeg

/-- The speed that braking steps of the lengths `dts` take off. -/
def speedTaken (j : Joint) (dts : List UInt32) : Int :=
  (dts.map fun dt => j.cfg.accelMdegS2.toInt * dt.toNat / 1000).sum

/-- The first `|velocity|` steps, if the run has that many, are long enough together. -/
def StepsLongEnough (j : Joint) (dts : List UInt32) : Prop :=
  j.velocityMdegS.toInt.natAbs ≤ dts.length →
    |j.velocityMdegS.toInt| ≤ j.speedTaken (dts.take j.velocityMdegS.toInt.natAbs)

/-- Steps that each take something off are long enough. -/
theorem stepsLongEnough_of_forall {dts : List UInt32}
    (h : ∀ dt ∈ dts, 1000 ≤ j.cfg.accelMdegS2.toInt * dt.toNat) : j.StepsLongEnough dts := by
  intro hlen
  have hsum : ∀ l : List UInt32, (∀ dt ∈ l, 1000 ≤ j.cfg.accelMdegS2.toInt * dt.toNat) →
      (l.length : Int) ≤ j.speedTaken l := by
    intro l hl
    induction l with
    | nil => simp [speedTaken]
    | cons dt l ih =>
      have htail := ih fun d hd => hl d (List.mem_cons_of_mem dt hd)
      have hdt := hl dt List.mem_cons_self
      simp only [speedTaken, List.map_cons, List.sum_cons, List.length_cons] at htail ⊢
      omega
  have := hsum (dts.take j.velocityMdegS.toInt.natAbs) fun dt hdt => h dt (List.mem_of_mem_take hdt)
  rw [List.length_take, Nat.min_eq_left hlen, Int.natCast_natAbs] at this
  exact this

theorem coasts_step (h : j.Safe p) (hd : j.mode = JointMode.disabled.code) {dt : UInt32}
    (h0 : dt ≠ 0) : Coasts j (j.step dt) := by
  have hm := (step_disabled h hd h0).2
  have hpos : (j.step dt).positionMdeg.toInt = (p.brake dt.toNat j.motion).pos := by rw [← hm]; rfl
  have hvel : (j.step dt).velocityMdegS.toInt = (p.brake dt.toNat j.motion).vel := by rw [← hm]; rfl
  constructor
  · rw [hvel]; exact p.abs_brake_vel_le dt.toNat j.motion
  · intro hv
    rw [hvel, p.brake_vel_nonneg dt.toNat (m := j.motion) hv]
    exact le_max_left _ _
  · intro hv
    rw [hvel, p.brake_vel_nonpos dt.toNat (m := j.motion) hv]
    exact min_le_left _ _
  · intro hlt
    rw [hpos] at hlt
    rw [hvel]
    by_contra hle
    exact absurd (Plant.brake_pos_le dt.toNat h.pos (not_lt.mp hle)) (not_le.mpr hlt)
  · intro hlt
    rw [hpos] at hlt
    rw [hvel]
    by_contra hle
    exact absurd (Plant.le_brake_pos dt.toNat h.pos (not_lt.mp hle)) (not_le.mpr hlt)

theorem steps_take_disabled (h : j.Safe p) (hd : j.mode = JointMode.disabled.code)
    {dts : List UInt32} (h0 : ∀ dt ∈ dts, dt ≠ 0) (k : Nat) :
    (j.steps (dts.take k)).mode = JointMode.disabled.code :=
  (steps_disabled h hd fun dt hm => h0 dt (List.mem_of_mem_take hm)).1

section Run

variable {dts : List UInt32} (h : j.Safe p) (hd : j.mode = JointMode.disabled.code)
  (h0 : ∀ dt ∈ dts, dt ≠ 0)

include h hd h0

theorem abs_steps_velocity : |(j.steps dts).velocityMdegS.toInt| =
    max 0 (|j.velocityMdegS.toInt| - j.speedTaken dts) := by
  have hm := (steps_disabled h hd h0).2
  have htaken : j.speedTaken dts = ((dts.map (·.toNat)).map p.dv).sum := by
    rw [speedTaken, h.acc, List.map_map]; rfl
  have hrun := p.abs_brakeRun_vel (m := j.motion) (dts.map (·.toNat))
  rw [← hm] at hrun
  rw [htaken]
  exact hrun

/-- Once at rest, the joint stays where it is. -/
theorem steps_after_rest {n k : Nat} (hnk : n ≤ k)
    (hrest : (j.steps (dts.take n)).velocityMdegS = 0) :
    (j.steps (dts.take k)).motion = (j.steps (dts.take n)).motion := by
  have hsplit : j.steps (dts.take k) = (j.steps (dts.take n)).steps ((dts.take k).drop n) := by
    rw [← steps_append]
    congr 1
    conv_lhs => rw [← List.take_append_drop n (dts.take k), List.take_take, Nat.min_eq_left hnk]
  have hsafe := safe_steps h (dts.take n)
  have hmode := steps_take_disabled h hd h0 n
  rw [hsplit, (steps_disabled hsafe hmode fun dt hm =>
    h0 dt (List.mem_of_mem_take (List.mem_of_mem_drop hm))).2]
  exact Plant.brakeRun_rest _ hsafe.pos (by rw [motion_vel, hrest]; rfl)

end Run

/-- Every reachable disabled joint, left alone for any steps, coasts; it is at rest after
`|velocity|` of them, for good, exactly when they are long enough. -/
theorem comesToStandstill_iff {cfg : JointConfig} (hcfg : cfg.HoldsZero) (acts : List JointAction)
    (hd : ((init cfg).run acts).mode = JointMode.disabled.code) {dts : List UInt32}
    (h0 : ∀ dt ∈ dts, 1 ≤ dt) :
    ((init cfg).run acts).ComesToStandstill dts ↔ ((init cfg).run acts).StepsLongEnough dts := by
  have h := safe_reachable cfg hcfg acts
  generalize (init cfg).run acts = j at h hd
  have hne : ∀ dt ∈ dts, dt ≠ 0 := fun dt hm => ne_zero_of_one_le (h0 dt hm)
  have hspeed (k : Nat) : |(j.steps (dts.take k)).velocityMdegS.toInt| =
      max 0 (|j.velocityMdegS.toInt| - j.speedTaken (dts.take k)) :=
    abs_steps_velocity h hd fun dt hm => hne dt (List.mem_of_mem_take hm)
  have hzero : ∀ v : Int32, v = 0 ↔ |v.toInt| = 0 := by
    intro v
    rw [abs_eq_zero, ← Int32.toInt_inj]; rfl
  constructor
  · intro hstand hlen
    have hrest := (hzero _).mp (hstand.stops _ hlen le_rfl)
    rw [hspeed] at hrest
    omega
  · intro hlong
    have hrest (hn : j.velocityMdegS.toInt.natAbs ≤ dts.length) :
        (j.steps (dts.take j.velocityMdegS.toInt.natAbs)).velocityMdegS = 0 := by
      rw [hzero, hspeed]
      have := hlong hn
      omega
    refine ⟨fun k hk => ?_, fun k hk hn => ?_, fun k hk hn => ?_⟩
    · have hsafe := safe_steps h (dts.take k)
      have hmode := steps_take_disabled h hd hne k
      rw [steps_take_succ j hk]
      exact coasts_step hsafe hmode (hne _ (List.getElem_mem hk))
    · have hsame := congrArg Motion.vel
        (steps_after_rest h hd hne hn (hrest (hn.trans hk)))
      rw [motion_vel, motion_vel, Int32.toInt_inj] at hsame
      rw [hsame, hrest (hn.trans hk)]
    · have hk' := congrArg Motion.pos (steps_after_rest h hd hne hn (hrest (hn.trans hk)))
      have hend := congrArg Motion.pos
        (steps_after_rest h hd hne (hn.trans hk) (hrest (hn.trans hk)))
      rw [List.take_length] at hend
      rw [motion_pos, motion_pos] at hk' hend
      rw [← Int32.toInt_inj, hk', hend]

/-- A joint disabled at 3 mdeg/s stops under 10 ms steps with 100000 mdeg/s². -/
theorem comesToStandstill_fast :
    ((init ⟨-170000, 170000, 100000, 0⟩).run
      [.command ⟨⟨1, 90000, 3, 1⟩, decoderAccepts_iff.mpr (by decide)⟩, .step 10,
        .command ⟨⟨0, 0, 0, 2⟩, decoderAccepts_iff.mpr (by decide)⟩]).ComesToStandstill
      [10, 10, 10, 10] :=
  (comesToStandstill_iff (by decide) _ (by decide +kernel) (by simp)).mpr
    (stepsLongEnough_of_forall fun dt hm => by
      obtain rfl : dt = 10 := by simpa using hm
      decide +kernel)

/-- With 1 mdeg/s² and 1 ms steps a disabled joint never stops: each step takes nothing off. -/
theorem not_comesToStandstill_slow :
    ¬∀ cfg : JointConfig, cfg.HoldsZero → ∀ acts : List JointAction,
      ((init cfg).run acts).mode = JointMode.disabled.code →
      ∀ dts : List UInt32, (∀ dt ∈ dts, 1 ≤ dt) → ((init cfg).run acts).ComesToStandstill dts := by
  intro h
  have hstop := (h ⟨-170000, 170000, 1, 0⟩ (by decide)
    [.command ⟨⟨1, 100, 100, 1⟩, decoderAccepts_iff.mpr (by decide)⟩, .step 1,
      .command ⟨⟨0, 0, 0, 2⟩, decoderAccepts_iff.mpr (by decide)⟩]
    (by decide +kernel) [1] (by simp)).stops 1 (by decide) (by decide +kernel)
  exact absurd hstop (by decide +kernel)

end Joint

end Rjs
