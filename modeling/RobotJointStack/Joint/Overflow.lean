import RobotJointStack.Lib.Checked
import RobotJointStack.Joint.Arrival
import RobotJointStack.Joint.Current

/-!
# Joint.Overflow

Which joints can run into a signed overflow. `Checked` is `rjs_joint_step` and
`rjs_joint_get_state` once more, operation by operation, with `none` where an operation of C
overflows; the unsigned timer and counters stay as they are.

* `Checked.brake_eq`, `Checked.getState_eq`: braking and reading the state never overflow.
* `Checked.track_eq`, `Checked.track_eq_none`: the position branch overflows exactly where the stop
  product `2 * a * |err|` does.
* `no_overflow_iff`: the configurations under which no run overflows.
-/

namespace Rjs

open CInt Slew

namespace Checked

def clamp32 (v : Int64) (lo hi : Int32) : Option Int32 :=
  if v < lo.toInt64 then some lo
  else if v > hi.toInt64 then some hi
  else narrow32 v

def abs64 (v : Int64) : Option Int64 := if v < 0 then neg64 v else some v

/-- `x * dt_ms / 1000`. -/
def perMs (x : Int64) (dtMs : UInt32) : Option Int64 := do
  let product ← mul64 x (u32ToI64 dtMs)
  div64 product 1000

/-- The position after an increment. -/
def moved (j : Joint) (step : Int64) : Option Int32 := do
  let position ← add64 j.positionMdeg.toInt64 step
  clamp32 position j.cfg.minMdeg j.cfg.maxMdeg

def brakedVelocity (j : Joint) (dtMs : UInt32) : Option Int64 := do
  let dv ← perMs j.cfg.accelMdegS2.toInt64 dtMs
  let v := j.velocityMdegS.toInt64
  let speed ← abs64 v
  if speed ≤ dv then some 0
  else if v > 0 then (do
    let change ← neg64 dv
    add64 v change)
  else add64 v dv

def brake (j : Joint) (dtMs : UInt32) : Option Joint := do
  let v ← brakedVelocity j dtMs
  let velocity ← narrow32 v
  let step ← perMs v dtMs
  let position ← moved j step
  some { j with velocityMdegS := velocity, positionMdeg := position }

/-- `2 * a * abs64(err)`. -/
def stopProduct (j : Joint) (err : Int64) : Option Int64 := do
  let twice ← mul64 2 j.cfg.accelMdegS2.toInt64
  let distance ← abs64 err
  mul64 twice distance

def vWant (j : Joint) : Option Int64 := do
  let err ← sub64 j.targetMdeg.toInt64 j.positionMdeg.toInt64
  let stop ← stopProduct j err
  let vStop ← ofU64 (isqrtU64 stop.toUInt64)
  let vLimit := j.maxVelocityMdegS.toInt64
  let vLimit := if vStop < vLimit then vStop else vLimit
  if err > 0 then some vLimit else neg64 vLimit

/-- The velocity `v` moved toward `vWant` by at most `dvMax`. -/
def ramp (dvMax v vWant : Int64) : Option Int64 :=
  if vWant > v then (do
    let gap ← sub64 vWant v
    if gap > dvMax then add64 v dvMax else some vWant)
  else (do
    let gap ← sub64 v vWant
    if gap > dvMax then sub64 v dvMax else some vWant)

def rampedVelocity (j : Joint) (dtMs : UInt32) : Option Int64 := do
  let vWant ← vWant j
  let dvMax ← perMs j.cfg.accelMdegS2.toInt64 dtMs
  ramp (if dvMax < 1 then 1 else dvMax) j.velocityMdegS.toInt64 vWant

def track (j : Joint) (dtMs : UInt32) : Option Joint := do
  let err ← sub64 j.targetMdeg.toInt64 j.positionMdeg.toInt64
  let v ← rampedVelocity j dtMs
  let step ← perMs v dtMs
  let (step, v) := Joint.finishStep err step v
  let velocity ← narrow32 v
  let position ← moved j step
  some { j with velocityMdegS := velocity, positionMdeg := position }

def step (j : Joint) (dtMs : UInt32) : Option Joint :=
  if dtMs = 0 then some j
  else
    let j := j.checkTimeout dtMs
    if j.mode ≠ JointMode.position.code then brake j dtMs else track j dtMs

def abs32 (v : Int32) : Option Int32 := if v < 0 then neg32 v else some v

/-- The current of `rjs_joint_get_state`, before it is narrowed. -/
def current (mode : UInt8) (v : Int32) : Option Int32 :=
  if mode = JointMode.position.code then (do
    let drive ← div32 v 1000
    add32 50 drive)
  else some 0

def getState (j : Joint) : Option JointState := do
  let v ← abs32 j.velocityMdegS
  let current ← current j.mode v
  some { mode := j.mode
         positionMdeg := j.positionMdeg
         velocityMdegS := j.velocityMdegS
         currentMa := current.toInt16
         temperatureC10 := 250
         lastCommandSeq := j.lastSeq }

/-! ## Operations that never overflow -/

theorem clamp32_eq (v : Int64) (lo hi : Int32) : clamp32 v lo hi = some (Rjs.clamp32 v lo hi) := by
  have hlo := lo.le_toInt
  have hhi := hi.toInt_lt
  unfold clamp32 Rjs.clamp32
  split
  · rfl
  · rename_i hge
    split
    · rfl
    · rename_i hle
      simp only [gt_iff_lt, Int64.lt_iff_toInt_lt, Int32.toInt_toInt64] at hge hle
      exact narrow32_eq ⟨by omega, by omega⟩

theorem abs64_eq {v : Int64} (h : -2 ^ 63 < v.toInt) : abs64 v = some (Rjs.abs64 v) := by
  have hlt := v.toInt_lt
  unfold abs64 Rjs.abs64
  split
  · exact neg64_eq ⟨by omega, by omega⟩
  · rfl

theorem perMs_eq {v : Int64} (hv : |v.toInt| ≤ 2 ^ 31) (dt : UInt32) :
    perMs v dt = some (v * u32ToI64 dt / 1000) := by
  have hdt := dt.toNat_lt
  have hfits : FitsI64 (v.toInt * (u32ToI64 dt).toInt) := by
    rw [toInt_u32ToI64]; exact fitsI64_mul hv (by omega) (by omega)
  rw [perMs, mul64_eq hfits]
  exact div64_eq (b := 1000) (by decide) (by decide)

theorem moved_eq (j : Joint) {s : Int64} (hs : |s.toInt| < 2 ^ 62) : moved j s =
    some (Rjs.clamp32 (j.positionMdeg.toInt64 + s) j.cfg.minMdeg j.cfg.maxMdeg) := by
  have hpos := abs_le.mp (abs_toInt_le j.positionMdeg)
  rw [abs_lt] at hs
  have hfits : FitsI64 (j.positionMdeg.toInt64.toInt + s.toInt) := by
    rw [Int32.toInt_toInt64]
    constructor <;> omega
  rw [moved, add64_eq hfits]
  exact clamp32_eq _ _ _

theorem ramp_eq {d v w : Int64} (hd : 0 ≤ d.toInt) (hd' : d.toInt < 2 ^ 62)
    (hv : |v.toInt| ≤ 2 ^ 31) (hw : |w.toInt| ≤ 2 ^ 31) : ramp d v w =
    some (if w > v then (if w - v > d then v + d else w)
      else (if v - w > d then v - d else w)) := by
  rw [abs_le] at hv hw
  unfold ramp
  split
  · rw [bind_of_eq_some (sub64_eq ⟨by omega, by omega⟩)]
    split
    · exact add64_eq ⟨by omega, by omega⟩
    · rfl
  · rw [bind_of_eq_some (sub64_eq ⟨by omega, by omega⟩)]
    split
    · exact sub64_eq ⟨by omega, by omega⟩
    · rfl

theorem err_eq (j : Joint) : sub64 j.targetMdeg.toInt64 j.positionMdeg.toInt64 =
    some (j.targetMdeg.toInt64 - j.positionMdeg.toInt64) := by
  have herr := abs_lt.mp (abs_err_lt (j := j))
  refine sub64_eq ?_
  rw [Int32.toInt_toInt64, Int32.toInt_toInt64]
  constructor <;> omega

section Branches

variable {p : Plant} {j : Joint} (h : j.Safe p) (dt : UInt32)

theorem dv_eq (j : Joint) (dt : UInt32) : perMs j.cfg.accelMdegS2.toInt64 dt =
    some (j.cfg.accelMdegS2.toInt64 * u32ToI64 dt / 1000) := by
  refine perMs_eq ?_ dt
  rw [Int32.toInt_toInt64]
  exact abs_toInt_le _

include h

theorem brakedVelocity_eq : brakedVelocity j dt = some (j.brakedVelocity dt) := by
  have hdv := toInt_dv h dt
  have hdv0 := p.dv_nonneg dt.toNat
  have hdvlt := dv_lt h dt
  have hv := abs_le.mp (abs_toInt_le j.velocityMdegS)
  have hspeed : -2 ^ 63 < j.velocityMdegS.toInt64.toInt := by rw [Int32.toInt_toInt64]; omega
  have hneg : (-(j.cfg.accelMdegS2.toInt64 * u32ToI64 dt / 1000)).toInt = -p.dv dt.toNat := by
    rw [toInt_neg] <;> rw [hdv]
    constructor <;> omega
  unfold brakedVelocity Joint.brakedVelocity
  simp only [dv_eq, abs64_eq hspeed, Option.bind_eq_bind, Option.bind_some]
  split
  · rfl
  · split
    · rw [neg64_eq (by rw [hdv]; constructor <;> omega), Option.bind_some]
      refine add64_eq ?_
      rw [hneg, Int32.toInt_toInt64]
      constructor <;> omega
    · refine add64_eq ?_
      rw [hdv, Int32.toInt_toInt64]
      constructor <;> omega

theorem brake_eq : brake j dt = some (j.brake dt) := by
  have hfits := brakedVelocity_fits h dt
  have habs := abs_le_of_fitsI32 hfits
  have hbound := abs_travel_bound habs dt
  have hmoved := moved_eq j (s := j.brakedVelocity dt * u32ToI64 dt / 1000)
    (by rw [toInt_travel habs]; omega)
  unfold brake
  simp only [brakedVelocity_eq h, narrow32_eq hfits, perMs_eq habs, hmoved, Option.bind_eq_bind,
    Option.bind_some]
  rfl

/-! ## The stop product -/

theorem stopProduct_eq_mul64 : stopProduct j (j.targetMdeg.toInt64 - j.positionMdeg.toInt64) =
    mul64 (2 * j.cfg.accelMdegS2.toInt64)
      (Rjs.abs64 (j.targetMdeg.toInt64 - j.positionMdeg.toInt64)) := by
  have hacc := acc_bounds h
  have herr := abs_lt.mp (abs_err_lt (j := j))
  have htwice : FitsI64 ((2 : Int64).toInt * j.cfg.accelMdegS2.toInt64.toInt) := by
    have e2 : (2 : Int64).toInt = 2 := rfl
    rw [e2, Int32.toInt_toInt64, h.acc]
    constructor <;> omega
  have hgt : -2 ^ 63 < (j.targetMdeg.toInt64 - j.positionMdeg.toInt64).toInt := by
    rw [toInt_err]; omega
  simp only [stopProduct, mul64_eq htwice, abs64_eq hgt, Option.bind_eq_bind, Option.bind_some]

theorem fits_stopProduct_iff : FitsI64 ((2 * j.cfg.accelMdegS2.toInt64).toInt *
      (Rjs.abs64 (j.targetMdeg.toInt64 - j.positionMdeg.toInt64)).toInt) ↔
    2 * p.acc * |j.targetMdeg.toInt - j.positionMdeg.toInt| < 2 ^ 63 := by
  have hacc := acc_bounds h
  have hnn : 0 ≤ 2 * p.acc * |j.targetMdeg.toInt - j.positionMdeg.toInt| :=
    Int.mul_nonneg (by omega) (abs_nonneg _)
  rw [toInt_twice h, toInt_distance]
  unfold FitsI64
  omega

theorem vWant_eq (hstop : 2 * p.acc * |j.targetMdeg.toInt - j.positionMdeg.toInt| < 2 ^ 63) :
    vWant j = some j.vWant := by
  have hproduct := mul64_eq ((fits_stopProduct_iff h).mpr hstop)
  rw [← stopProduct_eq_mul64 h] at hproduct
  have hroot : ∀ x : UInt64, (isqrtU64 x).toNat < 2 ^ 63 := fun x =>
    (isqrtU64_lt x).trans (by norm_num)
  unfold vWant Joint.vWant
  rw [bind_of_eq_some (err_eq j), bind_of_eq_some hproduct, bind_of_eq_some (ofU64_eq (hroot _))]
  dsimp only
  split
  · rfl
  · -- neither bound on the speed is negative
    have hv := h.vmax
    have hvlt := j.maxVelocityMdegS.toInt_lt
    refine neg64_eq ?_
    split
    · have := hroot (2 * j.cfg.accelMdegS2.toInt64 *
        Rjs.abs64 (j.targetMdeg.toInt64 - j.positionMdeg.toInt64)).toUInt64
      rw [toInt_toInt64 this]
      constructor <;> omega
    · rw [Int32.toInt_toInt64]
      constructor <;> omega

theorem vWant_eq_none
    (hstop : 2 ^ 63 ≤ 2 * p.acc * |j.targetMdeg.toInt - j.positionMdeg.toInt|) :
    vWant j = none := by
  have hproduct := mul64_eq_none ((fits_stopProduct_iff h).not.mpr (not_lt.mpr hstop))
  rw [← stopProduct_eq_mul64 h] at hproduct
  unfold vWant
  rw [bind_of_eq_some (err_eq j), bind_of_eq_none hproduct]

/-! ## The position branch -/

theorem rampedVelocity_eq
    (hstop : 2 * p.acc * |j.targetMdeg.toInt - j.positionMdeg.toInt| < 2 ^ 63) :
    rampedVelocity j dt = some (j.rampedVelocity dt) := by
  have hdv := toInt_dv h dt
  have hdv0 := p.dv_nonneg dt.toNat
  have hdvlt := dv_lt h dt
  have hv : |j.velocityMdegS.toInt64.toInt| ≤ 2 ^ 31 := by
    rw [Int32.toInt_toInt64]; exact abs_toInt_le _
  have e1 : (1 : Int64).toInt = 1 := rfl
  unfold rampedVelocity
  rw [bind_of_eq_some (vWant_eq h hstop), bind_of_eq_some (dv_eq j dt)]
  refine ramp_eq ?_ ?_ hv (abs_vWant_bound h)
  · split
    · rw [e1]; decide
    · rw [hdv]; exact hdv0
  · split
    · rw [e1]; decide
    · rw [hdv]; omega

theorem track_eq (hstop : 2 * p.acc * |j.targetMdeg.toInt - j.positionMdeg.toInt| < 2 ^ 63) :
    track j dt = some (j.track dt) := by
  have hfits := rampedVelocity_fits h dt
  have habs := abs_le_of_fitsI32 hfits
  have hbound := abs_travel_bound habs dt
  have herr : |(j.targetMdeg.toInt64 - j.positionMdeg.toInt64).toInt| < 2 ^ 62 := by
    have := abs_err_lt (j := j)
    rw [toInt_err]; omega
  have hstep : |(j.rampedVelocity dt * u32ToI64 dt / 1000).toInt| < 2 ^ 62 := by
    rw [toInt_travel habs]; omega
  have hvel : FitsI32 (Joint.finishStep (j.targetMdeg.toInt64 - j.positionMdeg.toInt64)
      (j.rampedVelocity dt * u32ToI64 dt / 1000) (j.rampedVelocity dt)).2.toInt := by
    rcases finishStep_vel (j.targetMdeg.toInt64 - j.positionMdeg.toInt64)
      (j.rampedVelocity dt * u32ToI64 dt / 1000) (j.rampedVelocity dt) with e | e
    · rw [e]; decide
    · rw [e]; exact hfits
  have hmoved := moved_eq j (abs_finishStep_lt (v := j.rampedVelocity dt) herr hstep)
  unfold track
  rw [bind_of_eq_some (err_eq j), bind_of_eq_some (rampedVelocity_eq h dt hstop),
    bind_of_eq_some (perMs_eq habs dt)]
  dsimp only
  rw [bind_of_eq_some (narrow32_eq hvel), bind_of_eq_some hmoved]
  rfl

theorem track_eq_none
    (hstop : 2 ^ 63 ≤ 2 * p.acc * |j.targetMdeg.toInt - j.positionMdeg.toInt|) :
    track j dt = none := by
  have hramp : rampedVelocity j dt = none := bind_of_eq_none (vWant_eq_none h hstop) _
  unfold track
  rw [bind_of_eq_some (err_eq j), bind_of_eq_none hramp]

/-! ## Steps and states -/

theorem step_eq (hstop : dt ≠ 0 → ¬j.Brakes dt →
    2 * p.acc * |j.targetMdeg.toInt - j.positionMdeg.toInt| < 2 ^ 63) :
    step j dt = some (j.step dt) := by
  have hsafe := Joint.safe_checkTimeout h dt
  have hpos : (j.checkTimeout dt).positionMdeg.toInt = j.positionMdeg.toInt :=
    congrArg Motion.pos (j.checkTimeout_motion dt)
  unfold step Joint.step
  by_cases h0 : dt = 0
  · rw [if_pos h0, if_pos h0]
  · rw [if_neg h0, if_neg h0]
    dsimp only
    split
    · exact brake_eq hsafe dt
    · rename_i hm
      have hgo := hstop h0 ((j.brakes_iff dt).not.mpr hm)
      refine track_eq hsafe dt ?_
      rw [Joint.checkTimeout_target, hpos]
      exact hgo

theorem step_eq_none (h0 : dt ≠ 0) (hgo : ¬j.Brakes dt)
    (hstop : 2 ^ 63 ≤ 2 * p.acc * |j.targetMdeg.toInt - j.positionMdeg.toInt|) :
    step j dt = none := by
  have hsafe := Joint.safe_checkTimeout h dt
  have hpos : (j.checkTimeout dt).positionMdeg.toInt = j.positionMdeg.toInt :=
    congrArg Motion.pos (j.checkTimeout_motion dt)
  have hm := (j.brakes_iff dt).not.mp hgo
  unfold step
  rw [if_neg h0]
  dsimp only
  rw [if_neg hm]
  refine track_eq_none hsafe dt ?_
  rw [Joint.checkTimeout_target, hpos]
  exact hstop

end Branches

theorem abs32_eq {v : Int32} (h : -2 ^ 31 < v.toInt) :
    abs32 v = some (if v < 0 then -v else v) := by
  have hlt := v.toInt_lt
  unfold abs32
  split
  · exact neg32_eq ⟨by omega, by omega⟩
  · rfl

theorem current_eq (mode : UInt8) (v : Int32) (h : 0 ≤ v.toInt) : current mode v =
    some (if mode = JointMode.position.code then 50 + v / 1000 else 0) := by
  have hlt := v.toInt_lt
  have hquot : (v / 1000).toInt = v.toInt / 1000 := by
    have h1000 : (1000 : Int32).toInt = 1000 := rfl
    rw [Int32.toInt_div_of_ne_right _ _ (by decide), h1000, Int.tdiv_eq_ediv_of_nonneg h]
  have h50 : (50 : Int32).toInt = 50 := rfl
  unfold current
  split
  · rw [bind_of_eq_some (div32_eq (b := 1000) (by decide) (by decide))]
    refine add32_eq ?_
    rw [hquot, h50]
    constructor <;> omega
  · rfl

theorem getState_eq {j : Joint} (hv : -2 ^ 31 < j.velocityMdegS.toInt) :
    getState j = some j.getState := by
  have hspeed : 0 ≤ (if j.velocityMdegS < 0 then -j.velocityMdegS else j.velocityMdegS).toInt := by
    rw [Joint.toInt_abs32 hv]; exact abs_nonneg _
  unfold getState
  rw [bind_of_eq_some (abs32_eq hv), bind_of_eq_some (current_eq _ _ hspeed)]
  rfl

end Checked

namespace Joint

/-- No signed operation of a step, however long, or of reading the state overflows. -/
def NoOverflow (j : Joint) : Prop :=
  (∀ dt, Checked.step j dt = some (j.step dt)) ∧ Checked.getState j = some j.getState

/-! ## Configurations without overflow -/

section Bounded

variable {p : Plant} {j : Joint}

/-- The distance to the target is at most the travel range. -/
theorem stopProduct_le (h : j.Safe p) :
    p.acc * |j.targetMdeg.toInt - j.positionMdeg.toInt| ≤ p.acc * (p.hi - p.lo) := by
  have hdist : |j.targetMdeg.toInt - j.positionMdeg.toInt| ≤ p.hi - p.lo := by
    have := h.pos.1; have := h.pos.2; have := h.target.1; have := h.target.2
    rw [abs_le]
    omega
  exact Int.mul_le_mul_of_nonneg_left hdist p.acc_pos.le

theorem noOverflow_of_lt (h : j.Safe p) (hv : -2 ^ 31 < j.velocityMdegS.toInt)
    (hspan : p.acc * (p.hi - p.lo) < 2 ^ 62) : j.NoOverflow := by
  refine ⟨fun dt => Checked.step_eq h dt fun _ _ => ?_, Checked.getState_eq hv⟩
  have := stopProduct_le h
  rw [Int.mul_assoc]
  omega

end Bounded

/-! ## A run from one end of the range to the other -/

/-- A slow command to `x`. -/
def goTo (x : Int32) : AcceptedCommand :=
  ⟨⟨JointMode.position.code, x, 1, 0⟩,
    decoderAccepts_iff.mpr ⟨UInt8.le_refl _, fun _ => (by decide : (0 : Int32) < 1)⟩⟩

/-- The command and one millisecond, `n` times. -/
def refreshed (cmd : AcceptedCommand) : Nat → List JointAction
  | 0 => []
  | n + 1 => .command cmd :: .step 1 :: refreshed cmd n

theorem stepCount_refreshed (cmd : AcceptedCommand) (n : Nat) :
    stepCount (refreshed cmd n) = n := by
  induction n with
  | zero => rfl
  | succ n ih =>
    rw [refreshed, stepCount, List.countP_cons, List.countP_cons]
    show stepCount (refreshed cmd n) + 1 + 0 = n + 1
    rw [ih]

/-- No timeout is shorter than a millisecond. -/
theorem not_brakes_command (j : Joint) {cmd : AcceptedCommand}
    (hm : cmd.1.mode = JointMode.position.code) : ¬(j.command cmd.1).Brakes 1 := by
  rintro (hmode | ⟨hon, hlate⟩)
  · exact hmode (by rw [command_mode, hm])
  · rw [command_since] at hlate
    have hzero : ((j.command cmd.1).cfg.commandTimeoutMs).toNat = 0 := by
      have hlt := UInt32.lt_iff_toNat_lt.mp hlate
      have hone : ((0 : UInt32) + 1).toNat = 1 := rfl
      omega
    exact hon (UInt32.toNat_inj.mp hzero)

theorem stays_refreshed (j : Joint) {cmd : AcceptedCommand}
    (hm : cmd.1.mode = JointMode.position.code) (n : Nat) :
    Along StaysInPosition j (refreshed cmd n) := by
  induction n generalizing j with
  | zero => trivial
  | succ n ih =>
    refine ⟨?_, ?_, ih _⟩
    · show (j.command cmd.1).mode = _
      rw [command_mode, hm]
    · have hgo := (brakes_iff _ _).not.mp (not_brakes_command j hm)
      show ((j.command cmd.1).step 1).mode = _
      rw [(step_control _ 1 (by decide)).1]
      exact not_not.mp hgo

theorem keepsGoing_refreshed (j : Joint) {cmd : AcceptedCommand}
    (hm : cmd.1.mode = JointMode.position.code) (n : Nat) :
    ∀ a ∈ refreshed cmd n, (j.command cmd.1).KeepsGoing a := by
  induction n with
  | zero =>
    intro a ha
    cases ha
  | succ n ih =>
    intro a ha
    rcases List.mem_cons.mp ha with rfl | ha
    · refine ⟨?_, ?_⟩
      · rw [command_cfg, command_target, if_pos hm]
      · rw [command_vmax, if_pos hm]
    · rcases List.mem_cons.mp ha with rfl | ha
      · exact UInt32.le_refl 1
      · exact ih a ha

section Ends

variable {p : Plant} {j : Joint}

theorem goTo_target (h : j.Safe p) {x : Int32} (hx : p.Holds x.toInt) :
    (j.command (goTo x).1).targetMdeg = x := by
  have hm : (goTo x).1.mode = JointMode.position.code := rfl
  have hval : (goTo x).1.targetMdeg.toInt64.toInt = x.toInt := Int32.toInt_toInt64 x
  rw [← Int32.toInt_inj, command_target, if_pos hm, toInt_clamp32 h.lo h.hi, hval,
    Plant.clamp_of_holds hx]

/-- The joint can be driven to any position in its range. -/
theorem exists_run_to (h : j.Safe p) {x : Int32} (hx : p.Holds x.toInt) :
    ∃ acts, (j.run acts).positionMdeg = x := by
  let n := (|(j.command (goTo x).1).velocityMdegS.toInt| + (p.hi - p.lo)).toNat
  have hcount : |(j.command (goTo x).1).velocityMdegS.toInt| + (p.hi - p.lo) ≤
      stepCount (refreshed (goTo x) n) := by
    rw [stepCount_refreshed]
    exact Int.self_le_toNat _
  obtain ⟨-, hrest⟩ := rests_on_target (safe_command h (goTo x))
    (keepsGoing_refreshed j rfl n) (stays_refreshed _ rfl n) hcount
  refine ⟨.command (goTo x) :: refreshed (goTo x) n, Int32.toInt_inj.mp ?_⟩
  rw [goTo_target h hx] at hrest
  exact congrArg Motion.pos hrest

/-- At one end of a long range, the command to go to the other end overflows the next step. -/
theorem exists_overflow (h : j.Safe p) (hspan : 2 ^ 62 ≤ p.acc * (p.hi - p.lo)) :
    ∃ acts, ¬(j.run acts).NoOverflow := by
  have hrange : p.lo ≤ p.hi := p.lo_nonpos.trans p.hi_nonneg
  have hlo : p.Holds j.cfg.minMdeg.toInt := h.lo ▸ ⟨le_rfl, hrange⟩
  have hhi : p.Holds j.cfg.maxMdeg.toInt := h.hi ▸ ⟨hrange, le_rfl⟩
  obtain ⟨acts, hpos⟩ := exists_run_to h hhi
  have hsafe := safe_run h acts
  refine ⟨acts ++ [.command (goTo j.cfg.minMdeg)], fun hno => ?_⟩
  rw [run_snoc] at hno
  have hstop : 2 ^ 63 ≤
      2 * p.acc * |((j.run acts).command (goTo j.cfg.minMdeg).1).targetMdeg.toInt -
        ((j.run acts).command (goTo j.cfg.minMdeg).1).positionMdeg.toInt| := by
    rw [goTo_target hsafe hlo, command_position, hpos, h.lo, h.hi, abs_sub_comm,
      abs_of_nonneg (sub_nonneg.mpr hrange), Int.mul_assoc]
    omega
  have hnone := Checked.step_eq_none (safe_command hsafe (goTo j.cfg.minMdeg)) 1 (by decide)
    (not_brakes_command _ rfl) hstop
  have hsome : Checked.step ((j.run acts).command (goTo j.cfg.minMdeg).1) 1 = some _ := hno.1 1
  rw [hsome] at hnone
  cases hnone

end Ends

/-- **No signed overflow** in any run of a configuration whose acceleration times its travel range
stays below `2^62`; in every other configuration some run overflows. -/
theorem no_overflow_iff (cfg : JointConfig) (h : cfg.HoldsZero) :
    (∀ acts, ((init cfg).run acts).NoOverflow) ↔
      (init cfg).cfg.accelMdegS2.toInt * (cfg.maxMdeg.toInt - cfg.minMdeg.toInt) < 2 ^ 62 := by
  constructor
  · intro hno
    by_contra hspan
    obtain ⟨acts, hover⟩ := exists_overflow (safe_init cfg h) (not_lt.mp hspan)
    exact hover (hno acts)
  · intro hspan acts
    exact noOverflow_of_lt (safe_reachable cfg h acts) (velocity_gt cfg h acts) hspan

/-- The shipped joint, on its way to 90 degrees. -/
theorem no_overflow_iff_shipped :
    ((init ⟨-170000, 170000, 360000, 500⟩).run
      [.command ⟨⟨1, 90000, 90000, 7⟩, decoderAccepts_iff.mpr (by decide)⟩,
        .step 10]).NoOverflow :=
  (no_overflow_iff _ (by decide)).mpr (by decide) _

/-- The largest range and acceleration. Two millidegrees from zero, the far end is out of reach of
the stop product: `2 * 2147483647 * 2147483650` is above `2^63`. -/
theorem overflow_far :
    let j := (init ⟨-2147483648, 2147483647, 2147483647, 0⟩).run
      [.command ⟨⟨1, 2, 1000000, 1⟩, decoderAccepts_iff.mpr (by decide)⟩, .step 10,
        .command ⟨⟨1, -2147483648, 1000000, 2⟩, decoderAccepts_iff.mpr (by decide)⟩]
    Checked.step j 1 = none ∧ ¬j.NoOverflow := by
  intro j
  have hnone : Checked.step j 1 = none := by decide +kernel
  refine ⟨hnone, fun hno => ?_⟩
  rw [hno.1 1] at hnone
  cases hnone

end Joint

end Rjs
