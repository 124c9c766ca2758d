import RobotJointStack.Joint.Isqrt
import RobotJointStack.Joint.Tracking

/-!
# Joint.Refine

The fixed-width joint model computes the integer motion of `Joint.Motion`. `Joint.Safe p j` says
that joint `j` runs in plant `p`: its configuration is the plant's, position and target are in
range, and position mode comes with a positive velocity limit.

* `motion_brake`, `motion_track`: in a safe joint no 64-bit intermediate changes its value, so both
  branches of the step are the plant's.
* `toNat_stopProduct`: the stop distance is exact as `uint64_t` even where `int64_t` would wrap.
-/

namespace Rjs

open CInt Slew

namespace Joint

def motion (j : Joint) : Motion := ⟨j.positionMdeg.toInt, j.velocityMdegS.toInt⟩

@[simp] theorem motion_pos (j : Joint) : j.motion.pos = j.positionMdeg.toInt := rfl
@[simp] theorem motion_vel (j : Joint) : j.motion.vel = j.velocityMdegS.toInt := rfl

/-- The invariant of every joint a controller can drive. -/
structure Safe (p : Plant) (j : Joint) : Prop where
  lo : j.cfg.minMdeg.toInt = p.lo
  hi : j.cfg.maxMdeg.toInt = p.hi
  acc : j.cfg.accelMdegS2.toInt = p.acc
  pos : p.Holds j.positionMdeg.toInt
  target : p.Holds j.targetMdeg.toInt
  vmax : 0 ≤ j.maxVelocityMdegS.toInt
  mode : j.mode = JointMode.disabled.code ∨
    (j.mode = JointMode.position.code ∧ 0 < j.maxVelocityMdegS.toInt)

end Joint

section Arithmetic

variable {p : Plant} {j : Joint}

theorem toInt_clamp32 {lo hi : Int32} (hlo : lo.toInt = p.lo) (hhi : hi.toInt = p.hi) (v : Int64) :
    (clamp32 v lo hi).toInt = p.clamp v.toInt := by
  have := p.lo_nonpos
  have := p.hi_nonneg
  have := lo.le_toInt
  have := hi.toInt_lt
  unfold clamp32 Plant.clamp
  simp only [gt_iff_lt, Int64.lt_iff_toInt_lt, Int32.toInt_toInt64, hlo, hhi]
  split
  · rw [hlo]; omega
  · split
    · rw [hhi]; omega
    · rw [toInt_toInt32 ⟨by omega, by omega⟩]; omega

theorem toInt_abs64 {v : Int64} (h : -2 ^ 63 < v.toInt) : (abs64 v).toInt = |v.toInt| := by
  have := v.toInt_lt
  unfold abs64
  simp only [Int64.lt_iff_toInt_lt, Int64.toInt_zero]
  split
  · rename_i hneg
    rw [toInt_neg ⟨by omega, by omega⟩, abs_of_neg hneg]
  · rename_i hnn
    rw [abs_of_nonneg (not_lt.mp hnn)]

theorem abs_travel_bound {v : Int} (hv : |v| ≤ 2 ^ 31) (dt : UInt32) :
    1000 * |travel dt.toNat v| < 2 ^ 63 := by
  have := abs_travel_le dt.toNat hv
  have := dt.toNat_lt
  omega

/-- `v * dt_ms / 1000` in `int64_t`. -/
theorem toInt_travel {v : Int64} (hv : |v.toInt| ≤ 2 ^ 31) (dt : UInt32) :
    (v * u32ToI64 dt / 1000).toInt = travel dt.toNat v.toInt := by
  have hdt := dt.toNat_lt
  have hfits : FitsI64 (v.toInt * (u32ToI64 dt).toInt) := by
    rw [toInt_u32ToI64]; exact fitsI64_mul hv (by omega) (by omega)
  rw [toInt_div (by decide), toInt_mul hfits, toInt_u32ToI64]
  rfl

/-- The source's two-sided ramp in `int64_t` is the slew-rate limiter. -/
theorem toInt_slew {d v w : Int64} (hd : 0 ≤ d.toInt) (hd' : d.toInt < 2 ^ 62)
    (hv : |v.toInt| ≤ 2 ^ 31) (hw : |w.toInt| ≤ 2 ^ 31) :
    (if w > v then (if w - v > d then v + d else w)
      else (if v - w > d then v - d else w)).toInt = slew d.toInt v.toInt w.toInt := by
  rw [abs_le] at hv hw
  have hwv : (w - v).toInt = w.toInt - v.toInt := toInt_sub ⟨by omega, by omega⟩
  have hvw : (v - w).toInt = v.toInt - w.toInt := toInt_sub ⟨by omega, by omega⟩
  have hadd : (v + d).toInt = v.toInt + d.toInt := toInt_add ⟨by omega, by omega⟩
  have hsub : (v - d).toInt = v.toInt - d.toInt := toInt_sub ⟨by omega, by omega⟩
  simp only [gt_iff_lt, Int64.lt_iff_toInt_lt, hwv, hvw, slew]
  split <;> split <;> simp only [hadd, hsub]

/-- The end of the position branch distinguishes the plant's three outcomes. -/
theorem finishStep_eq (err s v : Int64) :
    Joint.finishStep err s v =
      if Plant.Arrives err.toInt s.toInt then (err, 0)
      else if s = 0 then (if err > 0 then 1 else -1, v) else (s, v) := by
  have e0 : (0 : Int64).toInt = 0 := rfl
  have e1 : (1 : Int64).toInt = 1 := rfl
  have em1 : (-1 : Int64).toInt = -1 := rfl
  have hover : ((err > 0 ∧ s > err) ∨ (err < 0 ∧ s < err)) ↔
      (0 < err.toInt ∧ err.toInt < s.toInt) ∨ (err.toInt < 0 ∧ s.toInt < err.toInt) := by
    simp only [gt_iff_lt, Int64.lt_iff_toInt_lt, e0]
  by_cases ha : Plant.Arrives err.toInt s.toInt
  · rw [if_pos ha]
    by_cases ho : (0 < err.toInt ∧ err.toInt < s.toInt) ∨ (err.toInt < 0 ∧ s.toInt < err.toInt)
    · simp [Joint.finishStep, hover.mpr ho]
    · -- not past the target: exactly on it, or creeping the last unit
      have hcase : s = err ∨ (s = 0 ∧ (err = 1 ∨ err = -1)) := by
        simp only [← Int64.toInt_inj, e0, e1, em1]
        simp only [Plant.Arrives, abs_le] at ha
        omega
      rcases hcase with rfl | ⟨rfl, rfl | rfl⟩
      · simp [Joint.finishStep]
      · rfl
      · rfl
  · rw [if_neg ha]
    simp only [Plant.Arrives, abs_le] at ha
    have ho := hover.not.mpr (by omega)
    by_cases hs : s = 0
    · have hne : err ≠ 0 ∧ err ≠ 1 ∧ err ≠ -1 := by
        simp only [ne_eq, ← Int64.toInt_inj, e0, e1, em1]
        rw [hs, e0] at ha
        omega
      subst hs
      have hcrawl : (if err > 0 then (1 : Int64) else -1) ≠ err := by
        split
        · exact hne.2.1.symm
        · exact hne.2.2.symm
      rw [if_pos rfl]
      simp only [Joint.finishStep, if_neg ho, if_true, ne_eq, hne.1, not_false_eq_true, and_self,
        if_neg hcrawl]
    · have hne : s ≠ err := by
        rw [ne_eq, ← Int64.toInt_inj]
        rw [← Int64.toInt_inj, e0] at hs
        omega
      rw [if_neg hs]
      simp only [Joint.finishStep, if_neg ho, hs, false_and, if_false, hne]

/-- The creep is the sign of the error. -/
theorem toInt_creep {err : Int64} (h : err.toInt ≠ 0) :
    (if err > 0 then (1 : Int64) else -1).toInt = err.toInt.sign := by
  have hpos : err > 0 ↔ 0 < err.toInt := by
    rw [gt_iff_lt, Int64.lt_iff_toInt_lt, Int64.toInt_zero]
  split
  · rename_i hgt
    rw [Int.sign_eq_one_of_pos (hpos.mp hgt)]; rfl
  · rename_i hgt
    have := hpos.not.mp hgt
    rw [Int.sign_eq_neg_one_of_neg (by omega)]; rfl

/-- The increment a step ends with is the error, one unit or the one it came with. -/
theorem abs_finishStep_lt {err s v : Int64} (herr : |err.toInt| < 2 ^ 62)
    (hs : |s.toInt| < 2 ^ 62) : |(Joint.finishStep err s v).1.toInt| < 2 ^ 62 := by
  rw [finishStep_eq]
  split
  · exact herr
  · split
    · dsimp only
      split <;> decide
    · exact hs

theorem finishStep_vel (err s v : Int64) :
    (Joint.finishStep err s v).2 = 0 ∨ (Joint.finishStep err s v).2 = v := by
  rw [finishStep_eq]
  split
  · exact .inl rfl
  · split
    · exact .inr rfl
    · exact .inr rfl

theorem toInt_err : (j.targetMdeg.toInt64 - j.positionMdeg.toInt64).toInt =
    j.targetMdeg.toInt - j.positionMdeg.toInt := by
  have := j.targetMdeg.le_toInt
  have := j.targetMdeg.toInt_lt
  have := j.positionMdeg.le_toInt
  have := j.positionMdeg.toInt_lt
  rw [toInt_sub] <;> rw [Int32.toInt_toInt64, Int32.toInt_toInt64]
  constructor <;> omega

theorem abs_err_lt : |j.targetMdeg.toInt - j.positionMdeg.toInt| < 2 ^ 32 := by
  have := j.targetMdeg.le_toInt
  have := j.targetMdeg.toInt_lt
  have := j.positionMdeg.le_toInt
  have := j.positionMdeg.toInt_lt
  rw [abs_lt]; omega

/-- `|err|` in `int64_t`. -/
theorem toInt_distance : (abs64 (j.targetMdeg.toInt64 - j.positionMdeg.toInt64)).toInt =
    |j.targetMdeg.toInt - j.positionMdeg.toInt| := by
  have herr := abs_lt.mp (abs_err_lt (j := j))
  rw [toInt_abs64] <;> rw [toInt_err]
  omega

variable (h : j.Safe p) (dt : UInt32)

include h

theorem acc_bounds : 0 < p.acc ∧ p.acc < 2 ^ 31 := by
  have := j.cfg.accelMdegS2.toInt_lt
  rw [h.acc] at this
  exact ⟨p.acc_pos, this⟩

theorem toInt_twice : (2 * j.cfg.accelMdegS2.toInt64).toInt = 2 * p.acc := by
  have hacc := acc_bounds h
  have e2 : (2 : Int64).toInt = 2 := rfl
  rw [toInt_mul] <;> rw [e2, Int32.toInt_toInt64, h.acc]
  constructor <;> omega

/-- `accel_mdeg_s2 * dt_ms / 1000` in `int64_t`. -/
theorem toInt_dv : (j.cfg.accelMdegS2.toInt64 * u32ToI64 dt / 1000).toInt = p.dv dt.toNat := by
  have hacc := acc_bounds h
  have habs : |j.cfg.accelMdegS2.toInt64.toInt| ≤ 2 ^ 31 := by
    rw [Int32.toInt_toInt64]; exact abs_toInt_le _
  rw [toInt_travel habs, Int32.toInt_toInt64, h.acc, travel_of_nonneg hacc.1.le]
  rfl

theorem dv_lt : p.dv dt.toNat < 2 ^ 54 := by
  have hacc := acc_bounds h
  have hdt := dt.toNat_lt
  have : p.acc * dt.toNat ≤ (2 ^ 31 - 1) * (2 ^ 32 - 1) :=
    Int.mul_le_mul (by omega) (by omega) (by omega) (by norm_num)
  unfold Plant.dv
  omega

/-- The new position for a displacement `s`. -/
theorem toInt_moved {s : Int64} (hs : |s.toInt| < 2 ^ 62) :
    (clamp32 (j.positionMdeg.toInt64 + s) j.cfg.minMdeg j.cfg.maxMdeg).toInt =
      p.clamp (j.positionMdeg.toInt + s.toInt) := by
  have hpos := abs_toInt_le j.positionMdeg
  rw [abs_le] at hpos
  rw [abs_lt] at hs
  rw [toInt_clamp32 h.lo h.hi, toInt_add, Int32.toInt_toInt64]
  rw [Int32.toInt_toInt64]
  constructor <;> omega

/-! ## Braking -/

theorem toInt_brakedVelocity :
    (j.brakedVelocity dt).toInt = slew (p.dv dt.toNat) j.velocityMdegS.toInt 0 := by
  have hdv := toInt_dv h dt
  have hdvlt := dv_lt h dt
  have hdv0 := p.dv_nonneg dt.toNat
  have hv := j.velocityMdegS.le_toInt
  have hv' := j.velocityMdegS.toInt_lt
  have habs : (abs64 j.velocityMdegS.toInt64).toInt = |j.velocityMdegS.toInt| := by
    rw [toInt_abs64 (by rw [Int32.toInt_toInt64]; omega), Int32.toInt_toInt64]
  simp only [Joint.brakedVelocity, Int64.le_iff_toInt_le, habs, hdv, gt_iff_lt,
    Int64.lt_iff_toInt_lt, Int64.toInt_zero, Int32.toInt_toInt64, slew, abs_le]
  split
  · rw [Int64.toInt_zero]; omega
  · split
    · rw [toInt_add] <;> rw [toInt_neg ⟨by omega, by omega⟩, Int32.toInt_toInt64, hdv]
      · omega
      · constructor <;> omega
    · rw [toInt_add] <;> rw [Int32.toInt_toInt64, hdv]
      · omega
      · constructor <;> omega

theorem brakedVelocity_fits : FitsI32 (j.brakedVelocity dt).toInt := by
  have hdv := p.dv_nonneg dt.toNat
  have hlo := j.velocityMdegS.le_toInt
  have hhi := j.velocityMdegS.toInt_lt
  have hge := min_le_slew (v := j.velocityMdegS.toInt) (w := 0) hdv
  have hle := slew_le_max (v := j.velocityMdegS.toInt) (w := 0) hdv
  rw [toInt_brakedVelocity h]
  constructor <;> omega

/-- The braking branch is the plant's. -/
theorem Joint.motion_brake : (j.brake dt).motion = p.brake dt.toNat j.motion := by
  have hvel := toInt_brakedVelocity h dt
  have hfits := brakedVelocity_fits h dt
  have habs := abs_le_of_fitsI32 hfits
  have htravel := toInt_travel habs dt
  have hbound := abs_travel_bound habs dt
  have hpos : (j.brake dt).positionMdeg.toInt =
      p.clamp (j.positionMdeg.toInt + travel dt.toNat (j.brakedVelocity dt).toInt) := by
    rw [← htravel]
    exact toInt_moved h (by rw [htravel]; omega)
  have hv' : (j.brake dt).velocityMdegS.toInt = (j.brakedVelocity dt).toInt := toInt_toInt32 hfits
  simp only [Joint.motion, Plant.brake, hpos, hv', hvel]

/-! ## Position mode -/

/-- The stop product `2 * a * |err|`, read as `uint64_t`, is exact: it stays below `2^64`. -/
theorem toNat_stopProduct :
    (2 * j.cfg.accelMdegS2.toInt64 *
      abs64 (j.targetMdeg.toInt64 - j.positionMdeg.toInt64)).toUInt64.toNat =
      (2 * p.acc * |j.targetMdeg.toInt - j.positionMdeg.toInt|).toNat := by
  have herr := abs_err_lt (j := j)
  have hacc := acc_bounds h
  have hlt : 2 * p.acc * |j.targetMdeg.toInt - j.positionMdeg.toInt| < 2 ^ 64 := by
    have : 2 * p.acc * |j.targetMdeg.toInt - j.positionMdeg.toInt| ≤ (2 ^ 32 - 2) * (2 ^ 32 - 1) :=
      Int.mul_le_mul (by omega) (by omega) (abs_nonneg _) (by norm_num)
    omega
  have hnn : 0 ≤ 2 * p.acc * |j.targetMdeg.toInt - j.positionMdeg.toInt| :=
    Int.mul_nonneg (by omega) (abs_nonneg _)
  zify
  rw [toNat_toUInt64, Int64.toInt_mul, toInt_distance, toInt_twice h, Int.toNat_of_nonneg hnn]
  have := Int.bmod_emod (x := 2 * p.acc * |j.targetMdeg.toInt - j.positionMdeg.toInt|) (m := 2 ^ 64)
  omega

theorem toInt_vWant : j.vWant.toInt =
    p.vWant j.targetMdeg.toInt j.maxVelocityMdegS.toInt j.positionMdeg.toInt := by
  have hstop : (isqrtU64 (2 * j.cfg.accelMdegS2.toInt64 *
      abs64 (j.targetMdeg.toInt64 - j.positionMdeg.toInt64)).toUInt64).toInt64.toInt =
      p.vStop |j.targetMdeg.toInt - j.positionMdeg.toInt| := by
    rw [toInt_toInt64 ((isqrtU64_lt _).trans (by norm_num)), toNat_isqrtU64, toNat_stopProduct h]
    rfl
  have hnn := p.vStop_nonneg |j.targetMdeg.toInt - j.positionMdeg.toInt|
  have hv := h.vmax
  have hv' := j.maxVelocityMdegS.toInt_lt
  simp only [Joint.vWant, Plant.vWant, gt_iff_lt, Int64.lt_iff_toInt_lt, Int64.toInt_zero, hstop,
    toInt_err, Int32.toInt_toInt64]
  split
  · split
    · rw [hstop]; omega
    · rw [Int32.toInt_toInt64]; omega
  · split
    · rw [toInt_neg] <;> rw [hstop]
      · omega
      · constructor <;> omega
    · rw [toInt_neg] <;> rw [Int32.toInt_toInt64]
      · omega
      · constructor <;> omega

theorem abs_vWant_bound : |j.vWant.toInt| ≤ 2 ^ 31 := by
  have := j.maxVelocityMdegS.toInt_lt
  rw [toInt_vWant h, Plant.abs_vWant h.vmax]
  omega

theorem toInt_rampedVelocity : (j.rampedVelocity dt).toInt =
    p.trackVel j.targetMdeg.toInt j.maxVelocityMdegS.toInt dt.toNat j.motion := by
  have hdv := toInt_dv h dt
  have hdvlt := dv_lt h dt
  have hv := abs_toInt_le j.velocityMdegS
  have hw := abs_vWant_bound h
  have hmax : (if j.cfg.accelMdegS2.toInt64 * u32ToI64 dt / 1000 < 1 then 1
      else j.cfg.accelMdegS2.toInt64 * u32ToI64 dt / 1000).toInt = p.dvMax dt.toNat := by
    have e1 : (1 : Int64).toInt = 1 := rfl
    simp only [Int64.lt_iff_toInt_lt, hdv, e1, Plant.dvMax]
    split
    · rw [e1]; omega
    · rw [hdv]; omega
  have hpos := p.dvMax_pos dt.toNat
  have hmaxlt : p.dvMax dt.toNat < 2 ^ 54 := by unfold Plant.dvMax; omega
  have hslew := toInt_slew (d := if j.cfg.accelMdegS2.toInt64 * u32ToI64 dt / 1000 < 1 then 1
      else j.cfg.accelMdegS2.toInt64 * u32ToI64 dt / 1000) (v := j.velocityMdegS.toInt64)
      (by omega) (by omega) (by rw [Int32.toInt_toInt64]; exact hv) hw
  rw [hmax, toInt_vWant h, Int32.toInt_toInt64] at hslew
  exact hslew

theorem rampedVelocity_fits : FitsI32 (j.rampedVelocity dt).toInt := by
  have hd : 0 ≤ p.dvMax dt.toNat := zero_le_one.trans (p.dvMax_pos dt.toNat)
  have hw :
      |p.vWant j.targetMdeg.toInt j.maxVelocityMdegS.toInt j.positionMdeg.toInt| < 2 ^ 31 := by
    have := j.maxVelocityMdegS.toInt_lt
    rw [Plant.abs_vWant h.vmax]; omega
  rw [abs_lt] at hw
  have := j.velocityMdegS.le_toInt
  have := j.velocityMdegS.toInt_lt
  have hlo := min_le_slew (v := j.velocityMdegS.toInt)
    (w := p.vWant j.targetMdeg.toInt j.maxVelocityMdegS.toInt j.positionMdeg.toInt) hd
  have hhi := slew_le_max (v := j.velocityMdegS.toInt)
    (w := p.vWant j.targetMdeg.toInt j.maxVelocityMdegS.toInt j.positionMdeg.toInt) hd
  rw [toInt_rampedVelocity h]
  constructor <;> simp only [Plant.trackVel, Joint.motion] <;> omega

/-- The position branch is the plant's. -/
theorem Joint.motion_track : (j.track dt).motion =
    p.track j.targetMdeg.toInt j.maxVelocityMdegS.toInt dt.toNat j.motion := by
  have hfits := rampedVelocity_fits h dt
  have habs := abs_le_of_fitsI32 hfits
  have htravel := toInt_travel habs dt
  have hbound := abs_travel_bound habs dt
  have herr := toInt_err (j := j)
  have herrlt := abs_err_lt (j := j)
  have hvel := toInt_rampedVelocity h dt
  rw [abs_lt] at herrlt
  have harr : Plant.Arrives (j.targetMdeg.toInt - j.motion.pos) (travel dt.toNat
      (p.trackVel j.targetMdeg.toInt j.maxVelocityMdegS.toInt dt.toNat j.motion)) ↔
      Plant.Arrives (j.targetMdeg.toInt - j.positionMdeg.toInt)
        (travel dt.toNat (j.rampedVelocity dt).toInt) := by rw [hvel]; rfl
  show Motion.mk (j.track dt).positionMdeg.toInt (j.track dt).velocityMdegS.toInt =
    p.track j.targetMdeg.toInt j.maxVelocityMdegS.toInt dt.toNat j.motion
  simp only [Joint.track, finishStep_eq, herr, htravel]
  by_cases ha : Plant.Arrives (j.targetMdeg.toInt - j.positionMdeg.toInt)
      (travel dt.toNat (j.rampedVelocity dt).toInt)
  · -- arriving: the increment is the whole distance, so the new position is the target
    have hpos := toInt_moved h (s := j.targetMdeg.toInt64 - j.positionMdeg.toInt64)
      (by rw [herr, abs_lt]; omega)
    rw [if_pos ha, Plant.track_arrives (harr.mpr ha), hpos, herr, add_sub_cancel,
      Plant.clamp_of_holds h.target]
    rfl
  · rw [if_neg ha, Plant.track_moves (harr.not.mpr ha), ← hvel]
    have hv32 := toInt_toInt32 hfits
    have hs0 : j.rampedVelocity dt * u32ToI64 dt / 1000 = 0 ↔
        travel dt.toNat (j.rampedVelocity dt).toInt = 0 := by
      rw [← Int64.toInt_inj, htravel, Int64.toInt_zero]
    by_cases hs : travel dt.toNat (j.rampedVelocity dt).toInt = 0
    · -- creeping by the sign of the distance
      have hne : j.targetMdeg.toInt - j.positionMdeg.toInt ≠ 0 := fun h0 =>
        ha (.inr (.inr ⟨hs, by rw [h0]; norm_num⟩))
      have hsign : (if j.targetMdeg.toInt64 - j.positionMdeg.toInt64 > 0 then (1 : Int64)
          else -1).toInt = (j.targetMdeg.toInt - j.positionMdeg.toInt).sign := by
        rw [← herr] at hne ⊢
        exact toInt_creep hne
      have hsmall : |(j.targetMdeg.toInt - j.positionMdeg.toInt).sign| < 2 ^ 62 := by
        rw [Int.abs_sign_of_ne_zero hne]; norm_num
      rw [if_pos (hs0.mpr hs), if_pos hs, hv32, Joint.motion_pos]
      rw [toInt_moved h (by rw [hsign]; exact hsmall), hsign]
    · rw [if_neg (hs0.not.mpr hs), if_neg hs, hv32, Joint.motion_pos]
      rw [toInt_moved h (by rw [htravel]; omega), htravel]

end Arithmetic

end Rjs
