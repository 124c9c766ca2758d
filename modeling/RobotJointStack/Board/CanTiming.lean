import RobotJointStack.Lib.BitTiming

/-!
# Board.CanTiming

The bit timing calculation that the CAN ports share (`can_timing.c`): a search for the smallest
prescaler that gives the exact bit rate. The loop counter is 32 bits wide; were it to wrap around,
the next round would divide by zero, which C leaves undefined and which is a fault here.

* `tryPrescaler_cases`: one round of the search in the terms of `Lib.BitTiming`.
* `searchFrom_spec`: the rounds that are left.
* `canCalcTiming_spec`: the search finds the smallest admissible prescaler, or there is none.
-/

namespace Rjs

open BitTiming

/-- `rjs_can_timing_limits_t`. -/
structure CanTimingLimits where
  prescalerMax : UInt32
  tseg1Max : UInt32
  tseg2Max : UInt32
  sjwMax : UInt32
deriving DecidableEq, Repr

/-- `rjs_can_timing_t`. -/
structure CanTiming where
  prescaler : UInt32
  tseg1 : UInt32
  tseg2 : UInt32
  sjw : UInt32
  samplePointPermille : UInt16
deriving DecidableEq, Repr, Inhabited

inductive TimingFault where
  | divisionByZero
deriving DecidableEq, Repr

/-- One round of the prescaler loop: on to the next prescaler, out of the loop, or a result. -/
inductive Attempt where
  | next
  | stop
  | found (t : CanTiming)
  | fault (f : TimingFault)
deriving DecidableEq, Repr

/-- `tseg2` from the sample point, rounded to the nearest quantum. -/
def roundedTseg2 (total : UInt32) (samplePointPermille : UInt16) : UInt32 :=
  let tseg2 := ((total.toUInt64 * (1000 - samplePointPermille.toUInt32).toUInt64 + 500) /
    1000).toUInt32
  if tseg2 < 1 then 1 else tseg2

theorem toNat_add_one {x : UInt32} (h : x.toNat + 1 < 2 ^ 32) : (x + 1).toNat = x.toNat + 1 := by
  rw [UInt32.toNat_add]
  exact Nat.mod_eq_of_lt h

theorem add_one_eq_zero {x : UInt32} (h : ¬x.toNat + 1 < 2 ^ 32) : x + 1 = 0 := by
  have hlt := x.toNat_lt
  have hx : x.toNat + (1 : UInt32).toNat = 2 ^ 32 := by
    rw [UInt32.toNat_one]
    omega
  rw [← UInt32.toNat_inj, UInt32.toNat_add, hx]
  rfl

section Search

variable (clockHz bitrate : UInt32) (samplePointPermille : UInt16) (limits : CanTimingLimits)

def tryPrescaler (presc : UInt32) : Attempt :=
  let denom : UInt64 := presc.toUInt64 * bitrate.toUInt64
  if denom = 0 then .fault .divisionByZero
  -- bitrate would not be exact
  else if clockHz.toUInt64 % denom ≠ 0 then .next
  else
    let total := (clockHz.toUInt64 / denom).toUInt32
    -- only gets smaller with larger prescalers
    if total < 4 then .stop
    else
      let tseg2 := roundedTseg2 total samplePointPermille
      let tseg1 := total - 1 - tseg2
      if tseg1 < 1 ∨ tseg1 > limits.tseg1Max ∨ tseg2 > limits.tseg2Max then .next
      else
        .found
          { prescaler := presc
            tseg1 := tseg1
            tseg2 := tseg2
            sjw := if tseg2 < limits.sjwMax then tseg2 else limits.sjwMax
            samplePointPermille := ((1000 * (1 + tseg1)) / total).toUInt16 }

theorem ne_zero_of_tryPrescaler_next {presc : UInt32}
    (h : tryPrescaler clockHz bitrate samplePointPermille limits presc = .next) : presc ≠ 0 := by
  rintro rfl
  simp [tryPrescaler] at h

/-- The prescaler loop from `presc` on. -/
def searchFrom (presc : UInt32) : Except TimingFault (Option CanTiming) :=
  if presc ≤ limits.prescalerMax then
    match _h : tryPrescaler clockHz bitrate samplePointPermille limits presc with
    | .next => searchFrom (presc + 1)
    | .stop => .ok none
    | .found t => .ok (some t)
    | .fault f => .error f
  else .ok none
termination_by if presc = 0 then 0 else 2 ^ 32 - presc.toNat
decreasing_by
  rw [if_neg (ne_zero_of_tryPrescaler_next clockHz bitrate samplePointPermille limits _h)]
  have hlt := presc.toNat_lt
  by_cases hlast : presc.toNat + 1 < 2 ^ 32
  · rw [toNat_add_one hlast]
    split <;> omega
  · rw [if_pos (add_one_eq_zero hlast)]
    omega

theorem searchFrom_of_le {presc : UInt32} (h : presc ≤ limits.prescalerMax) :
    searchFrom clockHz bitrate samplePointPermille limits presc =
      match tryPrescaler clockHz bitrate samplePointPermille limits presc with
      | .next => searchFrom clockHz bitrate samplePointPermille limits (presc + 1)
      | .stop => .ok none
      | .found t => .ok (some t)
      | .fault f => .error f := by
  rw [searchFrom, if_pos h]
  split
  all_goals
    rename_i h'
    rw [h']

variable {clockHz bitrate samplePointPermille limits} in
theorem searchFrom_next {presc presc' : UInt32} (hle : presc ≤ limits.prescalerMax)
    (h : tryPrescaler clockHz bitrate samplePointPermille limits presc = .next)
    (hsucc : presc + 1 = presc') :
    searchFrom clockHz bitrate samplePointPermille limits presc =
      searchFrom clockHz bitrate samplePointPermille limits presc' := by
  rw [searchFrom_of_le _ _ _ _ hle, h, hsucc]

variable {clockHz bitrate samplePointPermille limits} in
theorem searchFrom_found {presc : UInt32} {t : CanTiming} (hle : presc ≤ limits.prescalerMax)
    (h : tryPrescaler clockHz bitrate samplePointPermille limits presc = .found t) :
    searchFrom clockHz bitrate samplePointPermille limits presc = .ok (some t) := by
  rw [searchFrom_of_le _ _ _ _ hle, h]

end Search

/-- `rjs_can_calc_timing`. -/
def canCalcTiming (clockHz bitrate : UInt32) (samplePointPermille : UInt16)
    (limits : Option CanTimingLimits) (out : Option CanTiming) :
    Except TimingFault (Bool × Option CanTiming) :=
  match limits, out with
  | some limits, some _ =>
    if bitrate = 0 ∨ clockHz < bitrate ∨ samplePointPermille < 500 ∨ samplePointPermille > 950 then
      .ok (false, out)
    else
      match searchFrom clockHz bitrate samplePointPermille limits 1 with
      | .ok (some t) => .ok (true, some t)
      | .ok none => .ok (false, out)
      | .error f => .error f
  | _, _ => .ok (false, out)

/-! ## One round -/

/-- The prescaler `p` is admissible for the request and the limits. -/
def CanTimingLimits.Admits (limits : CanTimingLimits) (clockHz bitrate : UInt32)
    (samplePointPermille : UInt16) (p : Nat) : Prop :=
  Admissible clockHz.toNat bitrate.toNat (samplePointPermille.toNat / 1000) limits.tseg1Max.toNat
    limits.tseg2Max.toNat p

/-- `t` uses its prescaler for the nearest split, within the limits, and reports it right. -/
structure Realizes (clockHz bitrate : UInt32) (samplePointPermille : UInt16)
    (limits : CanTimingLimits) (t : CanTiming) : Prop where
  split : ∃ x : Split (clockHz.toNat / (t.prescaler.toNat * bitrate.toNat)),
    x.Nearest (samplePointPermille.toNat / 1000) ∧ t.tseg1.toNat = x.tseg1 ∧
      t.tseg2.toNat = x.tseg2
  sjw : t.sjw.toNat = min t.tseg2.toNat limits.sjwMax.toNat
  samplePoint : t.samplePointPermille.toNat =
    1000 * (1 + t.tseg1.toNat) / (1 + t.tseg1.toNat + t.tseg2.toNat)
  exact : t.prescaler.toNat * (1 + t.tseg1.toNat + t.tseg2.toNat) * bitrate.toNat = clockHz.toNat

section Round

variable {clockHz bitrate : UInt32} {samplePointPermille : UInt16} {limits : CanTimingLimits}
  {presc : UInt32}

theorem permille_le (hp : samplePointPermille.toNat ≤ 950) :
    samplePointPermille.toUInt32 ≤ 1000 := by
  rw [UInt32.le_iff_toNat_le, UInt16.toNat_toUInt32]
  exact hp.trans (by decide)

/-- The rounded quotient of `tseg2`, before it is narrowed. -/
theorem toNat_scaled (total : UInt32) (hp : samplePointPermille.toNat ≤ 950)
    (hp' : 500 ≤ samplePointPermille.toNat) :
    ((total.toUInt64 * (1000 - samplePointPermille.toUInt32).toUInt64 + 500) / 1000).toNat =
        (total.toNat * (1000 - samplePointPermille.toNat) + 500) / 1000 ∧
      (total.toNat * (1000 - samplePointPermille.toNat) + 500) / 1000 < 2 ^ 32 := by
  have hlt := total.toNat_lt
  have hsub : (1000 - samplePointPermille.toUInt32).toNat = 1000 - samplePointPermille.toNat := by
    rw [UInt32.toNat_sub_of_le _ _ (permille_le hp), UInt16.toNat_toUInt32]
    rfl
  have hprod : total.toNat * (1000 - samplePointPermille.toNat) ≤ total.toNat * 500 :=
    Nat.mul_le_mul_left _ (by omega)
  have h500 : (500 : UInt64).toNat = 500 := rfl
  have h1000 : (1000 : UInt64).toNat = 1000 := rfl
  refine ⟨?_, by omega⟩
  rw [UInt64.toNat_div, UInt64.toNat_add, UInt64.toNat_mul, UInt32.toNat_toUInt64,
    UInt32.toNat_toUInt64, hsub, h500, h1000]
  omega

theorem toNat_roundedTseg2 (total : UInt32) (hp : samplePointPermille.toNat ≤ 950)
    (hp' : 500 ≤ samplePointPermille.toNat) :
    (roundedTseg2 total samplePointPermille).toNat =
      Split.tseg2For total.toNat samplePointPermille.toNat := by
  obtain ⟨hscaled, hfits⟩ := toNat_scaled total hp hp'
  have hquot : ((total.toUInt64 * (1000 - samplePointPermille.toUInt32).toUInt64 + 500) /
      1000).toUInt32.toNat = (total.toNat * (1000 - samplePointPermille.toNat) + 500) / 1000 := by
    rw [UInt64.toNat_toUInt32, hscaled]
    exact Nat.mod_eq_of_lt hfits
  rw [roundedTseg2, Split.tseg2For, ← hquot]
  generalize ((total.toUInt64 * (1000 - samplePointPermille.toUInt32).toUInt64 + 500) /
    1000).toUInt32 = k
  have hone : (1 : UInt32).toNat = 1 := rfl
  split
  · rename_i h
    rw [UInt32.lt_iff_toNat_lt] at h
    omega
  · rename_i h
    rw [UInt32.not_lt, UInt32.le_iff_toNat_le] at h
    omega

theorem admits_iff {p : Nat} (hlo : 500 ≤ samplePointPermille.toNat)
    (hhi : samplePointPermille.toNat ≤ 950) :
    let total := clockHz.toNat / (p * bitrate.toNat)
    let tseg2 := Split.tseg2For total samplePointPermille.toNat
    limits.Admits clockHz bitrate samplePointPermille p ↔
      p * bitrate.toNat ∣ clockHz.toNat ∧ 4 ≤ total ∧
        total - 1 - tseg2 ≤ limits.tseg1Max.toNat ∧ tseg2 ≤ limits.tseg2Max.toNat :=
  admissible_iff hlo (by omega)

theorem toNat_denom (presc bitrate : UInt32) :
    (presc.toUInt64 * bitrate.toUInt64).toNat = presc.toNat * bitrate.toNat := by
  have hlt : presc.toNat * bitrate.toNat < 2 ^ 32 * 2 ^ 32 :=
    Nat.mul_lt_mul'' presc.toNat_lt bitrate.toNat_lt
  rw [UInt64.toNat_mul, UInt32.toNat_toUInt64, UInt32.toNat_toUInt64]
  exact Nat.mod_eq_of_lt hlt

theorem denom_ne_zero (h0 : presc ≠ 0) (hb : bitrate ≠ 0) :
    presc.toUInt64 * bitrate.toUInt64 ≠ 0 := by
  rw [ne_eq, ← UInt64.toNat_inj, toNat_denom]
  have hpresc : presc.toNat ≠ 0 := fun h => h0 (UInt32.toNat_inj.mp h)
  have hrate : bitrate.toNat ≠ 0 := fun h => hb (UInt32.toNat_inj.mp h)
  exact Nat.mul_ne_zero hpresc hrate

/-- The test for an exact bit rate. -/
theorem mod_denom_ne_zero_iff : clockHz.toUInt64 % (presc.toUInt64 * bitrate.toUInt64) ≠ 0 ↔
    ¬presc.toNat * bitrate.toNat ∣ clockHz.toNat := by
  rw [ne_eq, ← UInt64.toNat_inj, UInt64.toNat_mod, toNat_denom, UInt32.toNat_toUInt64,
    Nat.dvd_iff_mod_eq_zero]
  rfl

theorem toNat_total : (clockHz.toUInt64 / (presc.toUInt64 * bitrate.toUInt64)).toUInt32.toNat =
    clockHz.toNat / (presc.toNat * bitrate.toNat) := by
  rw [UInt64.toNat_toUInt32, UInt64.toNat_div, toNat_denom, UInt32.toNat_toUInt64]
  exact Nat.mod_eq_of_lt (Nat.lt_of_le_of_lt (Nat.div_le_self _ _) clockHz.toNat_lt)

/-- The test of the limits. The first segment has a quantum, so its first part never fires. -/
theorem not_exceeds_iff {tseg1 tseg2 : UInt32} (h : 1 ≤ tseg1.toNat) :
    ¬(tseg1 < 1 ∨ tseg1 > limits.tseg1Max ∨ tseg2 > limits.tseg2Max) ↔
      tseg1.toNat ≤ limits.tseg1Max.toNat ∧ tseg2.toNat ≤ limits.tseg2Max.toNat := by
  rw [not_or, not_or, gt_iff_lt, gt_iff_lt, UInt32.not_lt, UInt32.not_lt, UInt32.not_lt,
    UInt32.le_iff_toNat_le, UInt32.le_iff_toNat_le, UInt32.le_iff_toNat_le]
  exact and_iff_right h

/-- The first segment does not underflow. -/
theorem le_sub_one {total tseg2 : UInt32} (h : tseg2.toNat + 2 ≤ total.toNat) :
    1 ≤ total ∧ tseg2 ≤ total - 1 := by
  have hone : (1 : UInt32) ≤ total := by
    rw [UInt32.le_iff_toNat_le, UInt32.toNat_one]
    omega
  refine ⟨hone, ?_⟩
  rw [UInt32.le_iff_toNat_le, UInt32.toNat_sub_of_le _ _ hone, UInt32.toNat_one]
  omega

theorem toNat_tseg1 {total tseg2 : UInt32} (h : tseg2.toNat + 2 ≤ total.toNat) :
    (total - 1 - tseg2).toNat = total.toNat - 1 - tseg2.toNat := by
  obtain ⟨hone, hrest⟩ := le_sub_one h
  rw [UInt32.toNat_sub_of_le _ _ hrest, UInt32.toNat_sub_of_le _ _ hone, UInt32.toNat_one]

theorem toNat_one_add {tseg1 : UInt32} (h : tseg1.toNat + 1 < 2 ^ 32) :
    (1 + tseg1).toNat = 1 + tseg1.toNat := by
  rw [UInt32.toNat_add, UInt32.toNat_one]
  exact Nat.mod_eq_of_lt (by omega)

/-- The reported sample point neither wraps nor loses digits. -/
theorem toNat_samplePoint {total tseg1 : UInt32} (h : tseg1.toNat + 1 ≤ total.toNat)
    (hwide : tseg1.toNat ≤ 4294966) :
    ((1000 * (1 + tseg1)) / total).toUInt16.toNat = 1000 * (1 + tseg1.toNat) / total.toNat := by
  have hthousand : (1000 : UInt32).toNat = 1000 := rfl
  have hprod : (1000 * (1 + tseg1)).toNat = 1000 * (1 + tseg1.toNat) := by
    rw [UInt32.toNat_mul, toNat_one_add (by omega), hthousand]
    exact Nat.mod_eq_of_lt (by omega)
  have hle : 1000 * (1 + tseg1.toNat) / total.toNat ≤ 1000 := by
    rw [Nat.div_le_iff_le_mul_add_pred (by omega)]
    omega
  rw [UInt32.toNat_toUInt16, UInt32.toNat_div, hprod]
  exact Nat.mod_eq_of_lt (Nat.lt_of_le_of_lt hle (by decide))

/-- The result of a round that is within the limits. -/
theorem realizes_of_split {t : CanTiming} (total : Nat)
    (htotal : clockHz.toNat / (t.prescaler.toNat * bitrate.toNat) = total) (hquanta : 4 ≤ total)
    (hdvd : t.prescaler.toNat * bitrate.toNat ∣ clockHz.toNat)
    (hlo : 500 ≤ samplePointPermille.toNat) (hhi : samplePointPermille.toNat ≤ 950)
    (htseg2 : t.tseg2.toNat = Split.tseg2For total samplePointPermille.toNat)
    (htseg1 : t.tseg1.toNat = total - 1 - t.tseg2.toNat)
    (hsjw : t.sjw = if t.tseg2 < limits.sjwMax then t.tseg2 else limits.sjwMax)
    (hpoint : t.samplePointPermille.toNat = 1000 * (1 + t.tseg1.toNat) / total) :
    Realizes clockHz bitrate samplePointPermille limits t := by
  subst htotal
  have hsum := (Split.forPermille hquanta hlo).sum
  have htot : 1 + t.tseg1.toNat + t.tseg2.toNat =
      clockHz.toNat / (t.prescaler.toNat * bitrate.toNat) := by
    rw [htseg1, htseg2]
    exact hsum
  refine ⟨⟨_, Split.nearest_forPermille hquanta hlo (by omega), ?_, htseg2⟩, ?_, ?_, ?_⟩
  · rw [htseg1, htseg2]; rfl
  · rw [hsjw]
    split
    · rename_i h
      rw [UInt32.lt_iff_toNat_lt] at h
      omega
    · rename_i h
      rw [UInt32.not_lt, UInt32.le_iff_toNat_le] at h
      omega
  · rw [htot, hpoint]
  · rw [htot, Nat.mul_right_comm, Nat.mul_div_cancel' hdvd]

/-- The segments a timing must have. -/
theorem Realizes.toNat_tseg {t : CanTiming} {total : Nat}
    (h : Realizes clockHz bitrate samplePointPermille limits t)
    (htotal : clockHz.toNat / (t.prescaler.toNat * bitrate.toNat) = total) (hquanta : 4 ≤ total)
    (hlo : 500 ≤ samplePointPermille.toNat) (hhi : samplePointPermille.toNat ≤ 950) :
    t.tseg1.toNat = total - 1 - Split.tseg2For total samplePointPermille.toNat ∧
      t.tseg2.toNat = Split.tseg2For total samplePointPermille.toNat := by
  subst htotal
  obtain ⟨x, hx, h1, h2⟩ := h.split
  obtain rfl := hx.unique (Split.nearest_forPermille hquanta hlo (by omega))
  exact ⟨h1, h2⟩

variable (clockHz limits) in
/-- The three ways through a round, for a prescaler and a bit rate that are not zero. -/
theorem tryPrescaler_cases (h0 : presc ≠ 0) (hb : bitrate ≠ 0)
    (hlo : 500 ≤ samplePointPermille.toNat) (hhi : samplePointPermille.toNat ≤ 950) :
    (tryPrescaler clockHz bitrate samplePointPermille limits presc = .next ∧
      (presc.toNat * bitrate.toNat ∣ clockHz.toNat →
        4 ≤ clockHz.toNat / (presc.toNat * bitrate.toNat)) ∧
      ¬limits.Admits clockHz bitrate samplePointPermille presc.toNat) ∨
    (tryPrescaler clockHz bitrate samplePointPermille limits presc = .stop ∧
      presc.toNat * bitrate.toNat ∣ clockHz.toNat ∧
      clockHz.toNat / (presc.toNat * bitrate.toNat) < 4) ∨
    (∃ t, tryPrescaler clockHz bitrate samplePointPermille limits presc = .found t ∧
      t.prescaler = presc ∧ limits.Admits clockHz bitrate samplePointPermille presc.toNat ∧
      (limits.tseg1Max.toNat ≤ 4294966 →
        Realizes clockHz bitrate samplePointPermille limits t)) := by
  have hadmits : limits.Admits clockHz bitrate samplePointPermille presc.toNat ↔ _ :=
    admits_iff hlo hhi
  have htotal : (clockHz.toUInt64 / (presc.toUInt64 * bitrate.toUInt64)).toUInt32.toNat = _ :=
    toNat_total
  simp only [tryPrescaler]
  rw [if_neg (denom_ne_zero h0 hb)]
  generalize (clockHz.toUInt64 / (presc.toUInt64 * bitrate.toUInt64)).toUInt32 = total at htotal
  rw [← htotal] at hadmits ⊢
  by_cases hd : presc.toNat * bitrate.toNat ∣ clockHz.toNat
  case neg =>
    rw [if_pos (mod_denom_ne_zero_iff.mpr hd)]
    exact .inl ⟨rfl, fun h => absurd h hd, fun h => hd (hadmits.mp h).1⟩
  rw [if_neg (mt mod_denom_ne_zero_iff.mp (not_not.mpr hd))]
  by_cases hfew : total < 4
  case pos =>
    rw [if_pos hfew]
    exact .inr (.inl ⟨rfl, hd, UInt32.lt_iff_toNat_lt.mp hfew⟩)
  rw [if_neg hfew]
  have hquanta : 4 ≤ total.toNat := UInt32.le_iff_toNat_le.mp (UInt32.not_lt.mp hfew)
  have htseg2 := toNat_roundedTseg2 total hhi hlo
  have hroom := Split.tseg2For_add_two_le hquanta hlo
  rw [← htseg2] at hadmits hroom
  have htseg1 := toNat_tseg1 hroom
  rw [← htseg1] at hadmits
  generalize roundedTseg2 total samplePointPermille = tseg2 at *
  generalize total - 1 - tseg2 = tseg1 at *
  have hlimits : ¬(tseg1 < 1 ∨ tseg1 > limits.tseg1Max ∨ tseg2 > limits.tseg2Max) ↔ _ :=
    not_exceeds_iff (by omega)
  by_cases hfit : tseg1 < 1 ∨ tseg1 > limits.tseg1Max ∨ tseg2 > limits.tseg2Max
  case pos =>
    rw [if_pos hfit]
    refine .inl ⟨rfl, fun _ => hquanta, fun h => ?_⟩
    obtain ⟨-, -, hsegments⟩ := hadmits.mp h
    exact hlimits.mpr hsegments hfit
  rw [if_neg hfit]
  obtain ⟨h1, h2⟩ := hlimits.mp hfit
  refine .inr (.inr ⟨_, rfl, rfl, hadmits.mpr ⟨hd, hquanta, h1, h2⟩, fun hwide => ?_⟩)
  refine realizes_of_split total.toNat htotal.symm hquanta hd hlo hhi htseg2 htseg1 rfl ?_
  exact toNat_samplePoint (by omega) (h1.trans hwide)

end Round

/-! ## The search -/

/-- A timing with the smallest admissible prescaler. -/
structure Best (clockHz bitrate : UInt32) (samplePointPermille : UInt16)
    (limits : CanTimingLimits) (t : CanTiming) : Prop
    extends Realizes clockHz bitrate samplePointPermille limits t where
  positive : 1 ≤ t.prescaler.toNat
  inRange : t.prescaler ≤ limits.prescalerMax
  admissible : limits.Admits clockHz bitrate samplePointPermille t.prescaler.toNat
  smallest : ∀ p, 1 ≤ p → p < t.prescaler.toNat →
    ¬limits.Admits clockHz bitrate samplePointPermille p

/-- A search that succeeds, for arguments that pass the entry check. -/
theorem canCalcTiming_of_found {clockHz bitrate : UInt32} {samplePointPermille : UInt16}
    {limits : CanTimingLimits} {t : CanTiming} (out : CanTiming)
    (hentry : ¬(bitrate = 0 ∨ clockHz < bitrate ∨ samplePointPermille < 500 ∨
      samplePointPermille > 950))
    (h : searchFrom clockHz bitrate samplePointPermille limits 1 = .ok (some t)) :
    canCalcTiming clockHz bitrate samplePointPermille (some limits) (some out) =
      .ok (true, some t) := by
  simp only [canCalcTiming]
  rw [if_neg hentry, h]

section Spec

variable {clockHz bitrate : UInt32} {samplePointPermille : UInt16} {limits : CanTimingLimits}
  {presc : UInt32}

theorem searchFrom_spec (hb : bitrate ≠ 0) (hlo : 500 ≤ samplePointPermille.toNat)
    (hhi : samplePointPermille.toNat ≤ 950) (hwide : limits.tseg1Max.toNat ≤ 4294966)
    (hmax : limits.prescalerMax.toNat < 2 ^ 32 - 1) (h1 : 1 ≤ presc.toNat)
    (hbefore : ∀ p, 1 ≤ p → p < presc.toNat →
      ¬limits.Admits clockHz bitrate samplePointPermille p) :
    (∃ t, searchFrom clockHz bitrate samplePointPermille limits presc = .ok (some t) ∧
      Best clockHz bitrate samplePointPermille limits t) ∨
    (searchFrom clockHz bitrate samplePointPermille limits presc = .ok none ∧
      ∀ p, 1 ≤ p → p ≤ limits.prescalerMax.toNat →
        ¬limits.Admits clockHz bitrate samplePointPermille p) := by
  -- by induction on the prescalers that are left; those before are not admissible
  induction hn : limits.prescalerMax.toNat + 1 - presc.toNat generalizing presc with
  | zero =>
    have hgt : ¬presc ≤ limits.prescalerMax := by
      rw [UInt32.le_iff_toNat_le]
      omega
    right
    rw [searchFrom, if_neg hgt]
    exact ⟨rfl, fun p hp hle => hbefore p hp (by omega)⟩
  | succ n ih =>
    have hle : presc ≤ limits.prescalerMax := by
      rw [UInt32.le_iff_toNat_le]
      omega
    have h0 : presc ≠ 0 := by
      rintro rfl
      exact absurd h1 (by decide)
    have hrange : presc.toNat ≤ limits.prescalerMax.toNat := UInt32.le_iff_toNat_le.mp hle
    have hbitrate : 0 < bitrate.toNat := Nat.pos_of_ne_zero fun h => hb (UInt32.toNat_inj.mp h)
    rw [searchFrom_of_le _ _ _ _ hle]
    obtain ⟨hnext, -, hnot⟩ | ⟨hstop, -, hfew⟩ | ⟨t, hfound, rfl, hadmits, hreal⟩ :=
      tryPrescaler_cases clockHz limits h0 hb hlo hhi
    · rw [hnext]
      have hsucc : (presc + 1).toNat = presc.toNat + 1 := toNat_add_one (by omega)
      refine ih (by omega) (fun p hp hlt => ?_) (by omega)
      rw [hsucc] at hlt
      cases Nat.lt_succ_iff_lt_or_eq.mp hlt with
      | inl hlt => exact hbefore p hp hlt
      | inr heq => exact heq ▸ hnot
    · rw [hstop]
      refine .inr ⟨rfl, fun p hp _ hadmits => ?_⟩
      -- from here on, a bit has fewer than four quanta
      by_cases hlt : p < presc.toNat
      · exact hbefore p hp hlt hadmits
      · have hquanta := hadmits.quanta
        have hdown : clockHz.toNat / (p * bitrate.toNat) ≤
            clockHz.toNat / (presc.toNat * bitrate.toNat) := quanta_le h1 hbitrate (not_lt.mp hlt)
        omega
    · rw [hfound]
      exact .inl ⟨t, rfl, hreal hwide, h1, hle, hadmits, hbefore⟩

/-- What passes the entry check. -/
structure Requestable (clockHz bitrate : UInt32) (samplePointPermille : UInt16) : Prop where
  bitrate_pos : 0 < bitrate
  bitrate_le : bitrate ≤ clockHz
  early : 500 ≤ samplePointPermille
  late : samplePointPermille ≤ 950

theorem requestable_iff : Requestable clockHz bitrate samplePointPermille ↔
    ¬(bitrate = 0 ∨ clockHz < bitrate ∨ samplePointPermille < 500 ∨ samplePointPermille > 950) := by
  have hpos : 0 < bitrate ↔ bitrate ≠ 0 := by
    rw [UInt32.lt_iff_toNat_lt, ne_eq, ← UInt32.toNat_inj]
    exact Nat.pos_iff_ne_zero
  rw [not_or, not_or, not_or, UInt32.not_lt, UInt16.not_lt, gt_iff_lt, UInt16.not_lt, ← ne_eq,
    ← hpos]
  constructor
  · rintro ⟨h1, h2, h3, h4⟩
    exact ⟨h1, h2, h3, h4⟩
  · rintro ⟨h1, h2, h3, h4⟩
    exact ⟨h1, h2, h3, h4⟩

/-- The two ways a calculation ends that passes the entry check. -/
theorem canCalcTiming_cases (hreq : Requestable clockHz bitrate samplePointPermille)
    (hmax : limits.prescalerMax.toNat < 2 ^ 32 - 1) (hwide : limits.tseg1Max.toNat ≤ 4294966)
    (out : CanTiming) :
    (∃ t, canCalcTiming clockHz bitrate samplePointPermille (some limits) (some out) =
        .ok (true, some t) ∧ Best clockHz bitrate samplePointPermille limits t) ∨
    (canCalcTiming clockHz bitrate samplePointPermille (some limits) (some out) =
        .ok (false, some out) ∧
      ∀ p, 1 ≤ p → p ≤ limits.prescalerMax.toNat →
        ¬limits.Admits clockHz bitrate samplePointPermille p) := by
  have hb : bitrate ≠ 0 := by
    rintro rfl
    exact absurd hreq.bitrate_pos (by decide)
  have hstart : ∀ p, 1 ≤ p → p < (1 : UInt32).toNat →
      ¬limits.Admits clockHz bitrate samplePointPermille p := by
    intro p hp hlt
    exact absurd hlt (Nat.not_lt.mpr hp)
  simp only [canCalcTiming]
  rw [if_neg (requestable_iff.mp hreq)]
  obtain ⟨t, hsearch, hbest⟩ | ⟨hsearch, hnone⟩ :=
    searchFrom_spec hb (UInt16.le_iff_toNat_le.mp hreq.early) (UInt16.le_iff_toNat_le.mp hreq.late)
      hwide hmax (by decide) hstart
  · rw [hsearch]
    exact .inl ⟨t, rfl, hbest⟩
  · rw [hsearch]
    exact .inr ⟨rfl, hnone⟩

/-- A calculation that succeeds has passed the entry check and found the best timing. -/
theorem best_of_canCalcTiming (hmax : limits.prescalerMax.toNat < 2 ^ 32 - 1)
    (hwide : limits.tseg1Max.toNat ≤ 4294966) {out t : CanTiming}
    (h : canCalcTiming clockHz bitrate samplePointPermille (some limits) (some out) =
      .ok (true, some t)) :
    Requestable clockHz bitrate samplePointPermille ∧
      Best clockHz bitrate samplePointPermille limits t := by
  by_cases hreq : Requestable clockHz bitrate samplePointPermille
  · refine ⟨hreq, ?_⟩
    obtain ⟨t', h', hbest⟩ | ⟨h', -⟩ := canCalcTiming_cases hreq hmax hwide out
    · rw [h] at h'
      cases h'
      exact hbest
    · rw [h] at h'
      cases h'
  · simp only [canCalcTiming] at h
    rw [if_pos (not_not.mp (mt requestable_iff.mpr hreq))] at h
    cases h

/-- **The bit timing search is sound, complete and optimal.** For arguments that pass the entry
check, it succeeds exactly when some prescaler in range is admissible, then with the smallest one,
and otherwise leaves the output alone. -/
theorem canCalcTiming_spec (hreq : Requestable clockHz bitrate samplePointPermille)
    (hmax : limits.prescalerMax.toNat < 2 ^ 32 - 1) (hwide : limits.tseg1Max.toNat ≤ 4294966)
    (out : CanTiming) :
    ((∃ p, 1 ≤ p ∧ p ≤ limits.prescalerMax.toNat ∧
        limits.Admits clockHz bitrate samplePointPermille p) →
      ∃ t, canCalcTiming clockHz bitrate samplePointPermille (some limits) (some out) =
          .ok (true, some t) ∧ Best clockHz bitrate samplePointPermille limits t) ∧
    ((¬∃ p, 1 ≤ p ∧ p ≤ limits.prescalerMax.toNat ∧
        limits.Admits clockHz bitrate samplePointPermille p) →
      canCalcTiming clockHz bitrate samplePointPermille (some limits) (some out) =
        .ok (false, some out)) := by
  obtain ⟨t, h, hbest⟩ | ⟨h, hnone⟩ := canCalcTiming_cases hreq hmax hwide out
  · refine ⟨fun _ => ⟨t, h, hbest⟩, fun hnone => ?_⟩
    exact absurd ⟨_, hbest.positive, UInt32.le_iff_toNat_le.mp hbest.inRange, hbest.admissible⟩ hnone
  · refine ⟨?_, fun _ => h⟩
    rintro ⟨p, hp, hle, hadmits⟩
    exact absurd hadmits (hnone p hp hle)

/-- The data phase of the shipped configuration: 2 Mbit/s from 200 MHz. -/
theorem canCalcTiming_spec_shipped :
    ∃ t, canCalcTiming 200000000 2000000 800 (some ⟨32, 32, 16, 16⟩) (some default) =
        .ok (true, some t) ∧ Best 200000000 2000000 800 ⟨32, 32, 16, 16⟩ t := by
  have hadmits : CanTimingLimits.Admits ⟨32, 32, 16, 16⟩ 200000000 2000000 800 4 :=
    (admits_iff (by decide) (by decide)).mpr (by decide)
  have hreq : Requestable 200000000 2000000 800 :=
    ⟨by decide, by decide, by decide, by decide⟩
  exact (canCalcTiming_spec hreq (by decide) (by decide) default).1
    ⟨4, by decide, by decide, hadmits⟩

end Spec

end Rjs
