import RobotJointStack.Lib.Checked
import RobotJointStack.Board.DelayCompensation

/-!
# Board.TimingRange

The bit timing calculation once more, operation by operation: a step is `none` where a divisor is
zero or a 32-bit result does not fit its type. The 64-bit product `presc * bitrate` always fits.

* `tryChecked_cases`: a round goes wrong only in the product `1000 * (1 + tseg1)`.
* `searchChecked_isSome`, `searchChecked_eq_none_of_wide`, `searchFrom_divisionByZero`: the rounds
  that are left, and the two ways in which they go wrong.
* `canCalcTiming_of_checked`: where nothing goes wrong, this is the calculation of `CanTiming`.
* `canCalcTimingChecked_iff`: the requests and the limits for which nothing does.
-/

namespace Rjs

open BitTiming CInt

def roundedTseg2Checked (total : UInt32) (samplePointPermille : UInt16) : Option UInt32 := do
  let rest ← usub32 1000 samplePointPermille.toUInt32
  let tseg2 ← unarrow32 ((total.toUInt64 * rest.toUInt64 + 500) / 1000)
  some (if tseg2 < 1 then 1 else tseg2)

section Search

variable (clockHz bitrate : UInt32) (samplePointPermille : UInt16) (limits : CanTimingLimits)

def tryChecked (presc : UInt32) : Option Attempt := do
  let denom : UInt64 := presc.toUInt64 * bitrate.toUInt64
  let rest ← umod64 clockHz.toUInt64 denom
  if rest ≠ 0 then some .next
  else do
    let quotient ← udiv64 clockHz.toUInt64 denom
    let total ← unarrow32 quotient
    if total < 4 then some .stop
    else do
      let tseg2 ← roundedTseg2Checked total samplePointPermille
      let segments ← usub32 total 1
      let tseg1 ← usub32 segments tseg2
      if tseg1 < 1 ∨ tseg1 > limits.tseg1Max ∨ tseg2 > limits.tseg2Max then some .next
      else do
        let early ← uadd32 1 tseg1
        let product ← umul32 1000 early
        some (.found
          { prescaler := presc
            tseg1 := tseg1
            tseg2 := tseg2
            sjw := if tseg2 < limits.sjwMax then tseg2 else limits.sjwMax
            samplePointPermille := (product / total).toUInt16 })

/-- The prescaler loop from `presc` on. -/
def searchChecked (presc : UInt32) : Option (Option CanTiming) :=
  if presc ≤ limits.prescalerMax then
    match tryChecked clockHz bitrate samplePointPermille limits presc with
    | some .next =>
      -- `++presc` in 32 bits
      if _h : presc.toNat + 1 < 2 ^ 32 then searchChecked (presc + 1) else none
    | some .stop => some none
    | some (.found t) => some (some t)
    | some (.fault _) => none
    | none => none
  else some none
termination_by 2 ^ 32 - presc.toNat
decreasing_by
  rw [toNat_add_one _h]
  omega

end Search

/-- `rjs_can_calc_timing`. -/
def canCalcTimingChecked (clockHz bitrate : UInt32) (samplePointPermille : UInt16)
    (limits : Option CanTimingLimits) (out : Option CanTiming) :
    Option (Bool × Option CanTiming) :=
  match limits, out with
  | some limits, some _ =>
    if bitrate = 0 ∨ clockHz < bitrate ∨ samplePointPermille < 500 ∨ samplePointPermille > 950 then
      some (false, out)
    else
      match searchChecked clockHz bitrate samplePointPermille limits 1 with
      | some (some t) => some (true, some t)
      | some none => some (false, out)
      | none => none
  | _, _ => some (false, out)

/-- The first segment that the prescaler `p` leaves. -/
def firstSegment (clockHz bitrate : UInt32) (samplePointPermille : UInt16) (p : Nat) : Nat :=
  let total := clockHz.toNat / (p * bitrate.toNat)
  total - 1 - Split.tseg2For total samplePointPermille.toNat

/-! ## One round -/

section Round

variable {clockHz bitrate : UInt32} {samplePointPermille : UInt16} {limits : CanTimingLimits}
  {presc : UInt32}

theorem Requestable.bitrate_ne_zero (h : Requestable clockHz bitrate samplePointPermille) :
    bitrate ≠ 0 := by
  rintro rfl
  exact absurd h.bitrate_pos (by decide)

theorem Requestable.toNat_pos (h : Requestable clockHz bitrate samplePointPermille) :
    0 < bitrate.toNat :=
  UInt32.lt_iff_toNat_lt.mp h.bitrate_pos

theorem Requestable.toNat_le_clock (h : Requestable clockHz bitrate samplePointPermille) :
    bitrate.toNat ≤ clockHz.toNat :=
  UInt32.le_iff_toNat_le.mp h.bitrate_le

theorem Requestable.le_toNat (h : Requestable clockHz bitrate samplePointPermille) :
    500 ≤ samplePointPermille.toNat :=
  UInt16.le_iff_toNat_le.mp h.early

theorem Requestable.toNat_le (h : Requestable clockHz bitrate samplePointPermille) :
    samplePointPermille.toNat ≤ 950 :=
  UInt16.le_iff_toNat_le.mp h.late

theorem roundedTseg2Checked_eq (total : UInt32) (hlo : 500 ≤ samplePointPermille.toNat)
    (hhi : samplePointPermille.toNat ≤ 950) :
    roundedTseg2Checked total samplePointPermille =
      some (roundedTseg2 total samplePointPermille) := by
  obtain ⟨hscaled, hfits⟩ := toNat_scaled total hhi hlo
  rw [roundedTseg2Checked, bind_of_eq_some (usub32_eq (permille_le hhi)),
    bind_of_eq_some (unarrow32_eq (hscaled.trans_lt hfits))]
  rfl

/-- The quanta of a bit, whatever is done with them. -/
theorem total_checked (hdenom : presc.toUInt64 * bitrate.toUInt64 ≠ 0)
    (next : UInt32 → Option Attempt) :
    (udiv64 clockHz.toUInt64 (presc.toUInt64 * bitrate.toUInt64) >>= fun quotient =>
      unarrow32 quotient >>= next) =
      next (clockHz.toUInt64 / (presc.toUInt64 * bitrate.toUInt64)).toUInt32 := by
  have hdiv : udiv64 clockHz.toUInt64 (presc.toUInt64 * bitrate.toUInt64) = some _ := if_neg hdenom
  have hfits : (clockHz.toUInt64 / (presc.toUInt64 * bitrate.toUInt64)).toNat < 2 ^ 32 := by
    rw [UInt64.toNat_div, UInt32.toNat_toUInt64]
    exact Nat.lt_of_le_of_lt (Nat.div_le_self _ _) clockHz.toNat_lt
  rw [bind_of_eq_some hdiv, bind_of_eq_some (unarrow32_eq hfits)]

theorem tseg1_checked {total tseg2 : UInt32} (h : tseg2.toNat + 2 ≤ total.toNat)
    (next : UInt32 → Option Attempt) :
    (usub32 total 1 >>= fun segments => usub32 segments tseg2 >>= next) =
      next (total - 1 - tseg2) := by
  obtain ⟨hone, hrest⟩ := le_sub_one h
  rw [bind_of_eq_some (usub32_eq hone), bind_of_eq_some (usub32_eq hrest)]

/-- The product of the sample point is the one step that may not fit. -/
theorem product_checked {tseg1 : UInt32} (h : tseg1.toNat + 1 < 2 ^ 32)
    (next : UInt32 → Option Attempt) :
    (uadd32 1 tseg1 >>= fun early => umul32 1000 early >>= next) =
      if 1000 * (1 + tseg1.toNat) < 2 ^ 32 then next (1000 * (1 + tseg1)) else none := by
  have hsum : (1 : UInt32).toNat + tseg1.toNat < 2 ^ 32 := by
    rw [UInt32.toNat_one]
    omega
  have hproduct : (1000 : UInt32).toNat * (1 + tseg1).toNat = 1000 * (1 + tseg1.toNat) := by
    rw [toNat_one_add h]
    rfl
  rw [bind_of_eq_some (uadd32_eq hsum)]
  split
  · rename_i hfits
    rw [bind_of_eq_some (umul32_eq (hproduct.trans_lt hfits))]
  · rename_i hwide
    rw [bind_of_eq_none (umul32_eq_none ((not_lt.mp hwide).trans_eq hproduct.symm))]

variable (clockHz limits) in
/-- A round is carried out exactly, unless it finds a timing whose first segment is too long. -/
theorem tryChecked_cases (h0 : presc ≠ 0)
    (hreq : Requestable clockHz bitrate samplePointPermille) :
    (tryChecked clockHz bitrate samplePointPermille limits presc =
        some (tryPrescaler clockHz bitrate samplePointPermille limits presc) ∧
      (limits.Admits clockHz bitrate samplePointPermille presc.toNat →
        1000 * (1 + firstSegment clockHz bitrate samplePointPermille presc.toNat) < 2 ^ 32)) ∨
    (tryChecked clockHz bitrate samplePointPermille limits presc = none ∧
      limits.Admits clockHz bitrate samplePointPermille presc.toNat ∧
      2 ^ 32 ≤ 1000 * (1 + firstSegment clockHz bitrate samplePointPermille presc.toNat)) := by
  have hlo := hreq.le_toNat
  have hhi := hreq.toNat_le
  have hdenom : presc.toUInt64 * bitrate.toUInt64 ≠ 0 := denom_ne_zero h0 hreq.bitrate_ne_zero
  have hadmits : limits.Admits clockHz bitrate samplePointPermille presc.toNat ↔ _ :=
    admits_iff hlo hhi
  have htotal : (clockHz.toUInt64 / (presc.toUInt64 * bitrate.toUInt64)).toUInt32.toNat = _ :=
    toNat_total
  have hmod : umod64 clockHz.toUInt64 (presc.toUInt64 * bitrate.toUInt64) = some _ := if_neg hdenom
  simp only [tryChecked, tryPrescaler, firstSegment]
  rw [if_neg hdenom, bind_of_eq_some hmod]
  by_cases hd : presc.toNat * bitrate.toNat ∣ clockHz.toNat
  case neg =>
    rw [if_pos (mod_denom_ne_zero_iff.mpr hd), if_pos (mod_denom_ne_zero_iff.mpr hd)]
    exact .inl ⟨rfl, fun h => absurd (hadmits.mp h).1 hd⟩
  have hexact := mt mod_denom_ne_zero_iff.mp (not_not.mpr hd)
  rw [if_neg hexact, if_neg hexact, total_checked hdenom]
  clear hmod hexact
  generalize (clockHz.toUInt64 / (presc.toUInt64 * bitrate.toUInt64)).toUInt32 = total at htotal ⊢
  rw [← htotal] at hadmits ⊢
  by_cases hfew : total < 4
  case pos =>
    rw [if_pos hfew, if_pos hfew]
    refine .inl ⟨rfl, fun h => ?_⟩
    have hquanta := (hadmits.mp h).2.1
    exact absurd (UInt32.lt_iff_toNat_lt.mp hfew) (not_lt.mpr hquanta)
  have hquanta : 4 ≤ total.toNat := UInt32.le_iff_toNat_le.mp (UInt32.not_lt.mp hfew)
  have htseg2 := toNat_roundedTseg2 total hhi hlo
  have hroom := Split.tseg2For_add_two_le hquanta hlo
  rw [if_neg hfew, if_neg hfew, bind_of_eq_some (roundedTseg2Checked_eq total hlo hhi)]
  rw [← htseg2] at hadmits hroom ⊢
  have htseg1 := toNat_tseg1 hroom
  rw [← htseg1] at hadmits ⊢
  generalize roundedTseg2 total samplePointPermille = tseg2 at *
  rw [tseg1_checked hroom]
  generalize total - 1 - tseg2 = tseg1 at *
  have hlimits : ¬(tseg1 < 1 ∨ tseg1 > limits.tseg1Max ∨ tseg2 > limits.tseg2Max) ↔ _ :=
    not_exceeds_iff (by omega)
  by_cases hfit : tseg1 < 1 ∨ tseg1 > limits.tseg1Max ∨ tseg2 > limits.tseg2Max
  case pos =>
    rw [if_pos hfit, if_pos hfit]
    exact .inl ⟨rfl, fun h => absurd hfit (hlimits.mpr (hadmits.mp h).2.2)⟩
  have hlt := total.toNat_lt
  rw [if_neg hfit, if_neg hfit, product_checked (by omega)]
  by_cases hwide : 1000 * (1 + tseg1.toNat) < 2 ^ 32
  · rw [if_pos hwide]
    exact .inl ⟨rfl, fun _ => hwide⟩
  · rw [if_neg hwide]
    exact .inr ⟨rfl, hadmits.mpr ⟨hd, hquanta, hlimits.mp hfit⟩, not_lt.mp hwide⟩

end Round

/-! ## The search -/

section Search

variable {clockHz bitrate : UInt32} {samplePointPermille : UInt16} {limits : CanTimingLimits}
  {presc : UInt32}

/-- What keeps every computation of a search within its type: where the limits let the counter reach
its last value, the bit rate divides the clock, which stops the search in time; and no admissible
prescaler leaves too long a first segment. -/
structure Confined (clockHz bitrate : UInt32) (samplePointPermille : UInt16)
    (limits : CanTimingLimits) : Prop where
  ends : limits.prescalerMax.toNat = 2 ^ 32 - 1 → bitrate.toNat ∣ clockHz.toNat
  fits : ∀ p, 1 ≤ p → p ≤ limits.prescalerMax.toNat →
    limits.Admits clockHz bitrate samplePointPermille p →
      1000 * (1 + firstSegment clockHz bitrate samplePointPermille p) < 2 ^ 32

theorem succ_mul_le {p b c : Nat} (hd : b ∣ c) (hlt : p * b < c) : (p + 1) * b ≤ c := by
  obtain ⟨q, rfl⟩ := hd
  rw [Nat.mul_comm b q] at hlt ⊢
  exact Nat.mul_le_mul_right b (Nat.lt_of_mul_lt_mul_right hlt)

theorem presc_ne_zero (h1 : 1 ≤ presc.toNat) : presc ≠ 0 := by
  rintro rfl
  exact absurd h1 (by decide)

/-- One round of a search that is carried out exactly. -/
theorem searchChecked_of_exact (hle : presc ≤ limits.prescalerMax)
    (h : tryChecked clockHz bitrate samplePointPermille limits presc =
      some (tryPrescaler clockHz bitrate samplePointPermille limits presc)) :
    searchChecked clockHz bitrate samplePointPermille limits presc =
      match tryPrescaler clockHz bitrate samplePointPermille limits presc with
      | .next =>
        if presc.toNat + 1 < 2 ^ 32 then
          searchChecked clockHz bitrate samplePointPermille limits (presc + 1)
        else none
      | .stop => some none
      | .found t => some (some t)
      | .fault _ => none := by
  rw [searchChecked, if_pos hle, h]
  cases tryPrescaler clockHz bitrate samplePointPermille limits presc with
  | next => exact dite_eq_ite
  | stop => rfl
  | found t => rfl
  | fault f => rfl

theorem searchChecked_of_none (hle : presc ≤ limits.prescalerMax)
    (h : tryChecked clockHz bitrate samplePointPermille limits presc = none) :
    searchChecked clockHz bitrate samplePointPermille limits presc = none := by
  rw [searchChecked, if_pos hle, h]

/-- A search that computes exactly is the search of `CanTiming`. -/
theorem searchFrom_of_checked (hreq : Requestable clockHz bitrate samplePointPermille)
    (h1 : 1 ≤ presc.toNat) {r : Option CanTiming}
    (h : searchChecked clockHz bitrate samplePointPermille limits presc = some r) :
    searchFrom clockHz bitrate samplePointPermille limits presc = .ok r := by
  -- by induction on the counter values that are left
  induction hn : 2 ^ 32 - presc.toNat using Nat.strong_induction_on generalizing presc with
  | _ n ih =>
    by_cases hle : presc ≤ limits.prescalerMax
    case neg =>
      rw [searchChecked, if_neg hle] at h
      rw [searchFrom, if_neg hle]
      cases h
      rfl
    obtain ⟨hexact, -⟩ | ⟨hnone, -, -⟩ :=
      tryChecked_cases clockHz limits (presc_ne_zero h1) hreq
    case inr =>
      rw [searchChecked_of_none hle hnone] at h
      cases h
    rw [searchChecked_of_exact hle hexact] at h
    rw [searchFrom_of_le _ _ _ _ hle]
    cases hround : tryPrescaler clockHz bitrate samplePointPermille limits presc with
    | next =>
      rw [hround] at h
      simp only at h ⊢
      split at h
      · rename_i hlast
        have hsucc := toNat_add_one hlast
        exact ih _ (by omega) (by omega) h rfl
      · cases h
    | stop =>
      rw [hround] at h
      cases h
      rfl
    | found t =>
      rw [hround] at h
      cases h
      rfl
    | fault f =>
      rw [hround] at h
      cases h

/-- Within `Confined`, the rounds that are left are carried out exactly. -/
theorem searchChecked_isSome (hreq : Requestable clockHz bitrate samplePointPermille)
    (hconf : Confined clockHz bitrate samplePointPermille limits) (h1 : 1 ≤ presc.toNat)
    (hends : limits.prescalerMax.toNat = 2 ^ 32 - 1 →
      presc.toNat * bitrate.toNat ≤ clockHz.toNat) :
    (searchChecked clockHz bitrate samplePointPermille limits presc).isSome := by
  -- by induction on the prescalers that are left; were the last of them the largest counter
  -- value, the loop would stop where `presc * bitrate` reaches the clock
  induction hn : limits.prescalerMax.toNat + 1 - presc.toNat generalizing presc with
  | zero =>
    have hgt : ¬presc ≤ limits.prescalerMax := by
      rw [UInt32.le_iff_toNat_le]
      omega
    rw [searchChecked, if_neg hgt]
    rfl
  | succ n ih =>
    have h0 := presc_ne_zero h1
    have hrange : presc.toNat ≤ limits.prescalerMax.toNat := by omega
    have hle : presc ≤ limits.prescalerMax := UInt32.le_iff_toNat_le.mpr hrange
    obtain ⟨hexact, -⟩ | ⟨-, hadmits, hwide⟩ := tryChecked_cases clockHz limits h0 hreq
    case inr => exact absurd (hconf.fits _ h1 hrange hadmits) (not_lt.mpr hwide)
    rw [searchChecked_of_exact hle hexact]
    obtain ⟨hnext, hquanta, -⟩ | ⟨hstop, -⟩ | ⟨t, hfound, -⟩ :=
      tryPrescaler_cases clockHz limits h0 hreq.bitrate_ne_zero hreq.le_toNat hreq.toNat_le
    · have hbelow : limits.prescalerMax.toNat = 2 ^ 32 - 1 →
          (presc.toNat + 1) * bitrate.toNat ≤ clockHz.toNat := by
        intro hmax
        refine succ_mul_le (hconf.ends hmax) (lt_of_le_of_ne (hends hmax) fun heq => ?_)
        have hfour := hquanta (dvd_of_eq heq)
        rw [heq, Nat.div_self (hreq.toNat_pos.trans_le hreq.toNat_le_clock)] at hfour
        exact absurd hfour (by decide)
      have hlast : presc.toNat + 1 < 2 ^ 32 := by
        by_cases hmax : limits.prescalerMax.toNat = 2 ^ 32 - 1
        · exact (Nat.le_mul_of_pos_right _ hreq.toNat_pos).trans_lt
            ((hbelow hmax).trans_lt clockHz.toNat_lt)
        · have hlt := limits.prescalerMax.toNat_lt
          omega
      rw [hnext]
      simp only
      rw [if_pos hlast]
      have hsucc := toNat_add_one hlast
      refine ih (by omega) ?_ (by omega)
      rw [hsucc]
      exact hbelow
    · rw [hstop]
      rfl
    · rw [hfound]
      rfl

/-- A search goes wrong that comes to a timing with too long a first segment. -/
theorem searchChecked_eq_none_of_wide (hreq : Requestable clockHz bitrate samplePointPermille)
    {p : Nat} (hmax : p ≤ limits.prescalerMax.toNat)
    (hadmits : limits.Admits clockHz bitrate samplePointPermille p)
    (hwide : 2 ^ 32 ≤ 1000 * (1 + firstSegment clockHz bitrate samplePointPermille p))
    (h1 : 1 ≤ presc.toNat) (hp : presc.toNat ≤ p) :
    searchChecked clockHz bitrate samplePointPermille limits presc = none := by
  -- by induction on the rounds before `p`; those that find a timing find a longer first segment
  induction hn : p - presc.toNat generalizing presc with
  | zero =>
    have heq : presc.toNat = p := by omega
    subst heq
    obtain ⟨-, hfits⟩ | ⟨hnone, -⟩ :=
      tryChecked_cases clockHz limits (presc_ne_zero h1) hreq
    · exact absurd (hfits hadmits) (not_lt.mpr hwide)
    · exact searchChecked_of_none (UInt32.le_iff_toNat_le.mpr hmax) hnone
  | succ n ih =>
    have h0 := presc_ne_zero h1
    have hle : presc ≤ limits.prescalerMax := UInt32.le_iff_toNat_le.mpr (hp.trans hmax)
    obtain ⟨hexact, hfits⟩ | ⟨hnone, -⟩ := tryChecked_cases clockHz limits h0 hreq
    case inr => exact searchChecked_of_none hle hnone
    rw [searchChecked_of_exact hle hexact]
    obtain ⟨hnext, -⟩ | ⟨-, -, hfew⟩ | ⟨t, -, -, hfirst, -⟩ :=
      tryPrescaler_cases clockHz limits h0 hreq.bitrate_ne_zero hreq.le_toNat hreq.toNat_le
    · have hlt := limits.prescalerMax.toNat_lt
      have hlast : presc.toNat + 1 < 2 ^ 32 := by omega
      have hsucc := toNat_add_one hlast
      rw [hnext]
      simp only
      rw [if_pos hlast]
      exact ih (by omega) (by omega) (by omega)
    · have hquanta := hadmits.quanta.trans (quanta_le h1 hreq.toNat_pos hp)
      exact absurd hfew (not_lt.mpr hquanta)
    · have hlonger : firstSegment clockHz bitrate samplePointPermille p ≤
          firstSegment clockHz bitrate samplePointPermille presc.toNat :=
        tseg1_le h1 hreq.toNat_pos hp
      have hfits := hfits hfirst
      omega

/-- A round whose bit rate is not exact. -/
theorem round_of_inexact (hreq : Requestable clockHz bitrate samplePointPermille)
    (hd : ¬bitrate.toNat ∣ clockHz.toNat) (h0 : presc ≠ 0) :
    tryChecked clockHz bitrate samplePointPermille limits presc =
        some (tryPrescaler clockHz bitrate samplePointPermille limits presc) ∧
      tryPrescaler clockHz bitrate samplePointPermille limits presc = .next := by
  have hinexact : ¬presc.toNat * bitrate.toNat ∣ clockHz.toNat :=
    fun h => hd ((Nat.dvd_mul_left _ _).trans h)
  constructor
  · obtain ⟨hexact, -⟩ | ⟨-, hadmits, -⟩ := tryChecked_cases clockHz limits h0 hreq
    · exact hexact
    · exact absurd hadmits.divides hinexact
  · obtain ⟨hnext, -⟩ | ⟨-, hdvd, -⟩ | ⟨t, -, -, hadmits, -⟩ :=
      tryPrescaler_cases clockHz limits h0 hreq.bitrate_ne_zero hreq.le_toNat hreq.toNat_le
    · exact hnext
    · exact absurd hdvd hinexact
    · exact absurd hadmits.divides hinexact

/-- A search for a rate that does not divide the clock goes through every prescaler. Up to the
largest counter value, it goes wrong: the counter wraps around and the next divisor is zero. -/
theorem searchFrom_divisionByZero (hreq : Requestable clockHz bitrate samplePointPermille)
    (hmax : limits.prescalerMax.toNat = 2 ^ 32 - 1) (hd : ¬bitrate.toNat ∣ clockHz.toNat)
    (h1 : 1 ≤ presc.toNat) :
    searchChecked clockHz bitrate samplePointPermille limits presc = none ∧
      searchFrom clockHz bitrate samplePointPermille limits presc = .error .divisionByZero := by
  -- by induction on the counter values that are left
  induction hn : 2 ^ 32 - 1 - presc.toNat generalizing presc with
  | zero =>
    have hlt := presc.toNat_lt
    have hlast : ¬presc.toNat + 1 < 2 ^ 32 := by omega
    have hle : presc ≤ limits.prescalerMax := by
      rw [UInt32.le_iff_toNat_le]
      omega
    obtain ⟨hexact, hnext⟩ := round_of_inexact hreq hd (presc_ne_zero h1)
    rw [searchChecked_of_exact hle hexact, searchFrom_next hle hnext (add_one_eq_zero hlast), hnext]
    refine ⟨if_neg hlast, ?_⟩
    rw [searchFrom_of_le _ _ _ _ (by rw [UInt32.le_iff_toNat_le]; exact Nat.zero_le _)]
    simp [tryPrescaler]
  | succ n ih =>
    have hlast : presc.toNat + 1 < 2 ^ 32 := by omega
    have hsucc := toNat_add_one hlast
    have hle : presc ≤ limits.prescalerMax := by
      rw [UInt32.le_iff_toNat_le]
      omega
    obtain ⟨hexact, hnext⟩ := round_of_inexact hreq hd (presc_ne_zero h1)
    rw [searchChecked_of_exact hle hexact, searchFrom_next hle hnext rfl, hnext]
    simp only
    rw [if_pos hlast]
    exact ih (by omega) (by omega)

end Search

/-! ## The calculation -/

section Calculation

variable {clockHz bitrate : UInt32} {samplePointPermille : UInt16} {limits : CanTimingLimits}

/-- What a calculation returns whose search ends with `found`. -/
def outcome (out : CanTiming) (found : Option CanTiming) : Bool × Option CanTiming :=
  (found.isSome, found.or (some out))

theorem canCalcTimingChecked_of_requestable
    (hreq : Requestable clockHz bitrate samplePointPermille) (out : CanTiming) :
    canCalcTimingChecked clockHz bitrate samplePointPermille (some limits) (some out) =
      (searchChecked clockHz bitrate samplePointPermille limits 1).map (outcome out) := by
  simp only [canCalcTimingChecked]
  rw [if_neg (requestable_iff.mp hreq)]
  cases searchChecked clockHz bitrate samplePointPermille limits 1 with
  | none => rfl
  | some found => cases found <;> rfl

theorem canCalcTiming_of_requestable
    (hreq : Requestable clockHz bitrate samplePointPermille) (out : CanTiming) :
    canCalcTiming clockHz bitrate samplePointPermille (some limits) (some out) =
      (searchFrom clockHz bitrate samplePointPermille limits 1).map (outcome out) := by
  simp only [canCalcTiming]
  rw [if_neg (requestable_iff.mp hreq)]
  cases searchFrom clockHz bitrate samplePointPermille limits 1 with
  | error f => rfl
  | ok found => cases found <;> rfl

/-- A request that the entry check refuses. -/
theorem canCalcTiming_of_refused (hreq : ¬Requestable clockHz bitrate samplePointPermille)
    (out : CanTiming) :
    canCalcTimingChecked clockHz bitrate samplePointPermille (some limits) (some out) =
        some (false, some out) ∧
      canCalcTiming clockHz bitrate samplePointPermille (some limits) (some out) =
        .ok (false, some out) := by
  have hentry := not_not.mp (mt requestable_iff.mpr hreq)
  simp only [canCalcTimingChecked, canCalcTiming]
  rw [if_pos hentry, if_pos hentry]
  exact ⟨rfl, rfl⟩

/-- A calculation that computes exactly is the one of `CanTiming`. -/
theorem canCalcTiming_of_checked {limits : Option CanTimingLimits} {out : Option CanTiming}
    {r : Bool × Option CanTiming}
    (h : canCalcTimingChecked clockHz bitrate samplePointPermille limits out = some r) :
    canCalcTiming clockHz bitrate samplePointPermille limits out = .ok r := by
  cases limits with
  | none => cases h; rfl
  | some limits =>
    cases out with
    | none => cases h; rfl
    | some out =>
      by_cases hreq : Requestable clockHz bitrate samplePointPermille
      case neg =>
        rw [(canCalcTiming_of_refused hreq out).1] at h
        cases h
        exact (canCalcTiming_of_refused hreq out).2
      rw [canCalcTimingChecked_of_requestable hreq] at h
      rw [canCalcTiming_of_requestable hreq]
      obtain ⟨found, hsearch, rfl⟩ := Option.map_eq_some_iff.mp h
      rw [searchFrom_of_checked hreq (by decide) hsearch]
      rfl

/-- A search is carried out exactly within `Confined` alone. -/
theorem searchChecked_isSome_iff (hreq : Requestable clockHz bitrate samplePointPermille) :
    (searchChecked clockHz bitrate samplePointPermille limits 1).isSome ↔
      Confined clockHz bitrate samplePointPermille limits := by
  constructor
  · intro h
    constructor
    · intro hmax
      by_contra hd
      rw [(searchFrom_divisionByZero hreq hmax hd (by decide)).1] at h
      cases h
    · intro p h1 hp hadmits
      by_contra hwide
      have hnone : searchChecked clockHz bitrate samplePointPermille limits 1 = none :=
        searchChecked_eq_none_of_wide hreq hp hadmits (not_lt.mp hwide) (by decide) h1
      rw [hnone] at h
      cases h
  · intro hconf
    refine searchChecked_isSome hreq hconf (by decide) fun _ => ?_
    rw [UInt32.toNat_one, Nat.one_mul]
    exact hreq.toNat_le_clock

/-- **When the bit timing calculation is exact.** No divisor is zero and no 32-bit result wraps
around, and so the search ends, unless the request passes the entry check and the limits either let
the counter reach its last value while no prescaler gives the bit rate, or admit a prescaler for
which `1000 * (1 + tseg1)` does not fit. -/
theorem canCalcTimingChecked_iff (clockHz bitrate : UInt32) (samplePointPermille : UInt16)
    (limits : Option CanTimingLimits) (out : Option CanTiming) :
    (canCalcTimingChecked clockHz bitrate samplePointPermille limits out).isSome ↔
      ∀ l ∈ limits, out.isSome → Requestable clockHz bitrate samplePointPermille →
        Confined clockHz bitrate samplePointPermille l := by
  cases limits with
  | none => exact iff_of_true rfl fun l hl => absurd hl (Option.not_mem_none l)
  | some limits =>
    cases out with
    | none => exact iff_of_true rfl fun l _ hout => absurd hout (by decide)
    | some out =>
      by_cases hreq : Requestable clockHz bitrate samplePointPermille
      · rw [canCalcTimingChecked_of_requestable hreq, Option.isSome_map,
          searchChecked_isSome_iff hreq]
        constructor
        · rintro hconf l hl - -
          cases hl
          exact hconf
        · intro h
          exact h limits rfl rfl hreq
      · rw [(canCalcTiming_of_refused hreq out).1]
        exact iff_of_true rfl fun l _ _ h => absurd h hreq

/-- The largest limits confine neither a rate that does not divide the clock, which divides by
zero, nor one bit a second, whose sample point wraps around. -/
theorem not_exact_largest_limits :
    let limits : CanTimingLimits := ⟨0xFFFFFFFF, 0xFFFFFFFF, 0xFFFFFFFF, 0xFFFFFFFF⟩
    canCalcTimingChecked 80000000 3000000 800 (some limits) (some default) = none ∧
      canCalcTiming 80000000 3000000 800 (some limits) (some default) = .error .divisionByZero ∧
      canCalcTimingChecked 10000000 1 800 (some limits) (some default) = none := by
  intro limits
  have hreq : Requestable 80000000 3000000 800 := ⟨by decide, by decide, by decide, by decide⟩
  have hslow : Requestable 10000000 1 800 := ⟨by decide, by decide, by decide, by decide⟩
  have hmax : limits.prescalerMax.toNat = 2 ^ 32 - 1 := rfl
  have hadmits : limits.Admits 10000000 1 800 1 :=
    (admits_iff hslow.le_toNat hslow.toNat_le).mpr (by decide)
  obtain ⟨hnone, herror⟩ : searchChecked 80000000 3000000 800 limits 1 = none ∧
      searchFrom 80000000 3000000 800 limits 1 = .error .divisionByZero :=
    searchFrom_divisionByZero hreq hmax (by decide) (by decide)
  have hwrapped : searchChecked 10000000 1 800 limits 1 = none :=
    searchChecked_eq_none_of_wide hslow (by decide) hadmits (by decide) (by decide) le_rfl
  refine ⟨?_, ?_, ?_⟩
  · rw [canCalcTimingChecked_of_requestable hreq, hnone, Option.map_none]
  · rw [canCalcTiming_of_requestable hreq, herror]
    rfl
  · rw [canCalcTimingChecked_of_requestable hslow, hwrapped, Option.map_none]

end Calculation

end Rjs
