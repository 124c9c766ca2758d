import RobotJointStack.Board.CanTiming
import RobotJointStack.Protocol.Types

/-!
# Board.DelayCompensation

Starting the CAN controller (`rjs_can_init`), and the transmitter delay compensation it programs:
an offset of seven bits, which the port computes from the data phase without a check. The vendor
HAL answers each call with success or failure and tells the kernel clock; both are parameters.

* `delayFits_timed`: the offset is the product of prescaler and first segment.
* `offset_le_iff`: how large it gets, from the number of clock periods in a data bit.
* `delayFits_iff`: for which clocks and bit rates the offset fits its field.
-/

namespace Rjs

open BitTiming

/-- `rjs_can_config_t`. -/
structure CanConfig where
  nominalBitrate : UInt32
  dataBitrate : UInt32
deriving DecidableEq, Repr

/-- The fields of `FDCAN_InitTypeDef` that carry a bit timing. The others are constant. -/
structure FdcanInit where
  nominalPrescaler : UInt32
  nominalSyncJumpWidth : UInt32
  nominalTimeSeg1 : UInt32
  nominalTimeSeg2 : UInt32
  dataPrescaler : UInt32
  dataSyncJumpWidth : UInt32
  dataTimeSeg1 : UInt32
  dataTimeSeg2 : UInt32
deriving DecidableEq, Repr

/-- A call of `rjs_can_init` to the HAL. -/
inductive HalCall where
  | periphClkConfig
  | init (i : FdcanInit)
  | configGlobalFilter
  | configTxDelayCompensation (offset filter : UInt32)
  | enableTxDelayCompensation
  | activateNotification
  | start
deriving DecidableEq, Repr

/-- The HAL's answers: the kernel clock, and which calls succeed. -/
structure Hal where
  kernelClock : UInt32
  ok : HalCall → Bool

def nominalLimits : CanTimingLimits := ⟨512, 256, 128, 128⟩

def dataLimits : CanTimingLimits := ⟨32, 32, 16, 16⟩

/-- HAL calls in turn, up to the first that fails. -/
def callInTurn (ok : HalCall → Bool) : List HalCall → CanResult × List HalCall
  | [] => (.ok, [])
  | c :: calls =>
    if ok c then
      let (result, made) := callInTurn ok calls
      (result, c :: made)
    else (.errHw, [c])

/-- What `rjs_can_init` asks of the HAL once both timings are known. -/
def startCalls (nt dt : CanTiming) : List HalCall :=
  [.init
    { nominalPrescaler := nt.prescaler
      nominalSyncJumpWidth := nt.sjw
      nominalTimeSeg1 := nt.tseg1
      nominalTimeSeg2 := nt.tseg2
      dataPrescaler := dt.prescaler
      dataSyncJumpWidth := dt.sjw
      dataTimeSeg1 := dt.tseg1
      dataTimeSeg2 := dt.tseg2 },
    .configGlobalFilter,
    -- transmitter delay compensation is required for bit rate switching
    .configTxDelayCompensation (dt.prescaler * dt.tseg1) 0,
    .enableTxDelayCompensation,
    .activateNotification,
    .start]

/-- `rjs_can_init`: its result and the calls it made. -/
def canInit (hal : Hal) (cfg : Option CanConfig) (hasRxCb : Bool) :
    Except TimingFault (CanResult × List HalCall) :=
  match cfg, hasRxCb with
  | some cfg, true =>
    if hal.ok .periphClkConfig then
      match canCalcTiming hal.kernelClock cfg.nominalBitrate 800 (some nominalLimits)
          (some default) with
      | .ok (true, some nt) =>
        match canCalcTiming hal.kernelClock cfg.dataBitrate 800 (some dataLimits)
            (some default) with
        | .ok (true, some dt) =>
          let (result, made) := callInTurn hal.ok (startCalls nt dt)
          .ok (result, .periphClkConfig :: made)
        | .ok _ => .ok (.errParam, [.periphClkConfig])
        | .error f => .error f
      | .ok _ => .ok (.errParam, [.periphClkConfig])
      | .error f => .error f
    else .ok (.errHw, [.periphClkConfig])
  | _, _ => .ok (.errParam, [])

/-- Whatever the HAL answers, the offset handed to it fits seven bits. -/
def DelayFits (kernelClock : UInt32) (cfg : CanConfig) : Prop :=
  ∀ ok result made offset filter, canInit ⟨kernelClock, ok⟩ (some cfg) true = .ok (result, made) →
    .configTxDelayCompensation offset filter ∈ made → offset ≤ 0x7F

/-- Both bit timings of a configuration can be had from the kernel clock. -/
structure Timed (kernelClock : UInt32) (cfg : CanConfig) (nt dt : CanTiming) : Prop where
  nominal : canCalcTiming kernelClock cfg.nominalBitrate 800 (some nominalLimits) (some default) =
    .ok (true, some nt)
  data : canCalcTiming kernelClock cfg.dataBitrate 800 (some dataLimits) (some default) =
    .ok (true, some dt)

section Calls

variable {kernelClock : UInt32} {cfg : CanConfig} {nt dt : CanTiming}

theorem mem_callInTurn {ok : HalCall → Bool} {calls : List HalCall} {c : HalCall}
    (h : c ∈ (callInTurn ok calls).2) : c ∈ calls := by
  induction calls with
  | nil => exact h
  | cons c' calls ih =>
    rw [callInTurn] at h
    split at h
    · cases List.mem_cons.mp h with
      | inl h => exact List.mem_cons.mpr (.inl h)
      | inr h => exact List.mem_cons_of_mem c' (ih h)
    · exact List.mem_cons.mpr (.inl (List.mem_singleton.mp h))

/-- A HAL that never fails is asked for everything. -/
theorem callInTurn_ok (calls : List HalCall) : callInTurn (fun _ => true) calls = (.ok, calls) := by
  induction calls with
  | nil => rfl
  | cons c calls ih => rw [callInTurn, ih]; rfl

theorem canInit_timed (h : Timed kernelClock cfg nt dt) (ok : HalCall → Bool) :
    canInit ⟨kernelClock, ok⟩ (some cfg) true =
      if ok .periphClkConfig then
        .ok ((callInTurn ok (startCalls nt dt)).1,
          .periphClkConfig :: (callInTurn ok (startCalls nt dt)).2)
      else .ok (.errHw, [.periphClkConfig]) := by
  simp only [canInit, h.nominal, h.data]

/-- The offset is the product of prescaler and first segment, on every path that programs it. -/
theorem delayFits_timed (h : Timed kernelClock cfg nt dt) :
    DelayFits kernelClock cfg ↔ dt.prescaler * dt.tseg1 ≤ 0x7F := by
  constructor
  · intro hfits
    refine hfits (fun _ => true) _ _ _ 0 (canInit_timed h _) ?_
    rw [callInTurn_ok]
    simp [startCalls]
  · intro hle ok result made offset filter hinit hmem
    rw [canInit_timed h] at hinit
    split at hinit
    · cases hinit
      cases List.mem_cons.mp hmem with
      | inl heq => cases heq
      | inr hmem =>
        have hcall := mem_callInTurn hmem
        simp only [startCalls, List.mem_cons, HalCall.configTxDelayCompensation.injEq, reduceCtorEq,
          List.not_mem_nil, or_false, false_or] at hcall
        rw [hcall.1]
        exact hle
    · cases hinit
      cases List.mem_singleton.mp hmem

end Calls

/-! ## The size of the offset -/

/-- A prescaler that suits the data phase, for `quanta` clock periods to a bit. -/
def SuitsData (quanta p : Nat) : Prop :=
  p ∣ quanta ∧ 4 ≤ quanta / p ∧ quanta / p - 1 - Split.tseg2For (quanta / p) 800 ≤ 32 ∧
    Split.tseg2For (quanta / p) 800 ≤ 16

instance (quanta p : Nat) : Decidable (SuitsData quanta p) :=
  inferInstanceAs (Decidable (_ ∧ _))

/-- The condition on the clock periods of a data bit. -/
def ShortBit (quanta : Nat) : Prop := quanta ≤ 171 ∧ quanta ≠ 164 ∧ quanta ≠ 170

instance (quanta : Nat) : Decidable (ShortBit quanta) := inferInstanceAs (Decidable (_ ∧ _))

/-- No prescaler below `p` suits. -/
def NoneBelow (quanta p : Nat) : Prop := ∀ q < p, 1 ≤ q → ¬SuitsData quanta q

instance (quanta p : Nat) : Decidable (NoneBelow quanta p) :=
  inferInstanceAs (Decidable (∀ q < p, 1 ≤ q → ¬SuitsData quanta q))

/-- The offset of every bit of `n` quanta with prescaler `p`, unless a smaller prescaler suits. -/
theorem offset_table : ∀ p < 33, ∀ n < 42, 1 ≤ p ∧ 4 ≤ n →
    (p * (n - 1 - Split.tseg2For n 800) ≤ 127 ↔ ShortBit (p * n)) ∨ ¬NoneBelow (p * n) p := by
  decide +kernel

section Offset

variable {kernelClock : UInt32} {cfg : CanConfig} {dt : CanTiming}

/-- Only the ratio of clock and bit rate matters. -/
theorem admits_dataLimits_iff {bitrate : UInt32} (hb : 0 < bitrate.toNat) {quanta : Nat}
    (hq : kernelClock.toNat = quanta * bitrate.toNat) (p : Nat) :
    dataLimits.Admits kernelClock bitrate 800 p ↔ SuitsData quanta p := by
  have hdiv : kernelClock.toNat / (p * bitrate.toNat) = quanta / p := by
    rw [hq, Nat.mul_div_mul_right _ _ hb]
  have hdvd : p * bitrate.toNat ∣ kernelClock.toNat ↔ p ∣ quanta := by
    rw [hq, Nat.mul_dvd_mul_iff_right hb]
  have hadmits : dataLimits.Admits kernelClock bitrate 800 p ↔ _ :=
    admits_iff (by decide) (by decide)
  rw [hadmits, hdiv, hdvd]
  exact Iff.rfl

theorem toNat_offset {p t : UInt32} (hp : p.toNat ≤ 32) (ht : t.toNat ≤ 32) :
    (p * t).toNat = p.toNat * t.toNat := by
  have hle : p.toNat * t.toNat ≤ 32 * 32 := Nat.mul_le_mul hp ht
  rw [UInt32.toNat_mul]
  exact Nat.mod_eq_of_lt (Nat.lt_of_le_of_lt hle (by decide))

/-- How large the offset gets depends on the clock periods in a data bit only. -/
theorem offset_le_iff {bitrate : UInt32} (hb : 0 < bitrate.toNat)
    (h : Best kernelClock bitrate 800 dataLimits dt) :
    dt.prescaler * dt.tseg1 ≤ 0x7F ↔ ShortBit (kernelClock.toNat / bitrate.toNat) := by
  have hp1 := h.positive
  have hp32 : dt.prescaler.toNat ≤ 32 := UInt32.le_iff_toNat_le.mp h.inRange
  -- the bit rate divides the clock, so a bit is a whole number of clock periods
  obtain ⟨quanta, hq⟩ : bitrate.toNat ∣ kernelClock.toNat :=
    (Nat.dvd_mul_left _ _).trans h.admissible.divides
  rw [Nat.mul_comm] at hq
  have hquanta : kernelClock.toNat / bitrate.toNat = quanta := by
    rw [hq, Nat.mul_div_cancel _ hb]
  obtain ⟨hdvd, hn4, hseg1, -⟩ := (admits_dataLimits_iff hb hq dt.prescaler.toNat).mp h.admissible
  obtain ⟨n, rfl⟩ := hdvd
  have hn : dt.prescaler.toNat * n / dt.prescaler.toNat = n := Nat.mul_div_cancel_left n hp1
  rw [hn] at hn4 hseg1
  have hnone : NoneBelow (dt.prescaler.toNat * n) dt.prescaler.toNat := by
    intro q hlt hq1 hsuits
    exact h.smallest q hq1 hlt ((admits_dataLimits_iff hb hq q).mpr hsuits)
  have hn41 : n < 42 := by
    rw [Split.tseg2For] at hseg1
    omega
  have htotal : kernelClock.toNat / (dt.prescaler.toNat * bitrate.toNat) = n := by
    rw [hq, Nat.mul_div_mul_right _ _ hb, hn]
  have htseg1 : dt.tseg1.toNat = n - 1 - Split.tseg2For n 800 :=
    (h.toRealizes.toNat_tseg htotal hn4 (by decide) (by decide)).1
  have hprod := toNat_offset hp32 (htseg1 ▸ hseg1)
  have htable := (offset_table _ (Nat.lt_succ_of_le hp32) n hn41 ⟨hp1, hn4⟩).resolve_right
    (not_not.mpr hnone)
  rw [UInt32.le_iff_toNat_le, hprod, htseg1, hquanta]
  exact htable

/-- **The delay compensation offset fits its seven bits** exactly where a data bit takes at most
171 periods of the kernel clock, and not 164 or 170. -/
theorem delayFits_iff {nt : CanTiming} (h : Timed kernelClock cfg nt dt) :
    DelayFits kernelClock cfg ↔ ShortBit (kernelClock.toNat / cfg.dataBitrate.toNat) := by
  obtain ⟨hreq, hbest⟩ := best_of_canCalcTiming (by decide) (by decide) h.data
  rw [delayFits_timed h]
  exact offset_le_iff (UInt32.lt_iff_toNat_lt.mp hreq.bitrate_pos) hbest

/-- The data phase of the shipped configuration: 2 Mbit/s from 200 MHz. -/
theorem delayFits_iff_shipped : DelayFits 200000000 ⟨1000000, 2000000⟩ := by
  have hnominal : searchFrom 200000000 1000000 800 nominalLimits 1 =
      .ok (some ⟨1, 159, 40, 40, 800⟩) := searchFrom_found (by decide) (by decide)
  have hdata : searchFrom 200000000 2000000 800 dataLimits 1 = .ok (some ⟨4, 19, 5, 5, 800⟩) := by
    rw [searchFrom_next (by decide) (by decide) (show (1 : UInt32) + 1 = 2 from rfl),
      searchFrom_next (by decide) (by decide) (show (2 : UInt32) + 1 = 3 from rfl),
      searchFrom_next (by decide) (by decide) (show (3 : UInt32) + 1 = 4 from rfl)]
    exact searchFrom_found (by decide) (by decide)
  have htimed : Timed 200000000 ⟨1000000, 2000000⟩ ⟨1, 159, 40, 40, 800⟩ ⟨4, 19, 5, 5, 800⟩ :=
    ⟨canCalcTiming_of_found _ (by decide) hnominal, canCalcTiming_of_found _ (by decide) hdata⟩
  exact (delayFits_iff htimed).mpr (by decide)

/-- Without a faster data phase, 1 Mbit/s from 200 MHz, the offset is 155. -/
theorem not_delayFits_equal_rates :
    Timed 200000000 ⟨1000000, 1000000⟩ ⟨1, 159, 40, 40, 800⟩ ⟨5, 31, 8, 8, 800⟩ ∧
      ¬DelayFits 200000000 ⟨1000000, 1000000⟩ := by
  have hnominal : searchFrom 200000000 1000000 800 nominalLimits 1 =
      .ok (some ⟨1, 159, 40, 40, 800⟩) := searchFrom_found (by decide) (by decide)
  have hdata : searchFrom 200000000 1000000 800 dataLimits 1 = .ok (some ⟨5, 31, 8, 8, 800⟩) := by
    rw [searchFrom_next (by decide) (by decide) (show (1 : UInt32) + 1 = 2 from rfl),
      searchFrom_next (by decide) (by decide) (show (2 : UInt32) + 1 = 3 from rfl),
      searchFrom_next (by decide) (by decide) (show (3 : UInt32) + 1 = 4 from rfl),
      searchFrom_next (by decide) (by decide) (show (4 : UInt32) + 1 = 5 from rfl)]
    exact searchFrom_found (by decide) (by decide)
  have htimed : Timed 200000000 ⟨1000000, 1000000⟩ ⟨1, 159, 40, 40, 800⟩ ⟨5, 31, 8, 8, 800⟩ :=
    ⟨canCalcTiming_of_found _ (by decide) hnominal, canCalcTiming_of_found _ (by decide) hdata⟩
  refine ⟨htimed, ?_⟩
  rw [delayFits_timed htimed]
  decide

end Offset

end Rjs
