import Mathlib.Algebra.Order.Round
import Mathlib.Data.Rat.Floor
import Mathlib.Tactic.FieldSimp
import Mathlib.Tactic.Linarith

/-!
# Lib.BitTiming

A CAN bit is cut into time quanta: one to synchronize and two segments, with the sample point
between the segments.

* `Split`: the ways to cut a bit. `Split.Nearest`: the one whose sample point is nearest to a
  request; of two that are equally near, the one with the larger second segment.
* `Split.nearest_of_round`: rounding the second segment finds it.
* `Admissible`: the prescalers that divide a clock down to a bit rate exactly and leave a nearest
  split within a controller's segment limits.
-/

namespace BitTiming

/-- A bit of `total` quanta. -/
structure Split (total : Nat) where
  tseg1 : Nat
  tseg2 : Nat
  tseg1_pos : 1 ≤ tseg1
  tseg2_pos : 1 ≤ tseg2
  sum : 1 + tseg1 + tseg2 = total

/-- Of the positive integers, rounding finds the nearest, and of two equally near ones the larger. -/
theorem abs_sub_max_round (w : ℚ) {z : ℤ} (hz : 1 ≤ z) :
    |w - (max 1 (round w) : ℤ)| ≤ |w - z| ∧
      (|w - z| = |w - (max 1 (round w) : ℤ)| → z ≤ max 1 (round w)) := by
  obtain ⟨-, hlt⟩ := round_eq_iff.mp (rfl : round w = round w)
  have hz' : (1 : ℚ) ≤ z := by exact_mod_cast hz
  by_cases h : 1 ≤ round w
  · rw [max_eq_right h]
    refine ⟨round_le w z, fun htie => ?_⟩
    by_contra hgt
    have hnext : (round w : ℚ) + 1 ≤ z := by exact_mod_cast not_le.mp hgt
    have hfar : 1 / 2 < |w - z| := by
      rw [abs_sub_comm]
      exact lt_of_lt_of_le (by linarith) (le_abs_self _)
    have hnear : |w - round w| ≤ 1 / 2 := abs_sub_round w
    rw [htie] at hfar
    exact absurd hfar hnear.not_gt
  · -- one is the positive integer next to `w`
    have h0 : (round w : ℚ) ≤ 0 := by exact_mod_cast Int.lt_add_one_iff.mp (not_le.mp h)
    rw [max_eq_left (not_le.mp h).le, Int.cast_one, abs_of_nonpos (by linarith),
      abs_of_nonpos (by linarith)]
    refine ⟨by linarith, fun htie => ?_⟩
    have hone : (z : ℚ) ≤ 1 := by linarith
    exact_mod_cast hone

namespace Split

variable {total : Nat}

def samplePoint (x : Split total) : ℚ := (1 + x.tseg1) / total

def distance (request : ℚ) (x : Split total) : ℚ := |x.samplePoint - request|

def Nearest (request : ℚ) (x : Split total) : Prop :=
  ∀ y : Split total, x.distance request ≤ y.distance request ∧
    (y.distance request = x.distance request → y.tseg2 ≤ x.tseg2)

theorem eq_of_tseg2 {x y : Split total} (h : x.tseg2 = y.tseg2) : x = y := by
  have hx := x.sum
  have hy := y.sum
  cases x
  cases y
  simp only at h hx hy
  simp only [Split.mk.injEq]
  omega

theorem Nearest.unique {request : ℚ} {x y : Split total} (hx : x.Nearest request)
    (hy : y.Nearest request) : x = y := by
  have hd : y.distance request = x.distance request := le_antisymm (hy x).1 (hx y).1
  exact eq_of_tseg2 (Nat.le_antisymm ((hy x).2 hd.symm) ((hx y).2 hd))

/-- The second segment a request asks for, as a fraction of a quantum. -/
def wanted (total : Nat) (request : ℚ) : ℚ := total * (1 - request)

/-- Distances, in quanta of the second segment. -/
theorem distance_eq (request : ℚ) (x : Split total) :
    x.distance request = |wanted total request - x.tseg2| / total := by
  have hsum := x.sum
  have hpos : (0 : ℚ) < total := by
    have : 0 < total := by omega
    exact_mod_cast this
  have hcast : (total : ℚ) = 1 + x.tseg1 + x.tseg2 := by exact_mod_cast hsum.symm
  have hdiff : x.samplePoint - request = (wanted total request - x.tseg2) / total := by
    rw [samplePoint, wanted, eq_div_iff hpos.ne', sub_mul, div_mul_cancel₀ _ hpos.ne', hcast]
    ring
  rw [distance, hdiff, abs_div, abs_of_pos hpos]

/-- Rounding the wanted segment, but to no less than one quantum, gives the nearest split. -/
theorem nearest_of_round {request : ℚ} {x : Split total}
    (h : (x.tseg2 : ℤ) = max 1 (round (wanted total request))) : x.Nearest request := by
  intro y
  have hpos : (0 : ℚ) < total := by
    have hsum := x.sum
    have : 0 < total := by omega
    exact_mod_cast this
  have hz : (1 : ℤ) ≤ y.tseg2 := by exact_mod_cast y.tseg2_pos
  obtain ⟨hle, htie⟩ := abs_sub_max_round (wanted total request) hz
  rw [← h] at hle htie
  rw [distance_eq, distance_eq]
  refine ⟨div_le_div_of_nonneg_right hle hpos.le, fun heq => ?_⟩
  exact_mod_cast htie ((div_left_inj' hpos.ne').mp heq)

/-- The same for a request in thousandths, in integer arithmetic. -/
theorem round_wanted_permille (total : Nat) {permille : Nat} (h : permille ≤ 1000) :
    round (wanted total (permille / 1000)) =
      ((total * (1000 - permille) + 500) / 1000 : Nat) := by
  have hwanted : wanted total (permille / 1000) = (total * (1000 - permille) : Nat) / 1000 := by
    rw [wanted, Nat.cast_mul, Nat.cast_sub h]
    push_cast
    ring
  have hlo : 1000 * ((total * (1000 - permille) + 500) / 1000) ≤ total * (1000 - permille) + 500 :=
    Nat.mul_div_le _ _
  have hhi : total * (1000 - permille) + 500 <
      1000 * ((total * (1000 - permille) + 500) / 1000 + 1) := Nat.lt_mul_div_succ _ (by omega)
  rw [hwanted, round_eq_iff]
  generalize (total * (1000 - permille) + 500) / 1000 = k at hlo hhi
  generalize total * (1000 - permille) = a at hlo hhi
  have hlo' : (1000 : ℚ) * k ≤ a + 500 := by exact_mod_cast hlo
  have hhi' : (a : ℚ) + 500 < 1000 * (k + 1) := by exact_mod_cast hhi
  constructor
  · push_cast
    linarith
  · push_cast
    linarith

/-- The second segment for a request in thousandths. -/
def tseg2For (total permille : Nat) : Nat := max 1 ((total * (1000 - permille) + 500) / 1000)

theorem one_le_tseg2For (total permille : Nat) : 1 ≤ tseg2For total permille := le_max_left _ _

/-- Four quanta, and a sample point not before the middle, leave a quantum for each segment. -/
theorem tseg2For_add_two_le {total permille : Nat} (ht : 4 ≤ total) (hp : 500 ≤ permille) :
    tseg2For total permille + 2 ≤ total := by
  have hmul : total * (1000 - permille) ≤ total * 500 := Nat.mul_le_mul_left total (by omega)
  rw [tseg2For]
  omega

/-- A quantum more in a bit makes the second segment longer by at most one. -/
theorem tseg2For_le_add {total total' : Nat} (permille : Nat) (h : total ≤ total') :
    tseg2For total' permille ≤ tseg2For total permille + (total' - total) := by
  obtain ⟨extra, rfl⟩ := Nat.exists_eq_add_of_le h
  have hextra : extra * (1000 - permille) ≤ extra * 1000 := Nat.mul_le_mul_left extra (by omega)
  rw [tseg2For, tseg2For, Nat.add_mul]
  omega

/-- The split of a request in thousandths. -/
def forPermille {total permille : Nat} (ht : 4 ≤ total) (hp : 500 ≤ permille) : Split total where
  tseg1 := total - 1 - tseg2For total permille
  tseg2 := tseg2For total permille
  tseg1_pos := by have := tseg2For_add_two_le ht hp; omega
  tseg2_pos := one_le_tseg2For total permille
  sum := by have := tseg2For_add_two_le ht hp; omega

theorem nearest_forPermille {total permille : Nat} (ht : 4 ≤ total) (hp : 500 ≤ permille)
    (hp' : permille ≤ 1000) : (forPermille ht hp).Nearest (permille / 1000) := by
  refine nearest_of_round ?_
  rw [round_wanted_permille total hp']
  simp [forPermille, tseg2For]

end Split

/-! ## Prescalers -/

/-- A prescaler that divides `clock` down to `bitrate` exactly, with at least four quanta to a bit
whose nearest split fits the segment limits. -/
structure Admissible (clock bitrate : Nat) (request : ℚ) (tseg1Max tseg2Max prescaler : Nat) :
    Prop where
  divides : prescaler * bitrate ∣ clock
  quanta : 4 ≤ clock / (prescaler * bitrate)
  split : ∃ x : Split (clock / (prescaler * bitrate)),
    x.Nearest request ∧ x.tseg1 ≤ tseg1Max ∧ x.tseg2 ≤ tseg2Max

section Admissible

variable {clock bitrate permille tseg1Max tseg2Max p q : Nat}

/-- Larger prescalers leave fewer quanta. -/
theorem quanta_le (hp : 0 < p) (hb : 0 < bitrate) (h : p ≤ q) :
    clock / (q * bitrate) ≤ clock / (p * bitrate) :=
  Nat.div_le_div_left (Nat.mul_le_mul_right bitrate h) (Nat.mul_pos hp hb)

/-- Larger prescalers leave a shorter first segment. -/
theorem tseg1_le (hp : 0 < p) (hb : 0 < bitrate) (h : p ≤ q) :
    clock / (q * bitrate) - 1 - Split.tseg2For (clock / (q * bitrate)) permille ≤
      clock / (p * bitrate) - 1 - Split.tseg2For (clock / (p * bitrate)) permille := by
  have hquanta : clock / (q * bitrate) ≤ clock / (p * bitrate) := quanta_le hp hb h
  have hlonger := Split.tseg2For_le_add permille hquanta
  omega

/-- In integer arithmetic. -/
theorem admissible_iff (hp : 500 ≤ permille) (hp' : permille ≤ 1000) :
    Admissible clock bitrate (permille / 1000) tseg1Max tseg2Max p ↔
      p * bitrate ∣ clock ∧ 4 ≤ clock / (p * bitrate) ∧
        clock / (p * bitrate) - 1 - Split.tseg2For (clock / (p * bitrate)) permille ≤ tseg1Max ∧
        Split.tseg2For (clock / (p * bitrate)) permille ≤ tseg2Max := by
  constructor
  · rintro ⟨hdiv, hquanta, x, hx, h1, h2⟩
    obtain rfl := hx.unique (Split.nearest_forPermille hquanta hp hp')
    exact ⟨hdiv, hquanta, h1, h2⟩
  · rintro ⟨hdiv, hquanta, h1, h2⟩
    exact ⟨hdiv, hquanta, _, Split.nearest_forPermille hquanta hp hp', h1, h2⟩

end Admissible

end BitTiming
