import Mathlib.Data.List.FinRange
import Mathlib.Data.Nat.BitIndices

/-!
# Lib.BitScan

Walking through the set bits of a 32-bit word from the lowest up, by taking the lowest one off the
word until nothing is left: `bitIndices_eq_cons` is one step of the walk, and the whole walk lists
`Nat.bitIndices`.
-/

namespace BitScan

/-- The number of zeros below the lowest set bit, as `__builtin_ctz` counts them. -/
def ctz (x : UInt32) : Nat := x.toBitVec.ctz.toNat

/-- The number of set bits, as `__builtin_popcount` counts them. -/
def popcount (x : UInt32) : Nat := x.toNat.bitIndices.length

theorem land_pred_odd (m : Nat) : (2 * m + 1) &&& (2 * m) = 2 * m := by
  apply Nat.eq_of_testBit_eq
  intro i
  cases i with
  | zero => simp
  | succ i =>
    rw [Nat.testBit_and, Nat.testBit_succ, Nat.testBit_succ, show (2 * m + 1) / 2 = m by omega,
      show 2 * m / 2 = m by omega, Bool.and_self]

theorem land_pred_even {m : Nat} (hm : m ≠ 0) :
    (2 * m) &&& (2 * m - 1) = 2 * (m &&& (m - 1)) := by
  have hpred : 2 * m - 1 = 2 * (m - 1) + 1 := by omega
  rw [hpred]
  apply Nat.eq_of_testBit_eq
  intro i
  cases i with
  | zero => simp
  | succ i =>
    rw [Nat.testBit_and, Nat.testBit_succ, Nat.testBit_succ, Nat.testBit_succ,
      show 2 * m / 2 = m by omega, show (2 * (m - 1) + 1) / 2 = m - 1 by omega,
      show 2 * (m &&& (m - 1)) / 2 = m &&& (m - 1) by omega, Nat.testBit_and]

/-- Taking the lowest bit off a number takes the head off its list of bits. -/
theorem exists_bitIndices_eq_cons {n : Nat} (hn : n ≠ 0) :
    ∃ k, n.bitIndices = k :: (n &&& (n - 1)).bitIndices := by
  induction n using Nat.strongRecOn with
  | ind n ih =>
    obtain ⟨m, rfl | rfl⟩ : ∃ m, n = 2 * m ∨ n = 2 * m + 1 := ⟨n / 2, by omega⟩
    · have hm : m ≠ 0 := by omega
      obtain ⟨k, hk⟩ := ih m (by omega) hm
      refine ⟨k + 1, ?_⟩
      rw [land_pred_even hm, Nat.bitIndices_two_mul, Nat.bitIndices_two_mul, hk, List.map_cons]
    · refine ⟨0, ?_⟩
      rw [Nat.add_sub_cancel, land_pred_odd, Nat.bitIndices_two_mul_add_one,
        Nat.bitIndices_two_mul]

/-- The lowest bit of a sorted list of bits is the one that `ctz` finds. -/
theorem eq_ctz {x : UInt32} (hx : x ≠ 0) {k : Nat} {l : List Nat}
    (h : x.toNat.bitIndices = k :: l) : k = ctz x := by
  have hx' : x.toBitVec ≠ 0#32 := fun h0 => hx (UInt32.toBitVec_inj.mp h0)
  have hk : x.toNat.testBit k := Nat.mem_bitIndices.mp (by rw [h]; exact List.mem_cons_self)
  have hctz : ctz x ∈ x.toNat.bitIndices :=
    Nat.mem_bitIndices.mpr (BitVec.getLsbD_true_ctz_of_ne_zero hx')
  apply Nat.le_antisymm
  · rw [h] at hctz
    cases List.mem_cons.mp hctz with
    | inl he => exact he.ge
    | inr hl =>
      have hsorted := Nat.bitIndices_sorted (n := x.toNat).pairwise
      rw [h] at hsorted
      exact (List.rel_of_pairwise_cons hsorted hl).le
  · by_contra hlt
    have hfalse := BitVec.getLsbD_false_of_lt_ctz (x := x.toBitVec) (not_le.mp hlt)
    exact absurd (hfalse.symm.trans hk) Bool.false_ne_true

theorem bitIndices_eq_cons {x : UInt32} (hx : x ≠ 0) :
    x.toNat.bitIndices = ctz x :: (x &&& (x - 1)).toNat.bitIndices := by
  have hn : x.toNat ≠ 0 := fun h0 => hx (UInt32.toNat_inj.mp h0)
  obtain ⟨k, hk⟩ := exists_bitIndices_eq_cons hn
  have hpred : (x - 1).toNat = x.toNat - 1 :=
    UInt32.toNat_sub_of_le x 1 (UInt32.le_iff_toNat_le.mpr (Nat.pos_of_ne_zero hn))
  rw [UInt32.toNat_and, hpred, ← eq_ctz hx hk, hk]

/-- The walk ends: a word without its lowest bit is smaller. -/
theorem land_pred_lt {x : UInt32} (hx : x ≠ 0) : (x &&& (x - 1)).toNat < x.toNat := by
  have hn : x.toNat ≠ 0 := fun h0 => hx (UInt32.toNat_inj.mp h0)
  have hpred : (x - 1).toNat = x.toNat - 1 :=
    UInt32.toNat_sub_of_le x 1 (UInt32.le_iff_toNat_le.mpr (Nat.pos_of_ne_zero hn))
  have hle := Nat.and_le_right (n := x.toNat) (m := x.toNat - 1)
  rw [UInt32.toNat_and, hpred]
  omega

/-- The bits of a number of `k` bits, by asking for each of them. -/
theorem bitIndices_eq_filter {n k : Nat} (h : ∀ i, n.testBit i → i < k) :
    n.bitIndices = ((List.finRange k).filter fun i : Fin k => n.testBit i).map Fin.val := by
  have hrange : ((List.finRange k).filter fun i : Fin k => n.testBit i).map Fin.val =
      (List.range k).filter fun i => n.testBit i := by
    rw [← List.map_coe_finRange_eq_range, List.filter_map]; rfl
  rw [hrange]
  have hsorted : ((List.range k).filter fun i => n.testBit i).Pairwise (· < ·) :=
    List.pairwise_lt_range.filter _
  refine List.Perm.eq_of_pairwise ?_ Nat.bitIndices_sorted.pairwise hsorted ?_
  · intro a b _ _ hab hba
    omega
  · rw [List.perm_ext_iff_of_nodup Nat.bitIndices_nodup (hsorted.imp Nat.ne_of_lt)]
    intro i
    rw [Nat.mem_bitIndices, List.mem_filter, List.mem_range]
    exact ⟨fun hi => ⟨h i hi, hi⟩, fun hi => hi.2⟩

end BitScan
