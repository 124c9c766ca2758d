import Mathlib.Algebra.Order.Round
import Mathlib.Data.Rat.Floor
import RobotJointStack.Ui.Ink

/-!
# Ui.Bar

The reference rendering of a bar, and when `rjs_ts_bar` is it. The columns of a bar are counted in
8 bits and clipped afterwards, so a bar that reaches column 256 goes on at the left edge.

* `barLength_eq`: the filled length is the exact share of the width, rounded half up.
* `barInk_eq`: the ink of a bar, what lies to the right of `col` and what comes round.
* `bars_iff`: the bar is its reference rendering unless it comes round to a place it changes.
-/

namespace Rjs

namespace TextScreen

/-- The filled length of a bar: its share of the width, rounded half up. -/
def barLength (width : UInt8) (permille : UInt16) : ℤ :=
  round ((width.toNat * min permille.toNat 1000 : ℚ) / 1000)

/-- The character of a bar's cell number `i`. -/
def barChar (width : UInt8) (permille : UInt16) (i : Nat) : UInt8 :=
  if (i : ℤ) < barLength width permille then 0x23 else 0x2E

/-- What a place shows after a bar is drawn from `(row, col)` to the right. -/
def barred (s : TextScreen) (row col width : UInt8) (permille : UInt16) (p : Pos) : Cell :=
  if p.1.val = row.toNat ∧ col.toNat ≤ p.2.val ∧ p.2.val < col.toNat + width.toNat then
    ⟨barChar width permille (p.2.val - col.toNat), s.curFg, s.curBg⟩
  else s.cell p

/-- `s'` is `s` with a bar drawn on it. -/
structure Bars (row col width : UInt8) (permille : UInt16) (s s' : TextScreen) : Prop where
  cell : ∀ p, s'.cell p = barred s row col width permille p
  curFg : s'.curFg = s.curFg
  curBg : s'.curBg = s.curBg

/-! ## The filled length -/

theorem toNat_barFilled (width : UInt8) (permille : UInt16) :
    (barFilled width permille).toNat = (width.toNat * min permille.toNat 1000 + 500) / 1000 := by
  have hclamp : (if permille > 1000 then (1000 : UInt16) else permille).toNat =
      min permille.toNat 1000 := by
    split
    · rename_i h
      exact (Nat.min_eq_right (Nat.le_of_lt (UInt16.lt_iff_toNat_lt.mp h))).symm
    · rename_i h
      exact (Nat.min_eq_left (UInt16.le_iff_toNat_le.mp (UInt16.not_lt.mp h))).symm
  have hwidth := width.toNat_lt
  have hprod : width.toNat * min permille.toNat 1000 ≤ 255 * 1000 :=
    Nat.mul_le_mul (by omega) (Nat.min_le_right _ _)
  have hmul : (width.toUInt32 * (if permille > 1000 then (1000 : UInt16) else permille).toUInt32
      + 500).toNat = width.toNat * min permille.toNat 1000 + 500 := by
    rw [UInt32.toNat_add, UInt32.toNat_mul, UInt8.toNat_toUInt32, UInt16.toNat_toUInt32, hclamp,
      Nat.mod_eq_of_lt (a := width.toNat * _) (by omega)]
    exact Nat.mod_eq_of_lt (by simp; omega)
  rw [barFilled, UInt32.toNat_toUInt16, UInt32.toNat_div, hmul]
  exact Nat.mod_eq_of_lt (by simp; omega)

theorem barLength_eq (width : UInt8) (permille : UInt16) :
    barLength width permille = (barFilled width permille).toNat := by
  have hhalf : (width.toNat * min permille.toNat 1000 : ℚ) / 1000 + 1 / 2 =
      ((width.toNat * min permille.toNat 1000 + 500 : ℕ) : ℚ) / (1000 : ℕ) := by
    push_cast
    ring
  rw [barLength, round_eq, hhalf, Rat.floor_natCast_div_natCast, toNat_barFilled]
  rfl

/-! ## The ink of a bar -/

theorem barCell_of_le {col : UInt8} {c : Nat} (hc : c < tsCols) (h : col.toNat ≤ c) :
    barCell col c = c - col.toNat := by
  have hc' : c < 30 := hc
  rw [barCell, UInt8.toNat_sub, UInt8.toNat_ofNat_of_lt' (Nat.lt_trans hc' (by decide))]
  omega

theorem barCell_of_lt {col : UInt8} {c : Nat} (hc : c < tsCols) (h : c < col.toNat) :
    barCell col c = c + 256 - col.toNat := by
  have hc' : c < 30 := hc
  have hcol := col.toNat_lt
  rw [barCell, UInt8.toNat_sub, UInt8.toNat_ofNat_of_lt' (Nat.lt_trans hc' (by decide))]
  omega

theorem barInk_eq (row col width : UInt8) (permille : UInt16) (p : Pos) :
    barInk row col width permille p =
      if p.1.val = row.toNat then
        if col.toNat ≤ p.2.val then
          if p.2.val < col.toNat + width.toNat then
            some (barChar width permille (p.2.val - col.toNat))
          else none
        else if p.2.val + 256 < col.toNat + width.toNat then
          some (barChar width permille (p.2.val + 256 - col.toNat))
        else none
      else none := by
  have hp : p.2.val < tsCols := p.2.isLt
  have hlt := col.toNat_lt
  simp only [barInk, rowInk, barChar, barLength_eq, Nat.cast_lt]
  by_cases hrow : p.1.val = row.toNat
  · rw [if_pos hrow, if_pos hrow]
    by_cases hcol : col.toNat ≤ p.2.val
    · rw [if_pos hcol, barCell_of_le hp hcol]
      exact if_congr (by omega) rfl rfl
    · rw [if_neg hcol, barCell_of_lt hp (Nat.lt_of_not_le hcol)]
      exact if_congr (by omega) rfl rfl
  · rw [if_neg hrow, if_neg hrow]

/-! ## The rendering -/

/-- The cells of a bar that come round to the left edge find their own characters there. -/
def RoundUnseen (s : TextScreen) (row col width : UInt8) (permille : UInt16) : Prop :=
  ∀ p : Pos, p.1.val = row.toNat → p.2.val + 256 < col.toNat + width.toNat →
    s.cell p = ⟨barChar width permille (p.2.val + 256 - col.toNat), s.curFg, s.curBg⟩

theorem roundUnseen_of (s : TextScreen) {row col : UInt8} (width : UInt8) (permille : UInt16)
    (h : tsRows ≤ row.toNat ∨ col.toNat + width.toNat ≤ 256) :
    RoundUnseen s row col width permille := by
  intro p hrow hround
  cases h with
  | inl h => exact absurd p.1.isLt (by omega)
  | inr h => exact absurd hround (by omega)

theorem bars_iff_unseen (s : TextScreen) (row col width : UInt8) (permille : UInt16) :
    Bars row col width permille s (s.bar row col width permille) ↔
      RoundUnseen s row col width permille := by
  have hink := inked_bar s row col width permille
  have hwidth := width.toNat_lt
  constructor
  · intro h p hrow hround
    have hleft : ¬col.toNat ≤ p.2.val := by omega
    have hcell := hink.cell p
    rw [h.cell, barInk_eq, if_pos hrow, if_neg hleft, if_pos hround, barred,
      if_neg fun hin => hleft hin.2.1] at hcell
    exact hcell
  · intro h
    refine ⟨fun p => ?_, hink.curFg, hink.curBg⟩
    rw [hink.cell, barInk_eq, barred]
    by_cases hrow : p.1.val = row.toNat
    · by_cases hcol : col.toNat ≤ p.2.val
      · by_cases hin : p.2.val < col.toNat + width.toNat
        · rw [if_pos hrow, if_pos hcol, if_pos hin, if_pos ⟨hrow, hcol, hin⟩]
        · rw [if_pos hrow, if_pos hcol, if_neg hin, if_neg fun hp => hin hp.2.2]
      · have hout : ¬(p.1.val = row.toNat ∧ col.toNat ≤ p.2.val ∧
            p.2.val < col.toNat + width.toNat) := fun hin => hcol hin.2.1
        by_cases hround : p.2.val + 256 < col.toNat + width.toNat
        · rw [if_pos hrow, if_neg hcol, if_pos hround, if_neg hout]
          exact (h p hrow hround).symm
        · rw [if_pos hrow, if_neg hcol, if_neg hround, if_neg hout]
    · rw [if_neg hrow, if_neg fun hp => hrow hp.1]

/-- A bar stays inside its columns exactly if its row is off the screen, its columns are counted
without going round, or going round changes nothing. -/
theorem bars_iff (s : TextScreen) (row col width : UInt8) (permille : UInt16) :
    Bars row col width permille s (s.bar row col width permille) ↔
      tsRows ≤ row.toNat ∨ col.toNat + width.toNat ≤ 256 ∨
        RoundUnseen s row col width permille := by
  rw [bars_iff_unseen]
  constructor
  · intro h
    exact .inr (.inr h)
  · rintro (hrow | hround | h)
    · exact roundUnseen_of s width permille (.inl hrow)
    · exact roundUnseen_of s width permille (.inr hround)
    · exact h

/-- Over all screens only the numbers of row and columns count: blanks at the left edge are seen to
change. -/
theorem bars_always_iff (row col width : UInt8) (permille : UInt16) :
    (∀ s : TextScreen, Bars row col width permille s (s.bar row col width permille)) ↔
      tsRows ≤ row.toNat ∨ col.toNat + width.toNat ≤ 256 := by
  constructor
  · intro h
    by_contra hout
    obtain ⟨hrow, hround⟩ := not_or.mp hout
    have hseen := (bars_iff_unseen (init 0 0) row col width permille).mp (h _)
      (⟨row.toNat, Nat.lt_of_not_le hrow⟩, 0) rfl (by simpa using Nat.lt_of_not_le hround)
    have hblank : (init 0 0).cell (⟨row.toNat, Nat.lt_of_not_le hrow⟩, 0) = ⟨blank, 0, 0⟩ := by
      simp [cell, init, markAllDirty]
    rw [hblank, barChar] at hseen
    have hch := congrArg Cell.ch hseen
    dsimp only at hch
    split at hch
    · exact absurd hch (by decide)
    · exact absurd hch (by decide)
  · intro h s
    exact (bars_iff_unseen s row col width permille).mpr (roundUnseen_of s width permille h)

/-- Twenty cells from column 250: the last fourteen appear in columns 0 to 13. -/
theorem not_bars_round :
    ¬Bars 0 250 20 1000 (init 0xFFFF 0) ((init 0xFFFF 0).bar 0 250 20 1000) := fun h =>
  absurd (h.cell (0, 0)) (by decide +kernel)

end TextScreen
end Rjs
