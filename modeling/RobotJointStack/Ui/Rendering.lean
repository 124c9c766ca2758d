import RobotJointStack.Ui.Ink

/-!
# Ui.Rendering

The reference rendering of a text write: which cell of the screen it shows which character in. The
reference takes the whole text and clips it once, at the right edge.

* `bits_printV`: a text write marks places of its own row only.
* `printV_outside`: beyond the edges nothing is written.
* `print_renders`: `rjs_ts_print` and `rjs_ts_print_line` are their reference rendering.
-/

namespace Rjs

namespace TextScreen

/-- The characters of a formatted text, up to the zero that ends it. -/
def shown (text : List UInt8) : List UInt8 := text.takeWhile (· ≠ 0)

/-- What a place shows after a text is written at `(row, col)`, with `pad` to the end of the row. -/
def rendered (s : TextScreen) (row col : UInt8) (pad : Bool) (text : List UInt8) (p : Pos) : Cell :=
  if p.1.val = row.toNat ∧ col.toNat ≤ p.2.val then
    match (shown text)[p.2.val - col.toNat]? with
    | some ch => ⟨ch, s.curFg, s.curBg⟩
    | none => if pad then ⟨blank, s.curFg, s.curBg⟩ else s.cell p
  else s.cell p

/-- `s'` is `s` with a text rendered on it. -/
structure Renders (row col : UInt8) (pad : Bool) (text : List UInt8) (s s' : TextScreen) : Prop where
  cell : ∀ p, s'.cell p = rendered s row col pad text p
  otherRows : ∀ r : Fin tsRows, r.val ≠ row.toNat → s'.bits r = s.bits r
  curFg : s'.curFg = s.curFg
  curBg : s'.curBg = s.curBg
  outside : tsRows ≤ row.toNat ∨ tsCols ≤ col.toNat → s' = s

/-! ## Other rows -/

section Frame

variable (s : TextScreen) (row col : UInt8)

theorem bits_putChar (ch : UInt8) {r : Fin tsRows} (hr : r.val ≠ row.toNat) :
    (s.putChar row col ch).bits r = s.bits r := by
  rw [putChar]
  split
  · dsimp only
    split
    · rfl
    · rename_i hin _
      exact Vector.getElem_set_ne hin.1 _ (Ne.symm hr)
  · rfl

theorem bits_putText (text : List UInt8) {r : Fin tsRows} (hr : r.val ≠ row.toNat) :
    (s.putText row col text).1.bits r = s.bits r := by
  induction text generalizing s col with
  | nil => rfl
  | cons ch text ih =>
    rw [putText]
    split
    · rw [ih, bits_putChar s row col ch hr]
    · rfl

theorem bits_padRow {r : Fin tsRows} (hr : r.val ≠ row.toNat) :
    (s.padRow row col).bits r = s.bits r := by
  rw [padRow]
  induction columnsFrom col generalizing s with
  | nil => rfl
  | cons c cols ih => rw [List.foldl_cons, ih, bits_putChar s row c blank hr]

theorem bits_printV (pad : Bool) (text : List UInt8) {r : Fin tsRows} (hr : r.val ≠ row.toNat) :
    (s.printV row col pad (some text)).bits r = s.bits r := by
  unfold printV
  dsimp only
  split
  · rw [bits_padRow _ row _ hr, bits_putText s row col _ hr]
  · exact bits_putText s row col _ hr

/-! ## Beyond the edges -/

theorem putChar_outside (ch : UInt8) (h : tsRows ≤ row.toNat) : s.putChar row col ch = s := by
  rw [putChar, dif_neg fun hin => Nat.not_lt.mpr h hin.1]

theorem putText_below (text : List UInt8) (h : tsRows ≤ row.toNat) :
    (s.putText row col text).1 = s := by
  induction text generalizing col with
  | nil => rfl
  | cons ch text ih =>
    rw [putText, putChar_outside s row col ch h]
    split
    · exact ih (col + 1)
    · rfl

theorem putText_right (text : List UInt8) (h : tsCols ≤ col.toNat) :
    s.putText row col text = (s, col) := by
  cases text with
  | nil => rfl
  | cons ch text => rw [putText, if_neg (Nat.not_lt.mpr h)]

theorem padRow_below (h : tsRows ≤ row.toNat) : s.padRow row col = s := by
  rw [padRow]
  induction columnsFrom col with
  | nil => rfl
  | cons c cols ih => rw [List.foldl_cons, putChar_outside s row c blank h, ih]

theorem padRow_right (h : tsCols ≤ col.toNat) : s.padRow row col = s := by
  rw [padRow, columnsFrom, Nat.sub_eq_zero_of_le h]; rfl

theorem printV_outside (pad : Bool) (text : List UInt8)
    (h : tsRows ≤ row.toNat ∨ tsCols ≤ col.toNat) : s.printV row col pad (some text) = s := by
  unfold printV
  dsimp only
  cases h with
  | inl h => rw [putText_below s row col _ h, padRow_below s row _ h, ite_self]
  | inr h => rw [putText_right s row col _ h, padRow_right s row _ h, ite_self]

end Frame

/-! ## The rendering -/

/-- The buffer of `print_v` ends beyond the last column, wherever the text starts. -/
theorem buffered_eq (text : List UInt8) : buffered text = (shown text).take tsCols :=
  List.take_takeWhile.symm

theorem printInk_eq (row col : UInt8) (pad : Bool) (text : List UInt8) (p : Pos) :
    printInk row col pad (some text) p =
      if p.1.val = row.toNat ∧ col.toNat ≤ p.2.val then
        ((shown text)[p.2.val - col.toNat]?).or (if pad then some blank else none)
      else none := by
  have hp : p.2.val < tsCols := p.2.isLt
  simp only [printInk, rowInk, textInk, buffered_eq]
  rw [List.getElem?_take_of_lt (by omega)]
  by_cases hrow : p.1.val = row.toNat
  · by_cases hcol : col.toNat ≤ p.2.val
    · simp [hrow, hcol]
    · simp [hrow, hcol]
  · simp [hrow]

theorem renders_printV (s : TextScreen) (row col : UInt8) (pad : Bool) (text : List UInt8) :
    Renders row col pad text s (s.printV row col pad (some text)) where
  cell p := by
    rw [(inked_printV s row col pad (some text)).cell, printInk_eq, rendered]
    by_cases hin : p.1.val = row.toNat ∧ col.toNat ≤ p.2.val
    · rw [if_pos hin, if_pos hin]
      cases (shown text)[p.2.val - col.toNat]? with
      | some ch => rfl
      | none => cases pad <;> rfl
    · rw [if_neg hin, if_neg hin]
  otherRows _ hr := bits_printV s row col pad text hr
  curFg := (inked_printV s row col pad (some text)).curFg
  curBg := (inked_printV s row col pad (some text)).curBg
  outside h := printV_outside s row col pad text h

/-- Both text writes, for every screen, place and text. -/
theorem print_renders (s : TextScreen) (row col : UInt8) (text : List UInt8) :
    Renders row col false text s (s.print row col (some text)) ∧
      Renders row col true text s (s.printLine row col (some text)) :=
  ⟨renders_printV s row col false text, renders_printV s row col true text⟩

end TextScreen
end Rjs
