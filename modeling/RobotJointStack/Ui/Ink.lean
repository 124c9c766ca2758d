import RobotJointStack.Ui.TextScreen

/-!
# Ui.Ink

What the writes of a text screen do, cell by cell. Every write is a pattern of `ink`: at each place
it puts a character in the current colours, or leaves the place alone. A place is marked when, and
only when, its cell changes.

* `Inked`: this description, of one `putChar` (`inked_putChar`) and of several at different places
  (`Inked.trans`).
* `inked_printV`, `inked_bar`, `inked_clearRow`: the ink of each operation.
-/

namespace Rjs

namespace TextScreen

def cell (s : TextScreen) (p : Pos) : Cell := s.cells[p.1][p.2]

/-- The dirty bit of a place. -/
def marked (s : TextScreen) (p : Pos) : Bool := (s.bits p.1).toNat.testBit p.2

/-- Only the bits of real columns are set. -/
def InBounds (s : TextScreen) : Prop :=
  ∀ (r : Fin tsRows) (i : Nat), (s.bits r).toNat.testBit i → i < tsCols

/-- What a write puts where. -/
abbrev Ink := Pos → Option UInt8

/-- Ink on one row of the screen. -/
def rowInk (row : UInt8) (ink : Nat → Option UInt8) : Ink := fun p =>
  if p.1.val = row.toNat then ink p.2.val else none

/-- `s'` is `s` with `ink` on it. -/
structure Inked (ink : Ink) (s s' : TextScreen) : Prop where
  cell : ∀ p, s'.cell p =
    match ink p with
    | some ch => ⟨ch, s.curFg, s.curBg⟩
    | none => s.cell p
  marked : ∀ p, s'.marked p ↔ s.marked p ∨ s'.cell p ≠ s.cell p
  inBounds : s.InBounds → s'.InBounds
  curFg : s'.curFg = s.curFg
  curBg : s'.curBg = s.curBg

section Inked

variable {ink ink' : Ink} {s s' s'' : TextScreen}

theorem Inked.refl (s : TextScreen) : Inked (fun _ => none) s s where
  cell := fun _ => rfl
  marked := fun _ => by simp
  inBounds := id
  curFg := rfl
  curBg := rfl

theorem Inked.congr (h : Inked ink s s') (he : ∀ p, ink' p = ink p) : Inked ink' s s' := by
  obtain rfl : ink' = ink := funext he
  exact h

/-- Writes at different places. -/
theorem Inked.trans (h : Inked ink s s') (h' : Inked ink' s' s'')
    (hd : ∀ p, ink p = none ∨ ink' p = none) :
    Inked (fun p => (ink' p).or (ink p)) s s'' where
  cell p := by
    rw [h'.cell, h.curFg, h.curBg, h.cell]
    cases ink p <;> cases ink' p <;> rfl
  marked p := by
    rw [h'.marked, h.marked, or_assoc]
    refine or_congr_right ?_
    -- at each place one of the two writes does nothing
    cases hd p with
    | inl hi =>
      have hsame : s'.cell p = s.cell p := by rw [h.cell, hi]
      simp [hsame]
    | inr hi =>
      have hsame : s''.cell p = s'.cell p := by rw [h'.cell, hi]
      simp [hsame]
  inBounds hb := h'.inBounds (h.inBounds hb)
  curFg := h'.curFg.trans h.curFg
  curBg := h'.curBg.trans h.curBg

end Inked

/-! ## One character -/

/-- A cell written and marked. -/
def write (s : TextScreen) (p : Pos) (x : Cell) : TextScreen :=
  { s with cells := s.cells.set p.1 (s.cells[p.1].set p.2 x)
           dirty := s.dirty.set p.1 (s.dirty[p.1] ||| ((1 : UInt32) <<< UInt32.ofNat p.2)) }

theorem cell_write (s : TextScreen) (p q : Pos) (x : Cell) :
    (s.write p x).cell q = if q = p then x else s.cell q := by
  simp only [cell, write, Fin.getElem_fin, Vector.getElem_set, Prod.ext_iff, Fin.ext_iff]
  by_cases hr : p.1.val = q.1.val
  · by_cases hc : p.2.val = q.2.val
    · simp [hr, hc]
    · simp [hr, hc, Ne.symm hc]
  · simp [hr, Ne.symm hr]

theorem testBit_write (s : TextScreen) (p : Pos) (x : Cell) (r : Fin tsRows) (i : Nat) :
    ((s.write p x).bits r).toNat.testBit i =
      ((s.bits r).toNat.testBit i || (decide (r = p.1) && decide (i = p.2.val))) := by
  have hbit : ((1 : UInt32) <<< UInt32.ofNat p.2).toNat = 2 ^ p.2.val := by
    have hc : p.2.val < 32 := Nat.lt_of_lt_of_le p.2.isLt (by decide)
    have hlt : 2 ^ p.2.val < 2 ^ 32 := Nat.pow_lt_pow_right (by decide) hc
    rw [UInt32.toNat_shiftLeft, UInt32.toNat_ofNat_of_lt' (Nat.lt_of_lt_of_le hc (by decide)),
      Nat.mod_eq_of_lt hc, UInt32.toNat_one, Nat.one_shiftLeft, Nat.mod_eq_of_lt hlt]
  simp only [bits, write, Fin.getElem_fin, Vector.getElem_set, Fin.ext_iff]
  by_cases hr : p.1.val = r.val
  · simp only [hr, if_true, UInt32.toNat_or, hbit, Nat.testBit_or, Nat.testBit_two_pow,
      decide_true, Bool.true_and]
    simp [eq_comm]
  · simp [hr, Ne.symm hr]

theorem inked_write (s : TextScreen) (p : Pos) (ch : UInt8)
    (h : s.cell p ≠ ⟨ch, s.curFg, s.curBg⟩) :
    Inked (fun q => if q = p then some ch else none) s (s.write p ⟨ch, s.curFg, s.curBg⟩) where
  cell q := by
    rw [cell_write]
    split <;> rfl
  marked q := by
    rw [marked, testBit_write, cell_write]
    by_cases hq : q = p
    · subst hq; simp [Ne.symm h]
    · have hne : ¬(q.1 = p.1 ∧ q.2.val = p.2.val) := fun hb => hq (Prod.ext hb.1 (Fin.ext hb.2))
      simp [hq, marked]
      exact fun hr hc => absurd ⟨hr, hc⟩ hne
  inBounds hb r i hi := by
    rw [testBit_write, Bool.or_eq_true] at hi
    cases hi with
    | inl hi => exact hb r i hi
    | inr hi =>
      simp only [Bool.and_eq_true, decide_eq_true_eq] at hi
      rw [hi.2]; exact p.2.isLt
  curFg := rfl
  curBg := rfl

theorem inked_putChar (s : TextScreen) (row col ch : UInt8) :
    Inked (rowInk row fun c => if c = col.toNat then some ch else none) s
      (s.putChar row col ch) := by
  by_cases h : row.toNat < tsRows ∧ col.toNat < tsCols
  · let p : Pos := (⟨row.toNat, h.1⟩, ⟨col.toNat, h.2⟩)
    have hink : ∀ q : Pos, rowInk row (fun c => if c = col.toNat then some ch else none) q =
        if q = p then some ch else none := by
      intro q
      simp only [rowInk, p, Prod.ext_iff, Fin.ext_iff]
      split <;> simp_all
    by_cases hsame : s.cell p = ⟨ch, s.curFg, s.curBg⟩
    · have hput : s.putChar row col ch = s := by
        rw [putChar, dif_pos h]; exact if_pos hsame
      rw [hput]
      refine ⟨fun q => ?_, fun q => by simp, id, rfl, rfl⟩
      rw [hink]
      by_cases hq : q = p
      · rw [if_pos hq, hq, hsame]
      · rw [if_neg hq]
    · have hput : s.putChar row col ch = s.write p ⟨ch, s.curFg, s.curBg⟩ := by
        rw [putChar, dif_pos h]
        refine (if_neg hsame).trans ?_
        simp [write, p]
      rw [hput]
      exact (inked_write s p ch hsame).congr hink
  · have hput : s.putChar row col ch = s := by rw [putChar, dif_neg h]
    rw [hput]
    refine (Inked.refl s).congr fun q => ?_
    unfold rowInk
    split
    · rename_i hrow
      refine if_neg fun (hcol : q.2.val = col.toNat) => h ⟨hrow ▸ q.1.isLt, hcol ▸ q.2.isLt⟩
    · rfl

/-! ## Rows of characters -/

theorem rowInk_or (row : UInt8) (ink ink' : Nat → Option UInt8) (p : Pos) :
    (rowInk row ink' p).or (rowInk row ink p) = rowInk row (fun c => (ink' c).or (ink c)) p := by
  unfold rowInk
  split <;> rfl

/-- Writes at different places of one row. -/
theorem Inked.transRow {row : UInt8} {ink ink' : Nat → Option UInt8} {s s' s'' : TextScreen}
    (h : Inked (rowInk row ink) s s') (h' : Inked (rowInk row ink') s' s'')
    (hd : ∀ c < tsCols, ink c = none ∨ ink' c = none) :
    Inked (rowInk row fun c => (ink' c).or (ink c)) s s'' := by
  refine (h.trans h' fun p => ?_).congr fun p => (rowInk_or row ink ink' p).symm
  unfold rowInk
  split
  · exact hd p.2 p.2.isLt
  · exact .inl rfl

/-- Two descriptions of the ink on a row that agree on the screen. -/
theorem Inked.congrRow {row : UInt8} {ink ink' : Nat → Option UInt8} {s s' : TextScreen}
    (h : Inked (rowInk row ink) s s') (he : ∀ c < tsCols, ink' c = ink c) :
    Inked (rowInk row ink') s s' := by
  refine h.congr fun p => ?_
  unfold rowInk
  split
  · exact he p.2 p.2.isLt
  · rfl

/-- The text from `col` on. -/
def textInk (col : UInt8) (text : List UInt8) (c : Nat) : Option UInt8 :=
  if col.toNat ≤ c then text[c - col.toNat]? else none

theorem inked_putText (s : TextScreen) (row col : UInt8) (text : List UInt8) :
    Inked (rowInk row (textInk col text)) s (s.putText row col text).1 ∧
      (s.putText row col text).2.toNat =
        if col.toNat < tsCols then min tsCols (col.toNat + text.length) else col.toNat := by
  induction text generalizing s col with
  | nil =>
    refine ⟨(Inked.refl s).congr fun p => by simp [rowInk, textInk], ?_⟩
    split
    · rename_i hc
      exact (Nat.min_eq_right (Nat.le_of_lt hc)).symm
    · rfl
  | cons ch text ih =>
    rw [putText]
    by_cases hc : col.toNat < tsCols
    · have hc' : col.toNat < 30 := hc
      have hnext : (col + 1).toNat = col.toNat + 1 := by
        rw [UInt8.toNat_add]
        exact Nat.mod_eq_of_lt (by simp; omega)
      obtain ⟨hink, hstop⟩ := ih (s.putChar row col ch) (col + 1)
      rw [if_pos hc]
      refine ⟨((inked_putChar s row col ch).transRow hink fun c _ => ?_).congrRow fun c _ => ?_, ?_⟩
      · unfold textInk
        by_cases hcol : c = col.toNat
        · right; rw [hnext, if_neg (by omega)]
        · left; exact if_neg hcol
      · unfold textInk
        rw [hnext]
        by_cases hlt : col.toNat + 1 ≤ c
        · have hidx : c - col.toNat = (c - (col.toNat + 1)) + 1 := by omega
          rw [if_pos hlt, if_pos (by omega), if_neg (by omega), hidx]
          simp
        · by_cases hcol : c = col.toNat
          · subst hcol; simp
          · rw [if_neg hlt, if_neg (by omega), if_neg hcol]; rfl
      · rw [hstop, hnext, List.length_cons, if_pos hc]
        split <;> omega
    · rw [if_neg hc, if_neg hc]
      refine ⟨(Inked.refl s).congr fun p => ?_, rfl⟩
      have hp := p.2.isLt
      unfold rowInk textInk
      rw [if_neg (by omega : ¬col.toNat ≤ p.2.val), ite_self]

/-- Blanks from `col` to the right edge. -/
theorem inked_blanks (s : TextScreen) (row : UInt8) {col n : Nat} (h : col + n ≤ tsCols) :
    Inked (rowInk row fun c => if col ≤ c ∧ c < col + n then some blank else none) s
      (((List.range' col n).map UInt8.ofNat).foldl (fun s c => s.putChar row c blank) s) := by
  have hcols : col + n ≤ 30 := h
  induction n generalizing s col with
  | zero => exact (Inked.refl s).congr fun p => by simp [rowInk]
  | succ n ih =>
    have hcol : (UInt8.ofNat col).toNat = col :=
      UInt8.toNat_ofNat_of_lt' (Nat.lt_of_lt_of_le (by omega : col < 31) (by decide))
    have hrest := ih (s.putChar row (UInt8.ofNat col) blank)
      (show col + 1 + n ≤ tsCols by omega) (by omega)
    rw [List.range'_succ, List.map_cons, List.foldl_cons]
    refine ((inked_putChar s row (UInt8.ofNat col) blank).transRow hrest fun c _ => ?_).congrRow
      fun c _ => ?_
    · rw [hcol]
      by_cases hc : c = col
      · right; rw [if_neg (by omega)]
      · left; rw [if_neg hc]
    · rw [hcol]
      by_cases hc : c = col
      · rw [if_pos (by omega), if_neg (by omega), if_pos hc]; rfl
      · by_cases hin : col + 1 ≤ c ∧ c < col + 1 + n
        · rw [if_pos (by omega), if_pos hin]; rfl
        · rw [if_neg (by omega), if_neg hin, if_neg hc]; rfl

theorem inked_columnsFrom (s : TextScreen) (row col : UInt8) :
    Inked (rowInk row fun c => if col.toNat ≤ c then some blank else none) s
      ((columnsFrom col).foldl (fun s c => s.putChar row c blank) s) := by
  by_cases hc : col.toNat ≤ tsCols
  · have hsum : col.toNat + (tsCols - col.toNat) = tsCols := Nat.add_sub_cancel' hc
    refine (inked_blanks s row hsum.le).congrRow fun c hlt => ?_
    rw [hsum]
    simp [hlt]
  · have hnone : columnsFrom col = [] := by
      rw [columnsFrom, Nat.sub_eq_zero_of_le (Nat.le_of_not_le hc)]; rfl
    rw [hnone]
    refine (Inked.refl s).congr fun p => ?_
    have hp := p.2.isLt
    unfold rowInk
    dsimp only
    rw [if_neg (by omega : ¬col.toNat ≤ p.2.val), ite_self]

/-! ## The operations -/

/-- The ink of `rjs_ts_print`, or with `pad` of `rjs_ts_print_line`. -/
def printInk (row col : UInt8) (pad : Bool) : Option (List UInt8) → Ink
  | none => fun _ => none
  | some text => rowInk row fun c =>
    (textInk col (buffered text) c).or (if pad ∧ col.toNat ≤ c then some blank else none)

theorem inked_printV (s : TextScreen) (row col : UInt8) (pad : Bool) (text : Option (List UInt8)) :
    Inked (printInk row col pad text) s (s.printV row col pad text) := by
  cases text with
  | none => exact Inked.refl s
  | some text =>
    obtain ⟨htext, hstop⟩ := inked_putText s row col (buffered text)
    unfold printV printInk
    dsimp only
    cases pad with
    | false => exact htext.congrRow fun c _ => by simp
    | true =>
      have hend : ∀ c < tsCols, (s.putText row col (buffered text)).2.toNat ≤ c ↔
          col.toNat ≤ c ∧ (buffered text).length ≤ c - col.toNat := by
        intro c hc
        rw [hstop]
        split <;> omega
      refine (htext.transRow (inked_columnsFrom _ row _) fun c hc => ?_).congrRow fun c hc => ?_
      · unfold textInk
        by_cases hpad : col.toNat ≤ c ∧ (buffered text).length ≤ c - col.toNat
        · left; rw [if_pos hpad.1, List.getElem?_eq_none hpad.2]
        · right; rw [if_neg (mt (hend c hc).mp hpad)]
      · unfold textInk
        by_cases hpad : col.toNat ≤ c ∧ (buffered text).length ≤ c - col.toNat
        · rw [if_pos ((hend c hc).mpr hpad), if_pos hpad.1, List.getElem?_eq_none hpad.2]
          simp [hpad.1]
        · rw [if_neg (mt (hend c hc).mp hpad)]
          by_cases hcol : col.toNat ≤ c
          · have hlt : c - col.toNat < (buffered text).length :=
              Nat.lt_of_not_le fun hle => hpad ⟨hcol, hle⟩
            rw [if_pos hcol, List.getElem?_eq_getElem hlt]; rfl
          · simp [hcol]

/-- The number of the cell of a bar that lies in column `c`; columns count modulo 256. -/
def barCell (col : UInt8) (c : Nat) : Nat := (UInt8.ofNat c - col).toNat

/-- How many cells of a bar are filled. -/
def barFilled (width : UInt8) (permille : UInt16) : UInt16 :=
  let permille := if permille > 1000 then 1000 else permille
  ((width.toUInt32 * permille.toUInt32 + 500) / 1000).toUInt16

def barInk (row col width : UInt8) (permille : UInt16) : Ink := rowInk row fun c =>
  if barCell col c < width.toNat then
    some (if barCell col c < (barFilled width permille).toNat then 0x23 else 0x2E)
  else none

theorem inked_bar (s : TextScreen) (row col width : UInt8) (permille : UInt16) :
    Inked (barInk row col width permille) s (s.bar row col width permille) := by
  suffices h : ∀ n ≤ 256, Inked
      (rowInk row fun c => if barCell col c < n then
        some (if barCell col c < (barFilled width permille).toNat then 0x23 else 0x2E) else none) s
      ((List.range n).foldl (fun s i => s.putChar row (col + UInt8.ofNat i)
        (if i < (barFilled width permille).toNat then 0x23 else 0x2E)) s) from
    h width.toNat width.toNat_lt.le
  intro n hn
  induction n with
  | zero => exact (Inked.refl s).congr fun p => by simp [rowInk]
  | succ n ih =>
    have hplace : ∀ c < tsCols, c = (col + UInt8.ofNat n).toNat ↔ barCell col c = n := by
      intro c hc
      have hc' : c < 30 := hc
      have hcn : (UInt8.ofNat c).toNat = c :=
        UInt8.toNat_ofNat_of_lt' (Nat.lt_of_lt_of_le hc' (by decide))
      have hnn : (UInt8.ofNat n).toNat = n := UInt8.toNat_ofNat_of_lt' hn
      rw [barCell, UInt8.toNat_sub, UInt8.toNat_add, hcn, hnn]
      have hcol := col.toNat_lt
      omega
    rw [List.range_succ, List.foldl_append, List.foldl_cons, List.foldl_nil]
    refine ((ih (Nat.le_of_succ_le hn)).transRow (inked_putChar _ row _ _) fun c hc => ?_).congrRow
      fun c hc => ?_
    · by_cases hcell : barCell col c = n
      · left; rw [if_neg (by omega)]
      · right; rw [if_neg (mt (hplace c hc).mp hcell)]
    · by_cases hcell : barCell col c = n
      · rw [if_pos (by omega), if_pos ((hplace c hc).mpr hcell), hcell]; rfl
      · rw [if_neg (mt (hplace c hc).mp hcell)]
        by_cases hlt : barCell col c < n
        · rw [if_pos (by omega), if_pos hlt]; rfl
        · rw [if_neg (by omega), if_neg hlt]; rfl

theorem inked_clearRow (s : TextScreen) (row : UInt8) :
    Inked (rowInk row fun _ => some blank) s (s.clearRow row) :=
  (inked_columnsFrom s row 0).congrRow fun _ _ => rfl

end TextScreen
end Rjs
