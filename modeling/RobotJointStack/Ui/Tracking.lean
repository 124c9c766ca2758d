import RobotJointStack.Lib.History
import RobotJointStack.Ui.Ink

/-!
# Ui.Tracking

The dirty bits are exact: a flush redraws what has changed and nothing else, and after it the panel
shows the screen.

* `flush_eq`: a flush calls back for the marked places, row by row, and clears the marks.
* `written_act`: what a write does to the cells, the marks and the current colours.
* `screen_tracked`: in every run, what the marks mean, and what a flush does.
-/

namespace Rjs

open History

namespace TextScreen

/-! ## The marked places -/

/-- The marked places of a row. -/
def rowMarks (s : TextScreen) (r : Fin tsRows) : List Pos :=
  ((List.finRange tsCols).filter fun c => s.marked (r, c)).map (r, ·)

/-- The marked places, row by row. -/
def marks (s : TextScreen) : List Pos := (List.finRange tsRows).flatMap s.rowMarks

theorem mem_rowMarks {s : TextScreen} {r : Fin tsRows} {p : Pos} :
    p ∈ s.rowMarks r ↔ p.1 = r ∧ s.marked p = true := by
  obtain ⟨r', c⟩ := p
  simp only [rowMarks, List.mem_map, List.mem_filter, List.mem_finRange, true_and, Prod.mk.injEq]
  constructor
  · rintro ⟨c', hmarked, rfl, rfl⟩
    exact ⟨rfl, hmarked⟩
  · rintro ⟨rfl, hmarked⟩
    exact ⟨c, hmarked, rfl, rfl⟩

theorem mem_marks {s : TextScreen} {p : Pos} : p ∈ s.marks ↔ s.marked p = true := by
  simp [marks, mem_rowMarks]

/-- Row by row, and in each row from the left. -/
theorem marks_sorted (s : TextScreen) : s.marks.Pairwise (Prod.Lex (· < ·) (· < ·)) := by
  refine List.pairwise_flatMap.mpr ⟨fun r _ => ?_, ?_⟩
  · refine List.pairwise_map.mpr (((List.pairwise_lt_finRange tsCols).filter _).imp ?_)
    intro c c' hlt
    exact .right r hlt
  · refine (List.pairwise_lt_finRange tsRows).imp fun {r r'} hlt p hp q hq => ?_
    obtain ⟨rfl, -⟩ := mem_rowMarks.mp hp
    obtain ⟨rfl, -⟩ := mem_rowMarks.mp hq
    exact Prod.lex_def.mpr (.inl hlt)

theorem length_marks_le (s : TextScreen) : s.marks.length ≤ tsRows * tsCols := by
  have hrow : ∀ r, (s.rowMarks r).length ≤ tsCols := by
    intro r
    rw [rowMarks, List.length_map]
    exact (List.length_filter_le _ _).trans (List.length_finRange).le
  rw [marks, List.length_flatMap]
  refine (List.sum_le_card_nsmul _ tsCols fun n hn => ?_).trans (by simp)
  obtain ⟨r, -, rfl⟩ := List.mem_map.mp hn
  exact hrow r

/-! ## A flush -/

section Flush

variable {σ : Type} {s : TextScreen} {cb : Option (DrawCb σ)}

/-- The callback for one place. -/
def draw (cb : Option (DrawCb σ)) (s : TextScreen) (user : σ) (p : Pos) : σ :=
  match cb with
  | some cb => cb (UInt8.ofNat p.1) (UInt8.ofNat p.2) (s.cell p) user
  | none => user

theorem flushRow_eq (row : Vector Cell tsCols) (r : UInt8) (bits : UInt32) (drawn : UInt16)
    (user : σ) :
    flushRow row r cb bits drawn user =
      (drawn + UInt16.ofNat bits.toNat.bitIndices.length,
        bits.toNat.bitIndices.foldl (fun user c =>
          match cb with
          | some cb => cb r (UInt8.ofNat c) (row[c]?.getD default) user
          | none => user) user) := by
  fun_induction flushRow row r cb bits drawn user with
  | case1 bits drawn user hbits c user' ih =>
    rw [BitScan.bitIndices_eq_cons hbits]
    refine ih.trans ?_
    rw [List.length_cons, List.foldl_cons, UInt16.ofNat_add, UInt16.add_assoc, UInt16.add_comm 1]
    rfl
  | case2 bits drawn user hbits =>
    obtain rfl : bits = 0 := not_not.mp hbits
    simp

theorem flushRow_marks (hb : s.InBounds) (r : Fin tsRows) (drawn : UInt16) (user : σ) :
    flushRow (s.row r) (UInt8.ofNat r) cb (s.bits r) drawn user =
      (drawn + UInt16.ofNat (s.rowMarks r).length, (s.rowMarks r).foldl (draw cb s) user) := by
  have hbits : (s.bits r).toNat.bitIndices =
      ((List.finRange tsCols).filter fun c => s.marked (r, c)).map Fin.val :=
    BitScan.bitIndices_eq_filter (hb r)
  rw [flushRow_eq, hbits, rowMarks, List.length_map, List.length_map, List.foldl_map,
    List.foldl_map]
  congr 2
  funext user c
  cases cb with
  | none => rfl
  | some cb => simp [draw, cell, row]

end Flush

/-- The marks of some rows cleared. -/
def unmark (s : TextScreen) (rows : List (Fin tsRows)) : TextScreen := rows.foldl clearBits s

theorem bits_clearBits (s : TextScreen) (r r' : Fin tsRows) :
    (s.clearBits r).bits r' = if r' = r then 0 else s.bits r' := by
  simp only [bits, clearBits, Fin.getElem_fin, Vector.getElem_set, Fin.ext_iff, eq_comm]

theorem rowMarks_clearBits (s : TextScreen) {r r' : Fin tsRows} (h : r' ≠ r) :
    (s.clearBits r).rowMarks r' = s.rowMarks r' := by
  have hmarked : ∀ c, (s.clearBits r).marked (r', c) = s.marked (r', c) := by
    intro c
    rw [marked, bits_clearBits, if_neg h]; rfl
  simp only [rowMarks, hmarked]

theorem inBounds_clearBits {s : TextScreen} (hb : s.InBounds) (r : Fin tsRows) :
    (s.clearBits r).InBounds := by
  intro r' i hi
  rw [bits_clearBits] at hi
  split at hi
  · simp at hi
  · exact hb r' i hi

@[simp] theorem cell_unmark (s : TextScreen) (rows : List (Fin tsRows)) (p : Pos) :
    (s.unmark rows).cell p = s.cell p := by
  induction rows generalizing s with
  | nil => rfl
  | cons r rows ih => exact ih (s.clearBits r)

theorem bits_unmark (s : TextScreen) (rows : List (Fin tsRows)) (r : Fin tsRows) :
    (s.unmark rows).bits r = if r ∈ rows then 0 else s.bits r := by
  induction rows generalizing s with
  | nil => rfl
  | cons r' rows ih =>
    refine (ih (s.clearBits r')).trans ?_
    rw [bits_clearBits]
    by_cases hr : r ∈ rows
    · simp [hr]
    · simp [hr, List.mem_cons]

section Flush

variable {σ : Type} {s : TextScreen} {cb : Option (DrawCb σ)}

theorem draw_clearBits (r : Fin tsRows) : draw cb (s.clearBits r) = draw cb s := rfl

theorem flush_rows (hb : s.InBounds) {rows : List (Fin tsRows)} (hrows : rows.Nodup)
    (drawn : UInt16) (user : σ) :
    rows.foldl (fun (drawn, user, s) (r : Fin tsRows) =>
        let (drawn, user) := flushRow (s.row r) (UInt8.ofNat r) cb (s.bits r) drawn user
        (drawn, user, s.clearBits r)) (drawn, user, s) =
      (drawn + UInt16.ofNat (rows.flatMap s.rowMarks).length,
        (rows.flatMap s.rowMarks).foldl (draw cb s) user, s.unmark rows) := by
  induction rows generalizing s drawn user with
  | nil => simp [unmark]
  | cons r rows ih =>
    obtain ⟨hr, hrows⟩ := List.nodup_cons.mp hrows
    -- the rows that follow do not see that this one has been cleared
    have hrest : rows.flatMap (s.clearBits r).rowMarks = rows.flatMap s.rowMarks :=
      List.flatMap_congr fun r' hr' => rowMarks_clearBits s fun he => hr (he ▸ hr')
    rw [List.foldl_cons]
    dsimp only
    rw [flushRow_marks hb]
    refine (ih (inBounds_clearBits hb r) hrows _ _).trans ?_
    rw [hrest, draw_clearBits, List.flatMap_cons, List.length_append, List.foldl_append,
      UInt16.ofNat_add, UInt16.add_assoc]
    rfl

theorem flush_eq (hb : s.InBounds) (user : σ) :
    s.flush cb user =
      (UInt16.ofNat s.marks.length, s.marks.foldl (draw cb s) user,
        s.unmark (List.finRange tsRows)) := by
  refine (flush_rows hb (List.nodup_finRange tsRows) 0 user).trans ?_
  rw [UInt16.zero_add, marks]

end Flush

theorem dirtyCount_eq {s : TextScreen} (hb : s.InBounds) :
    s.dirtyCount = UInt16.ofNat s.marks.length := by
  have hrow : ∀ r, BitScan.popcount (s.bits r) = (s.rowMarks r).length := by
    intro r
    rw [BitScan.popcount, BitScan.bitIndices_eq_filter (hb r), rowMarks, List.length_map,
      List.length_map]
    rfl
  have hsum : ∀ (rows : List (Fin tsRows)) (n : UInt16),
      rows.foldl (fun n r => n + UInt16.ofNat (BitScan.popcount (s.bits r))) n =
        n + UInt16.ofNat (rows.flatMap s.rowMarks).length := by
    intro rows
    induction rows with
    | nil => intro n; simp
    | cons r rows ih =>
      intro n
      rw [List.foldl_cons, ih, hrow, List.flatMap_cons, List.length_append, UInt16.ofNat_add,
        UInt16.add_assoc]
  rw [dirtyCount, hsum, UInt16.zero_add, marks]

theorem toNat_dirtyCount {s : TextScreen} (hb : s.InBounds) :
    s.dirtyCount.toNat = s.marks.length := by
  rw [dirtyCount_eq hb]
  exact UInt16.toNat_ofNat_of_lt' (Nat.lt_of_le_of_lt s.length_marks_le (by decide))

/-! ## The other operations -/

theorem toNat_all : (((1 : UInt32) <<< 30) - 1).toNat = 2 ^ tsCols - 1 := by decide

theorem marked_markAllDirty (s : TextScreen) (p : Pos) : s.markAllDirty.marked p = true := by
  have hp : p.2.val < 30 := p.2.isLt
  simp only [marked, bits, markAllDirty, Fin.getElem_fin, Vector.getElem_replicate, toNat_all]
  rw [Nat.testBit_two_pow_sub_one, decide_eq_true hp]

theorem inBounds_markAllDirty (s : TextScreen) : s.markAllDirty.InBounds := by
  intro r i hi
  simp only [bits, markAllDirty, Fin.getElem_fin, Vector.getElem_replicate, toNat_all] at hi
  rw [Nat.testBit_two_pow_sub_one] at hi
  exact of_decide_eq_true hi

end TextScreen

namespace ScreenOp

/-- A write changes cells or the current colours; the others are about the marks. -/
def IsWrite (op : ScreenOp) : Prop := op ≠ .markAllDirty ∧ op ≠ .flush

/-- What an operation puts on the screen. -/
def ink : ScreenOp → TextScreen.Ink
  | .print row col text => TextScreen.printInk row col false text
  | .printLine row col text => TextScreen.printInk row col true text
  | .bar row col width permille => TextScreen.barInk row col width permille
  | .clearRow row => TextScreen.rowInk row fun _ => some blank
  | .setColors _ _ | .markAllDirty | .flush => fun _ => none

/-- The current colours after an operation. -/
def colors (op : ScreenOp) (s : TextScreen) : UInt16 × UInt16 :=
  match op with
  | .setColors fg bg => (fg, bg)
  | _ => (s.curFg, s.curBg)

end ScreenOp

namespace Display

open TextScreen

/-- `d'` is `d` after a write: the panel waits, and what changes is marked. -/
structure Written (op : ScreenOp) (d d' : Display) : Prop where
  panel : d'.panel = d.panel
  cell : ∀ p, d'.screen.cell p =
    match op.ink p with
    | some ch => ⟨ch, d.screen.curFg, d.screen.curBg⟩
    | none => d.screen.cell p
  marked : ∀ p, d'.screen.marked p ↔
    d.screen.marked p ∨ d'.screen.cell p ≠ d.screen.cell p
  inBounds : d.screen.InBounds → d'.screen.InBounds
  colors : (d'.screen.curFg, d'.screen.curBg) = op.colors d.screen

theorem written_act (d : Display) {op : ScreenOp} (h : op.IsWrite) : Written op d (d.act op) := by
  have hink : ∀ {op : ScreenOp} {s : TextScreen}, Inked op.ink d.screen s →
      op.colors d.screen = (d.screen.curFg, d.screen.curBg) → Written op d ⟨s, d.panel⟩ :=
    fun h hcolors => ⟨rfl, h.cell, h.marked, h.inBounds, by rw [hcolors, h.curFg, h.curBg]⟩
  cases op with
  | setColors fg bg =>
    exact ⟨rfl, fun p => rfl, fun p => (or_iff_left (not_not.mpr rfl)).symm, id, rfl⟩
  | print row col text => exact hink (inked_printV d.screen row col false text) rfl
  | printLine row col text => exact hink (inked_printV d.screen row col true text) rfl
  | bar row col width permille => exact hink (inked_bar d.screen row col width permille) rfl
  | clearRow row => exact hink (inked_clearRow d.screen row) rfl
  | markAllDirty => exact absurd rfl h.1
  | flush => exact absurd rfl h.2

theorem drawCell_fold (s : TextScreen) (l : List Pos) (panel : Panel) (p : Pos) :
    l.foldl (draw (some drawCell) s) panel p = if p ∈ l then s.cell p else panel p := by
  induction l generalizing panel with
  | nil => rfl
  | cons q l ih =>
    have hq : draw (some drawCell) s panel q p = if p = q then s.cell p else panel p := by
      have hr : (UInt8.ofNat q.1.val).toNat = q.1.val :=
        UInt8.toNat_ofNat_of_lt' (Nat.lt_of_lt_of_le q.1.isLt (by decide))
      have hc : (UInt8.ofNat q.2.val).toNat = q.2.val :=
        UInt8.toNat_ofNat_of_lt' (Nat.lt_of_lt_of_le q.2.isLt (by decide))
      simp only [draw, drawCell, hr, hc, Prod.ext_iff, Fin.ext_iff]
      by_cases h : p.1.val = q.1.val ∧ p.2.val = q.2.val
      · have he : p = q := Prod.ext (Fin.ext h.1) (Fin.ext h.2)
        rw [if_pos h, if_pos h, he]
      · rw [if_neg h, if_neg h]
    rw [List.foldl_cons, ih, hq]
    by_cases hl : p ∈ l
    · simp [hl]
    · simp [hl, List.mem_cons]

/-- The invariant: what is not marked is on the panel. -/
structure Tracked (d : Display) : Prop where
  shown : ∀ p, d.screen.marked p = false → d.panel p = d.screen.cell p
  inBounds : d.screen.InBounds

theorem tracked_start (fg bg : UInt16) (panel : Panel) : (start fg bg panel).Tracked where
  shown p hp := by
    rw [start, TextScreen.init, marked_markAllDirty] at hp
    cases hp
  inBounds := inBounds_markAllDirty _

section Act

variable {d : Display}

/-- After a flush the panel shows the screen, and nothing is marked. -/
theorem act_flush (h : d.Tracked) (p : Pos) :
    (d.act .flush).panel p = d.screen.cell p ∧ (d.act .flush).screen.cell p = d.screen.cell p ∧
      (d.act .flush).screen.marked p = false := by
  simp only [act, flush_eq h.inBounds]
  refine ⟨?_, cell_unmark _ _ p, ?_⟩
  · rw [drawCell_fold]
    by_cases hp : p ∈ d.screen.marks
    · rw [if_pos hp]
    · rw [if_neg hp]
      exact h.shown p (Bool.eq_false_iff.mpr (mt mem_marks.mpr hp))
  · rw [marked, bits_unmark, if_pos (List.mem_finRange p.1)]
    exact Nat.zero_testBit _

theorem tracked_act (h : d.Tracked) (op : ScreenOp) : (d.act op).Tracked := by
  by_cases hflush : op = .flush
  · subst hflush
    refine ⟨fun p _ => (act_flush h p).1.trans (act_flush h p).2.1.symm, fun r i hi => ?_⟩
    simp only [act, flush_eq h.inBounds] at hi
    rw [bits_unmark, if_pos (List.mem_finRange r)] at hi
    simp at hi
  · by_cases hall : op = .markAllDirty
    · subst hall
      refine ⟨fun p hp => ?_, inBounds_markAllDirty _⟩
      rw [act, marked_markAllDirty] at hp
      cases hp
    · have hwritten := d.written_act ⟨hall, hflush⟩
      refine ⟨fun p hp => ?_, hwritten.inBounds h.inBounds⟩
      have hnot := mt (hwritten.marked p).mpr (Bool.eq_false_iff.mp hp)
      rw [not_or, not_not] at hnot
      rw [hwritten.panel, hnot.2]
      exact h.shown p (Bool.eq_false_iff.mpr hnot.1)

theorem tracked_run (h : d.Tracked) (ops : List ScreenOp) : (d.run ops).Tracked := by
  induction ops generalizing d with
  | nil => exact h
  | cons op ops ih => exact ih (tracked_act h op)

end Act

theorem run_snoc (d : Display) (ops : List ScreenOp) (op : ScreenOp) :
    d.run (ops ++ [op]) = (d.run ops).act op := List.foldl_concat ..

/-- An operation that changes the cell at `p`, or marks it with all the others. -/
def Touches (d : Display) (p : Pos) (before : List ScreenOp) (op : ScreenOp) : Prop :=
  op = .markAllDirty ∨ (d.run (before ++ [op])).screen.cell p ≠ (d.run before).screen.cell p

theorem marked_iff (fg bg : UInt16) (panel : Panel) (ops : List ScreenOp) (p : Pos) :
    ((start fg bg panel).run ops).screen.marked p = true ↔
      .flush ∉ ops ∨ OccursSince (· = .flush) ((start fg bg panel).Touches p) ops := by
  induction ops using List.reverseRecOn with
  | nil => exact iff_of_true (marked_markAllDirty _ p) (.inl List.not_mem_nil)
  | append_singleton ops op ih =>
    have htracked := tracked_run (tracked_start fg bg panel) ops
    by_cases hflush : op = .flush
    · subst hflush
      have hclear := (act_flush htracked p).2.2
      rw [run_snoc, hclear]
      refine iff_of_false Bool.false_ne_true (not_or.mpr ⟨by simp, ?_⟩)
      exact not_occursSince_snoc_mark _ ops (by simp)
    · have hmem : .flush ∉ ops ++ [op] ↔ .flush ∉ ops := by simp [Ne.symm hflush]
      rw [occursSince_snoc_other (by simp [hflush]), hmem, ← or_assoc, ← ih, Touches, run_snoc]
      by_cases hall : op = .markAllDirty
      · subst hall
        exact iff_of_true (marked_markAllDirty _ p) (.inr (.inl rfl))
      · rw [or_iff_right hall]
        exact (written_act _ ⟨hall, hflush⟩).marked p

/-- In every run the marks say which cells may differ from the panel, and a flush draws these. -/
theorem screen_tracked (fg bg : UInt16) (panel : Panel) (ops : List ScreenOp) :
    let d := (start fg bg panel).run ops
    (∀ p, d.screen.marked p = false → d.panel p = d.screen.cell p) ∧
    (∀ p, d.screen.marked p = true ↔
      .flush ∉ ops ∨ OccursSince (· = .flush) ((start fg bg panel).Touches p) ops) ∧
    d.screen.InBounds ∧
    ((∀ p, p ∈ d.screen.marks ↔ d.screen.marked p = true) ∧
      d.screen.marks.Pairwise (Prod.Lex (· < ·) (· < ·)) ∧
      ∀ (σ : Type) (cb : DrawCb σ) (user : σ),
        (d.screen.flush (some cb) user).2.1 =
          d.screen.marks.foldl (fun user p =>
            cb (UInt8.ofNat p.1) (UInt8.ofNat p.2) (d.screen.cell p) user) user ∧
        (d.screen.flush (some cb) user).1.toNat = d.screen.marks.length ∧
        (d.screen.flush (some cb) user).1 = d.screen.dirtyCount) ∧
    ∀ p, (d.act .flush).panel p = (d.act .flush).screen.cell p ∧
      (d.act .flush).screen.cell p = d.screen.cell p := by
  intro d
  have htracked : d.Tracked := tracked_run (tracked_start fg bg panel) ops
  refine ⟨htracked.shown, marked_iff fg bg panel ops, htracked.inBounds,
    ⟨fun p => mem_marks, marks_sorted _, fun σ cb user => ?_⟩, fun p => ?_⟩
  · rw [flush_eq htracked.inBounds, ← dirtyCount_eq htracked.inBounds]
    exact ⟨rfl, toNat_dirtyCount htracked.inBounds, rfl⟩
  · obtain ⟨hpanel, hcell, -⟩ := act_flush htracked p
    exact ⟨hpanel.trans hcell.symm, hcell⟩

end Display
end Rjs
